import Mathlib.Data.List.MinMax
import Mathlib.Order.Nat
import RecordFilter.Outline
import RecordFilter.Proofs.Comparison.Operands
import RecordFilter.Proofs.Condition.Parentheses
import RecordFilter.Proofs.Expression.Parts

/-!
# Nodes — what holds of every node of a tree

Three readers hand parts of a text to one another, and each of them tidies its part again.  What a node
keeps is the tidy text, so the node is what the reader of its kind makes of its own text alone, and that
text is a proper part of the text of its parent (`Node.read_nodes`).

Texts get shorter from call to call, so the readers end (`Call.accessible`), and the complexity of a tree
is no more than the length of its text (`Node.complexity_le`).
-/

namespace RecordFilter

open Text Expression

variable {schema : Schema} {s t u raw left right rest : Text}

/-! ## Calls -/

/-- A reader and the text that it is given. -/
inductive Call where
  | condition (s : Text)
  | comparison (s : Text)
  | arithmetic (s : Text)

namespace Call

/-- `Makes c d`: the reader of `c` may hand the text of `d` to the reader of `d`. -/
inductive Makes : Call → Call → Prop where
  | connected {s raw left right t : Text} {op : Condition.Connective} : tidy s = .ok raw →
      Condition.split? raw = some (op, left, right) → t = left ∨ t = right →
      Makes (.condition s) (.condition t)
  | negated {s raw t : Text} : tidy s = .ok raw → Condition.negated? raw = some t →
      Makes (.condition s) (.condition t)
  | compared {s raw : Text} : tidy s = .ok raw → Makes (.condition s) (.comparison raw)
  | related {s raw left right t : Text} {r : Comparison.Relation} : tidy s = .ok raw →
      Comparison.split? raw = some (r, left, right) → t = left ∨ t = right →
      Makes (.comparison s) (.arithmetic t)
  | computed {s raw left right t : Text} {op : Arithmetic.Operator} : tidy s = .ok raw →
      Arithmetic.split? raw = some (op, left, right) → t = left ∨ t = right →
      Makes (.arithmetic s) (.arithmetic t)

/-- Twice the length of the text, and one more where the next call may be on the same text. -/
def weight : Call → Nat
  | .condition s => 2 * s.length + 1
  | .comparison s => 2 * s.length
  | .arithmetic s => 2 * s.length

theorem weight_of_makes {c d : Call} (h : Makes c d) : d.weight < c.weight := by
  have hshorter : ∀ {s raw left right t : Text}, tidy s = .ok raw →
      ProperPart left raw ∧ ProperPart right raw → t = left ∨ t = right → t.length < s.length := by
    rintro s raw left right t htidy ⟨hleft, hright⟩ hside
    have hraw := length_le_of_tidy htidy
    rcases hside with rfl | rfl
    · exact Nat.lt_of_lt_of_le hleft.shorter hraw
    · exact Nat.lt_of_lt_of_le hright.shorter hraw
  cases h with
  | connected htidy hsplit hside =>
      have hlen := hshorter htidy (Condition.properPart_of_split? hsplit) hside
      simp only [weight]
      omega
  | negated htidy hneg =>
      have hpart := Condition.properPart_of_negated? hneg
      have hlen := hshorter htidy ⟨hpart, hpart⟩ (Or.inl rfl)
      simp only [weight]
      omega
  | compared htidy =>
      have hlen := length_le_of_tidy htidy
      simp only [weight]
      omega
  | related htidy hsplit hside =>
      have hlen := hshorter htidy (Comparison.properPart_of_split? hsplit) hside
      simp only [weight]
      omega
  | computed htidy hsplit hside =>
      have hlen := hshorter htidy (Arithmetic.properPart_of_split? hsplit) hside
      simp only [weight]
      omega

/-- No call begins an endless chain of calls. -/
theorem accessible (c : Call) : Acc (fun d c => Makes c d) c := by
  induction hn : c.weight using Nat.strongRecOn generalizing c with
  | ind n ih =>
      subst hn
      exact ⟨c, fun d hd => ih d.weight (weight_of_makes hd) d rfl⟩

end Call

/-! ## The text of a node -/

theorem Arithmetic.tidy_of_reads {a : Arithmetic} (h : Reads schema s a) :
    tidy s = .ok a.raw ∧ a.raw ≠ [] := by
  cases h with
  | leaf htidy hne _ hleaf =>
      rcases readLeaf_cases hleaf with rfl | ⟨x, rfl⟩
      · exact ⟨htidy, hne⟩
      · exact ⟨htidy, hne⟩
  | binary htidy hne _ _ _ _ _ => exact ⟨htidy, hne⟩

theorem Comparison.tidy_of_read {c : Comparison} (h : read schema s = .ok c) :
    tidy s = .ok c.raw ∧ c.raw ≠ [] := by
  rcases exists_sides_of_read h with ⟨a, b, htidy, hraw, -⟩
  refine ⟨htidy, ?_⟩
  rw [hraw]
  simp [symbol_ne_nil c.written]

theorem Condition.tidy_of_reads {c : Condition} (h : Reads schema s c) :
    tidy s = .ok c.raw ∧ c.raw ≠ [] := by
  cases h with
  | truth htidy hne htruth =>
      rw [eq_truthWord_of_truthOf? htruth] at htidy hne
      exact ⟨htidy, hne⟩
  | binary htidy hne _ _ _ _ _ _ => exact ⟨htidy, hne⟩
  | negation htidy hne _ _ _ _ _ => exact ⟨htidy, hne⟩
  | comparison htidy _ _ _ _ hc =>
      rcases Comparison.tidy_of_read hc with ⟨hraw, hne⟩
      rw [tidy_of_tidy htidy] at hraw
      cases hraw
      exact ⟨htidy, hne⟩

namespace Node

variable {n m root : Node}

/-- The node is what the reader of its kind makes of a text.  A condition that is one comparison is seen
as that comparison. -/
def ReadFrom (schema : Schema) (s : Text) : Node → Prop
  | .condition c => Condition.read schema s = .ok c ∧ ofCondition c = .condition c
  | .comparison c => Comparison.read schema s = .ok c
  | .arithmetic a => Arithmetic.read schema s = .ok a

theorem readFrom_ofCondition {c : Condition} (h : Condition.read schema s = .ok c) :
    (ofCondition c).ReadFrom schema s := by
  cases c with
  | truth b => exact ⟨h, rfl⟩
  | negation child raw => exact ⟨h, rfl⟩
  | binary op left right raw => exact ⟨h, rfl⟩
  | comparison c =>
      cases Condition.read_sound h with
      | comparison htidy _ _ _ _ hc => exact Comparison.read_of_tidy_eq hc (tidy_of_tidy htidy) htidy

theorem ReadFrom.tidy_eq (h : n.ReadFrom schema s) : tidy s = .ok n.raw ∧ n.raw ≠ [] := by
  cases n with
  | condition c => exact Condition.tidy_of_reads (Condition.read_sound h.1)
  | comparison c => exact Comparison.tidy_of_read h
  | arithmetic a => exact Arithmetic.tidy_of_reads (Arithmetic.read_sound h)

/-- The node is known from its own text. -/
theorem ReadFrom.again (h : n.ReadFrom schema s) : n.ReadFrom schema n.raw := by
  have htidy := h.tidy_eq.1
  have hagain := tidy_of_tidy htidy
  cases n with
  | condition c =>
      refine ⟨Condition.read_complete ((Condition.read_sound h.1).of_tidy_eq ?_), h.2⟩
      rw [htidy, hagain]
  | comparison c => exact Comparison.read_of_tidy_eq h htidy hagain
  | arithmetic a =>
      refine Arithmetic.read_complete ((Arithmetic.read_sound h).of_tidy_eq ?_)
      rw [htidy, hagain]

/-! ## One step down -/

/-- What hangs below a comparison is read from its sides. -/
theorem readFrom_of_comparison {c : Comparison} (h : Comparison.read schema s = .ok c)
    (hm : m ∈ operandChildren c.operands) : ∃ t, ProperPart t c.raw ∧ m.ReadFrom schema t := by
  rcases Comparison.exists_sides_of_read h with ⟨a, b, -, hraw, -, -, -, -, -, hpaired⟩
  rcases properPart_sides (Comparison.symbol_ne_nil c.written) a b with ⟨ha, hb⟩
  rw [← hraw] at ha hb
  have hfront : ProperPart (trim (Comparison.fieldSide c.swapped a b)) c.raw := by
    refine .of_part (trim_part _) ?_
    cases c.swapped
    · exact ha
    · exact hb
  have hother : ProperPart (trim (Comparison.otherSide c.swapped a b)) c.raw := by
    refine .of_part (trim_part _) ?_
    cases c.swapped
    · exact hb
    · exact ha
  generalize c.operands = operands at hm hpaired
  cases hpaired with
  | numeric _ hleft hright =>
      rcases List.mem_pair.1 hm with rfl | rfl
      · exact ⟨_, hfront, hleft⟩
      · exact ⟨_, hother, hright⟩
  | text => cases hm

/-- Each child is read from a proper part of the text of its parent. -/
theorem ReadFrom.child (h : n.ReadFrom schema s) (hm : m ∈ n.children) :
    ∃ t, ProperPart t n.raw ∧ m.ReadFrom schema t := by
  cases n with
  | condition c =>
      cases Condition.read_sound h.1 with
      | truth => cases hm
      | comparison => cases hm
      | binary _ _ _ hsplit _ _ ha hb =>
          rcases Condition.properPart_of_split? hsplit with ⟨hleft, hright⟩
          rcases List.mem_pair.1 hm with rfl | rfl
          · exact ⟨_, hleft, readFrom_ofCondition (Condition.read_complete ha)⟩
          · exact ⟨_, hright, readFrom_ofCondition (Condition.read_complete hb)⟩
      | negation _ _ _ _ hneg _ hchild =>
          rcases List.mem_singleton.1 hm with rfl
          exact ⟨_, Condition.properPart_of_negated? hneg,
            readFrom_ofCondition (Condition.read_complete hchild)⟩
  | comparison c => exact readFrom_of_comparison h hm
  | arithmetic a =>
      cases Arithmetic.read_sound h with
      | leaf _ _ _ hleaf =>
          rcases Arithmetic.readLeaf_cases hleaf with rfl | ⟨x, rfl⟩
          · cases hm
          · cases hm
      | binary _ _ hsplit _ _ ha hb =>
          rcases Arithmetic.properPart_of_split? hsplit with ⟨hleft, hright⟩
          rcases List.mem_pair.1 hm with rfl | rfl
          · exact ⟨_, hleft, Arithmetic.read_complete ha⟩
          · exact ⟨_, hright, Arithmetic.read_complete hb⟩

/-! ## Complexity -/

/-- The complexity of a node without children. -/
def leafComplexity : Node → Nat
  | .arithmetic _ => 0
  | _ => 1

@[simp] theorem complexity_condition (c : Condition) : (condition c).complexity = c.complexity := rfl

@[simp] theorem complexity_comparison (c : Comparison) : (comparison c).complexity = c.complexity := rfl

@[simp] theorem complexity_arithmetic (a : Arithmetic) : (arithmetic a).complexity = a.complexity := rfl

@[simp] theorem complexity_ofCondition (c : Condition) : (ofCondition c).complexity = c.complexity := by
  cases c <;> rfl

theorem complexity_of_leaf (h : n.ReadFrom schema s) (hnil : n.children = []) :
    n.complexity = n.leafComplexity := by
  cases n with
  | condition c =>
      cases c with
      | truth b => rfl
      | comparison c => cases h.2
      | negation child raw => cases hnil
      | binary op left right raw => cases hnil
  | comparison c =>
      obtain ⟨raw, written, swapped, operands⟩ := c
      cases operands with
      | numeric left right => cases hnil
      | text field literal => rfl
  | arithmetic a =>
      cases a with
      | number raw x => rfl
      | field name => rfl
      | binary op left right raw => cases hnil

theorem complexity_of_inner (hne : n.children ≠ []) :
    n.complexity = (n.children.map complexity).foldr max 0 + 1 := by
  cases n with
  | condition c =>
      cases c with
      | truth b => exact absurd rfl hne
      | comparison c => exact absurd rfl hne
      | negation child raw => simp [children, Condition.children, Condition.complexity]
      | binary op left right raw => simp [children, Condition.children, Condition.complexity]
  | comparison c =>
      obtain ⟨raw, written, swapped, operands⟩ := c
      cases operands with
      | numeric left right => simp [children, operandChildren, Comparison.complexity]
      | text field literal => exact absurd rfl hne
  | arithmetic a =>
      cases a with
      | number raw x => exact absurd rfl hne
      | field name => exact absurd rfl hne
      | binary op left right raw => simp [children, arithmeticChildren, Arithmetic.complexity]

/-! ## Every node -/

/-- A node whose text is tidy and known from itself, with the texts of its children properly inside it
and a complexity that goes by theirs. -/
structure Sound (schema : Schema) (n : Node) : Prop where
  ne_nil : n.raw ≠ []
  trimmed : trim n.raw = n.raw
  balanced : Balanced n.raw
  unwrapped : unwrap n.raw = n.raw
  reread : n.ReadFrom schema n.raw
  parts : ∀ m ∈ n.children, ProperPart m.raw n.raw
  leaf : n.children = [] → n.complexity = n.leafComplexity
  inner : n.children ≠ [] → n.complexity = (n.children.map complexity).foldr max 0 + 1

theorem ReadFrom.sound (h : n.ReadFrom schema s) : n.Sound schema where
  ne_nil := h.tidy_eq.2
  trimmed := (tidy_spec h.tidy_eq.1).1
  balanced := (tidy_spec h.tidy_eq.1).2.1
  unwrapped := unwrap_of_tidy h.tidy_eq.1
  reread := h.again
  parts := by
    intro m hm
    rcases h.child hm with ⟨t, ht, hread⟩
    exact .of_part (part_of_tidy hread.tidy_eq.1) ht
  leaf := complexity_of_leaf h
  inner := complexity_of_inner

/-- The nodes of a tree: its root, and the children of its nodes. -/
inductive Within (root : Node) : Node → Prop where
  | root : Within root root
  | child {n m : Node} : Within root n → m ∈ n.children → Within root m

/-- Below a node that was read each node was read. -/
theorem Within.readFrom (h : Within root n) (hroot : root.ReadFrom schema s) :
    ∃ t, n.ReadFrom schema t := by
  induction h with
  | root => exact ⟨s, hroot⟩
  | child _ hm ih =>
      rcases ih with ⟨t, hread⟩
      rcases hread.child hm with ⟨u, -, hchild⟩
      exact ⟨u, hchild⟩

/-- No tree is more complex than its text is long. -/
theorem complexity_le (h : n.ReadFrom schema s) : n.complexity ≤ n.raw.length := by
  -- the texts of the children are shorter, each by one at least
  induction hn : n.raw.length using Nat.strongRecOn generalizing n s with
  | ind k ih =>
      subst hn
      have hsound := h.sound
      have hpos := List.length_pos_iff.2 hsound.ne_nil
      by_cases hnil : n.children = []
      · have hleaf : n.leafComplexity ≤ 1 := by
          cases n <;> simp [leafComplexity]
        rw [hsound.leaf hnil]
        omega
      · have hbelow : (n.children.map complexity).foldr max 0 ≤ n.raw.length - 1 := by
          refine List.max_le_of_forall_le (n.children.map complexity) (n.raw.length - 1) fun x hx => ?_
          rcases List.mem_map.1 hx with ⟨m, hm, rfl⟩
          rcases h.child hm with ⟨t, -, hread⟩
          have hshorter := (hsound.parts m hm).shorter
          have hle := ih m.raw.length hshorter hread rfl
          omega
        rw [hsound.inner hnil]
        omega

/-- The reader of conditions ends on every text, and of a tree that it returns every node is sound, and
the complexity of the root is no more than the bytes of its text. -/
theorem read_nodes (schema : Schema) (s : Text) :
    Acc (fun d c => Call.Makes c d) (.condition s) ∧
      ∀ tree, Condition.read schema s = .ok tree →
        (∀ n, Within (ofCondition tree) n → n.Sound schema) ∧
          (ofCondition tree).complexity ≤ byteSize (ofCondition tree).raw := by
  refine ⟨Call.accessible _, fun tree htree => ?_⟩
  have hroot := readFrom_ofCondition htree
  refine ⟨fun n hn => ?_, ?_⟩
  · rcases hn.readFrom hroot with ⟨t, hread⟩
    exact hread.sound
  · exact Nat.le_trans (complexity_le hroot) (length_le_byteSize _)

/-- A difference in the third level, where parentheses and a loose one have gone on the way down. -/
theorem read_nodes_of_difference :
    let s := " (NOT 'a' = (thing) AND result < (result - result)".toList
    let difference : Arithmetic :=
      .binary .sub (.field "result".toList) (.field "result".toList) "result - result".toList
    ∃ tree, Condition.read .default s = .ok tree ∧ Within (ofCondition tree) (.arithmetic difference) ∧
      (Node.arithmetic difference).Sound .default ∧
      (ofCondition tree).complexity = 3 ∧ 3 ≤ byteSize (ofCondition tree).raw := by
  intro s difference
  let equality : Comparison := ⟨"'a' = (thing)".toList, .eq, true, .text "thing".toList "a".toList⟩
  let order : Comparison :=
    ⟨"result < (result - result)".toList, .lt, false, .numeric (.field "result".toList) difference⟩
  let tree : Condition :=
    .binary .and (.negation (.comparison equality) "NOT 'a' = (thing)".toList) (.comparison order)
      "NOT 'a' = (thing) AND result < (result - result)".toList
  have hread : Condition.read .default s = .ok tree := by decide +kernel
  have hwithin : Within (ofCondition tree) (.arithmetic difference) := by
    have horder : Within (ofCondition tree) (.comparison order) :=
      .child .root (List.mem_cons_of_mem _ List.mem_cons_self)
    exact .child horder (List.mem_cons_of_mem _ List.mem_cons_self)
  have hnodes := (read_nodes .default s).2 tree hread
  exact ⟨tree, hread, hwithin, hnodes.1 _ hwithin, rfl, hnodes.2⟩

end Node
end RecordFilter
