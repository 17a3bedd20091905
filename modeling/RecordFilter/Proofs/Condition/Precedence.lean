import RecordFilter.Proofs.Condition.Connectives
import RecordFilter.Proofs.Precedence.Dialect

/-!
# Precedence — the tree of a condition

A condition is a chain of atoms between connectives.  The reader, which looks for the place to split
at in the whole text again on each level, gives it the tree of that chain: OR and XOR bind alike and
loosest, AND binds tighter, NOT binds tightest, and connectives group to the left.

An atom is any settled text in which the reader finds no connective.  It may hold the words of
connectives in literals, in groups and in longer words, and it need not be readable itself.
-/

namespace RecordFilter
namespace Condition

open Text Expression

variable {schema : Schema} {a b g s raw x y : Text} {op : Connective} {i : Nat} {tree : Condition}

/-- The language of connectives: OR and XOR bind loosest. -/
def dialect : Dialect Connective Condition :=
  ⟨Connective.keyword, [Connective.isWeak], Condition.binary⟩

/-- A text that may stand beside a connective. -/
structure IsAtom (a : Text) : Prop where
  notBlank : allBlank a = false
  balanced : Balanced a
  quoteClosed : QuoteClosed a
  noConnective : ∀ op : Connective, lastWord? op.keyword a = none

/-- Atoms, with ASCII white space around each connective. -/
def Fits (c : Chain Connective Text) : Prop :=
  (∀ a ∈ c.items, IsAtom a) ∧ ∀ x ∈ c.rest, IsGap x.1.before ∧ IsGap x.1.after

theorem IsAtom.settled (ha : IsAtom a) : Settled a := ⟨ha.balanced, ha.quoteClosed⟩

theorem IsAtom.clear (ha : IsAtom a) : Clear a :=
  fun op i hi => lastWord?_eq_none_iff.1 (ha.noConnective op) i hi

/-! ## Words that show at an end -/

theorem clear_truthWord (b : Bool) : Clear (truthWord b) := by
  intro op i hi
  have hnone : wordOffsets op.keyword (maskGroups (truthWord b)) = [] := by
    cases b <;> cases op <;> decide
  rw [Stands, hnone] at hi
  cases hi

theorem isInert_of_mem_truthWord (b : Bool) : ∀ c ∈ truthWord b, isInert c = true := by
  cases b <;> decide

theorem read_truthWord (schema : Schema) (b : Bool) :
    read schema (truthWord b) = .ok (.truth b) := by
  have hunwrapped : Unwrapped (trim (truthWord b)) := by
    intro inner heq
    cases b <;> exact absurd (List.cons.inj heq).1 (by decide)
  have htidy : tidy (truthWord b) = .ok (trim (truthWord b)) :=
    tidy_of_unwrapped (balanced_inert (isInert_of_mem_truthWord b)) hunwrapped
  refine read_complete (Reads.truth htidy ?_ ?_)
  · cases b <;> exact List.cons_ne_nil _ _
  · cases b <;> rfl

theorem truthOf?_of_stands (h : Stands op i s) : truthOf? s = none := by
  unfold truthOf?
  split
  case isTrue htrue => exact absurd (htrue ▸ h) (clear_truthWord true op i)
  case isFalse =>
    split
    case isTrue hfalse => exact absurd (hfalse ▸ h) (clear_truthWord false op i)
    case isFalse => rfl

/-- The reader on a text with a connective. -/
theorem read_of_split (schema : Schema) (htidy : tidy s = .ok raw)
    (hsplit : split? raw = some (op, x, y)) :
    read schema s =
      if allBlank x || allBlank y then .error ⟨.missingOperand op.keyword, raw⟩
      else
        (do
          let a ← read schema x
          let b ← read schema y
          .ok (.binary op a b raw)) := by
  rcases split?_eq_some hsplit with ⟨hraw, hroot⟩
  -- the text holds the connective, so the checks made before the split pass
  have hne : raw ≠ [] := by
    intro hnil
    rw [hnil] at hraw
    have hkey := keyword_ne_nil op
    simp_all
  rw [read_of_tidy schema htidy hne, truthOf?_of_stands (rootConnective?_spec hroot).1, hsplit]

/-- A connective at an end of the text has no operand there. -/
theorem eq_nil_of_edge (hedge : i = 0 ∨ i + byteSize op.keyword = byteSize s)
    (hs : s = x ++ op.keyword ++ y) (hi : i = byteSize x) : x = [] ∨ y = [] := by
  have hnil : ∀ t : Text, byteSize t = 0 → t = [] := by
    intro t ht
    have hlen := length_le_byteSize t
    exact List.length_eq_zero_iff.1 (by omega)
  rcases hedge with hfirst | hlast
  · exact Or.inl (hnil x (by omega))
  · refine Or.inr (hnil y ?_)
    subst hs
    simp only [byteSize_append] at hlast
    omega

/-- A text is not read if connectives stand at its ends and nowhere else. -/
theorem not_read_of_edge (htidy : tidy s = .ok raw) (hstands : Stands op i raw)
    (hedge : ∀ op i, Stands op i raw → i = 0 ∨ i + byteSize op.keyword = byteSize raw) :
    read schema s ≠ .ok tree := by
  cases hsplit : split? raw with
  | none => exact absurd hstands (split?_eq_none_iff.1 hsplit op i)
  | some parts =>
      rcases parts with ⟨op', x, y⟩
      rcases split?_eq_some hsplit with ⟨hraw, hroot⟩
      have hends := eq_nil_of_edge (hedge op' _ (rootConnective?_spec hroot).1) hraw rfl
      rw [read_of_split schema htidy hsplit, if_pos]
      · rintro ⟨⟩
      · rcases hends with rfl | rfl <;> simp

/-- A connective that shows once an atom is trimmed stands at an end of it. -/
theorem edge_of_trim (ha : IsAtom a) (h : Stands op i (trim a)) :
    i = 0 ∨ i + byteSize op.keyword = byteSize (trim a) := by
  rcases stands_of_trimEnd ha.settled.trimStart.run h with hlast | hinside
  · exact Or.inr hlast
  · rcases stands_of_trimStart hinside with hfirst | ⟨j, hj⟩
    · exact Or.inl hfirst
    · exact absurd hj (ha.clear op j)

/-- No connective shows at the ends of an atom that can be read. -/
theorem clear_trim_of_read (ha : IsAtom a) (h : read schema a = .ok tree) : Clear (trim a) := by
  intro op i hi
  rcases exists_of_stands hi with ⟨x, y, heq, hx⟩
  -- a letter of the keyword stands at one end, so no parentheses wrap the atom
  have hunwrapped : Unwrapped (trim a) := by
    intro inner hwrap
    exfalso
    rw [heq] at hwrap
    rcases eq_nil_of_edge (edge_of_trim ha hi) heq hx with rfl | rfl
    · cases op <;> exact absurd (List.cons.inj hwrap).1 (by decide)
    · have hlast : (x ++ op.keyword).getLast? = some ')' := by
        rw [← List.append_nil (x ++ op.keyword), hwrap]
        exact List.getLast?_concat
      cases op <;> simp [Connective.keyword] at hlast
  have htidy : tidy a = .ok (trim a) := tidy_of_unwrapped ha.balanced hunwrapped
  exact not_read_of_edge htidy hi (fun op i hi => edge_of_trim ha hi) h

/-! ## Chains -/

variable {c : Chain Connective Text} {l : Link Connective} {left right : List (Link Connective × Text)}

theorem write_single (a : Text) : dialect.write ⟨a, []⟩ = a := by
  simp [Dialect.write]

theorem write_cons (a b : Text) (l : Link Connective) (rest : List (Link Connective × Text)) :
    dialect.write ⟨a, (l, b) :: rest⟩ =
      a ++ l.before ++ l.op.keyword ++ l.after ++ dialect.write ⟨b, rest⟩ := by
  simp [Dialect.write, Dialect.linkText, dialect]

theorem fits_cons_iff :
    Fits ⟨a, (l, b) :: right⟩ ↔
      IsAtom a ∧ (IsGap l.before ∧ IsGap l.after) ∧ Fits ⟨b, right⟩ :=
  Chain.forall_cons_iff

theorem splittable_fits : Dialect.Splittable Fits := by
  intro a left l b right hfits
  rcases Chain.forall_append_iff.1 hfits with ⟨hleft, -, hright⟩
  exact ⟨hleft, hright⟩

theorem settled_write (hfits : Fits c) : Settled (dialect.write c) := by
  rcases c with ⟨a, rest⟩
  -- settled texts in a row are settled, and so is each atom, blank and keyword
  induction rest generalizing a with
  | nil =>
      rw [write_single]
      exact (hfits.1 a List.mem_cons_self).settled
  | cons x rest ih =>
      rcases fits_cons_iff.1 hfits with ⟨ha, ⟨hbefore, hafter⟩, hrest⟩
      have hkey : Settled x.1.op.keyword := Settled.of_inert (isInert_of_mem_keyword _)
      have hgap : Settled x.1.before := Settled.of_inert hbefore.isInert
      have hgap' : Settled x.1.after := Settled.of_inert hafter.isInert
      rw [write_cons]
      exact (((ha.settled.append hgap).append hkey).append hgap').append (ih x.2 hrest)

theorem notBlank_write (hfits : Fits c) : allBlank (dialect.write c) = false := by
  have hfirst := (hfits.1 c.first List.mem_cons_self).notBlank
  simp [Dialect.write, hfirst]

/-- In a chain stand the connectives of its links and no others. -/
theorem mem_of_stands_write (hfits : Fits c) (h : Stands op i (dialect.write c)) :
    ∃ x ∈ c.rest, x.1.op = op := by
  rcases c with ⟨a, rest⟩
  -- an occurrence cannot reach over the blanks, so it lies in the first atom, on the first
  -- link or in the chain behind it
  induction rest generalizing a i with
  | nil =>
      rw [write_single] at h
      exact absurd h ((hfits.1 a List.mem_cons_self).clear op i)
  | cons x rest ih =>
      rcases fits_cons_iff.1 hfits with ⟨ha, ⟨hbefore, hafter⟩, hrest⟩
      rw [write_cons, stands_append_iff hbefore hafter ha.settled.run] at h
      rcases h with hfirst | ⟨rfl, -⟩ | ⟨j, hj, -⟩
      · exact absurd hfirst (ha.clear op i)
      · exact ⟨x, List.mem_cons_self, rfl⟩
      · rcases ih x.2 hrest hj with ⟨y, hy, hop⟩
        exact ⟨y, List.mem_cons_of_mem _ hy, hop⟩

/-! ## Trimmed chains -/

theorem IsAtom.trimStart (ha : IsAtom a) (h : Clear (trim a)) : IsAtom (trimStart a) := by
  refine ⟨(allBlank_trimStart a).trans ha.notBlank, ha.settled.trimStart.balanced,
    ha.settled.trimStart.quoteClosed, ?_⟩
  intro op
  have hclear := clear_of_trim ha.settled.trimStart.run (by rwa [trim_trimStart])
  exact lastWord?_eq_none_iff.2 (hclear op)

theorem IsAtom.trimEnd (ha : IsAtom a) (h : Clear (trim a)) : IsAtom (trimEnd a) := by
  refine ⟨(allBlank_trimEnd a).trans ha.notBlank, ha.settled.trimEnd.balanced,
    ha.settled.trimEnd.quoteClosed, ?_⟩
  intro op
  have hclear := clear_of_trim ha.settled.trimEnd.run (by rwa [trim_trimEnd])
  exact lastWord?_eq_none_iff.2 (hclear op)

/-- If no connective shows at the front of a chain, its text without the blanks there is that of a
chain with the same links. -/
theorem mem_of_stands_trimStart (hfits : Fits c) (hclear : ∀ a ∈ c.items, Clear (trim a))
    (h : Stands op i (trimStart (dialect.write c))) : ∃ x ∈ c.rest, x.1.op = op := by
  rcases c with ⟨a, rest⟩
  have ha := hfits.1 a List.mem_cons_self
  have htrim : trimStart (dialect.write ⟨a, rest⟩) = dialect.write ⟨trimStart a, rest⟩ :=
    trimStart_append_of_not_allBlank ha.notBlank _
  have hfits' : Fits ⟨trimStart a, rest⟩ := by
    refine ⟨?_, hfits.2⟩
    intro b hb
    rcases List.mem_cons.1 hb with rfl | hb
    · exact ha.trimStart (hclear a List.mem_cons_self)
    · exact hfits.1 b (List.mem_cons_of_mem _ hb)
  rw [htrim] at h
  rcases mem_of_stands_write hfits' h with ⟨x, hx, hop⟩
  exact ⟨x, hx, hop⟩

/-- The same at the end. -/
theorem mem_of_stands_trimEnd (hfits : Fits c) (hclear : ∀ a ∈ c.items, Clear (trim a))
    (h : Stands op i (trimEnd (dialect.write c))) : ∃ x ∈ c.rest, x.1.op = op := by
  rcases c with ⟨a, rest⟩
  induction rest generalizing a i with
  | nil =>
      have ha := hfits.1 a List.mem_cons_self
      rw [write_single] at h
      exact absurd h ((ha.trimEnd (hclear a List.mem_cons_self)).clear op i)
  | cons x rest ih =>
      rcases fits_cons_iff.1 hfits with ⟨ha, ⟨hbefore, hafter⟩, hrest⟩
      rw [write_cons, trimEnd_append_of_not_allBlank _ (notBlank_write hrest),
        stands_append_iff hbefore hafter ha.settled.run] at h
      rcases h with hfirst | ⟨rfl, -⟩ | ⟨j, hj, -⟩
      · exact absurd hfirst (ha.clear op i)
      · exact ⟨x, List.mem_cons_self, rfl⟩
      · rcases ih x.2 hrest (fun b hb => hclear b (List.mem_cons_of_mem _ hb)) hj with ⟨y, hy, hop⟩
        exact ⟨y, List.mem_cons_of_mem _ hy, hop⟩

/-! ## The root -/

/-- What the reader makes of two sides between which the root of a chain stands.  It splits there,
or at a connective that shows at an end, where it finds no operand. -/
theorem split?_at_root (exposed : Prop)
    (hroot : Chain.IsRoot dialect.tiers (Chain.operators left) l.op (Chain.operators right))
    (hbefore : IsGap l.before) (hafter : IsGap l.after) (ha : Scan.start.run a = .start)
    (hleft : ∀ op i, Stands op i a → (exposed ∧ i = 0) ∨ ∃ x ∈ left, x.1.op = op)
    (hright : ∀ op i, Stands op i b →
      (exposed ∧ i + byteSize op.keyword = byteSize b) ∨ ∃ x ∈ right, x.1.op = op) :
    split? (a ++ l.before ++ l.op.keyword ++ (l.after ++ b)) =
        some (l.op, a ++ l.before, l.after ++ b) ∨
      exposed ∧ ∃ op x y, split? (a ++ l.before ++ l.op.keyword ++ (l.after ++ b)) =
        some (op, x, y) ∧ (x = [] ∨ y = []) := by
  have hiff : ∀ op i, Stands op i (a ++ l.before ++ l.op.keyword ++ (l.after ++ b)) ↔
      Stands op i a ∨ (op = l.op ∧ i = byteSize (a ++ l.before)) ∨
        ∃ j, Stands op j b ∧ i = byteSize (a ++ l.before ++ l.op.keyword ++ l.after) + j := by
    intro op i
    rw [← List.append_assoc _ l.after]
    exact stands_append_iff hbefore hafter ha
  -- the root stands there, so the reader splits, and whatever it splits at beats the root
  have hmid := (hiff l.op _).2 (Or.inr (Or.inl ⟨rfl, rfl⟩))
  cases hsplit : split? (a ++ l.before ++ l.op.keyword ++ (l.after ++ b)) with
  | none => exact absurd hmid (split?_eq_none_iff.1 hsplit l.op _)
  | some parts =>
      rcases parts with ⟨op, x, y⟩
      rcases split?_eq_some hsplit with ⟨heq, hfound⟩
      rcases rootConnective?_spec hfound with ⟨hstands, hlast⟩
      have hlater := hlast l.op _ hmid
      rcases (hiff op _).1 hstands with hin | ⟨rfl, hsize⟩ | ⟨j, hj, hsize⟩
      · rcases hleft op _ hin with ⟨hexposed, hzero⟩ | ⟨z, hz, rfl⟩
        · have hends := eq_nil_of_edge (Or.inl hzero) heq rfl
          exact Or.inr ⟨hexposed, op, x, y, rfl, hends⟩
        · -- a connective left of the root binds tighter, or is not the last of its kind
          exfalso
          rcases exists_of_stands hin with ⟨p, q, rfl, hp⟩
          have hpos := List.length_pos_iff.2 (keyword_ne_nil z.1.op)
          have hlen := length_le_byteSize z.1.op.keyword
          simp only [byteSize_append] at hp hlater
          rcases hroot with ⟨hweak, -⟩ | ⟨hstrong, hall, -⟩
          · have hle := (hlater.1 hweak).2
            omega
          · have hz' := hall z.1.op (List.mem_append_left _ (List.mem_map_of_mem hz))
            have hop : l.op = z.1.op := by
              cases hl : l.op <;> cases hzop : z.1.op <;> simp_all [Connective.isWeak]
            have hle := hlater.2 hop
            omega
      · -- it is the root itself
        apply Or.inl
        rw [List.append_assoc (a ++ l.before), List.append_assoc x] at heq
        rcases append_inj_of_byteSize heq hsize.symm with ⟨hx, hrest⟩
        have hy : l.after ++ b = y := List.append_cancel_left hrest
        rw [← hx, ← hy]
      · rcases hright op j hj with ⟨hexposed, hend⟩ | ⟨z, hz, rfl⟩
        · have hedge : byteSize x + byteSize op.keyword =
              byteSize (a ++ l.before ++ l.op.keyword ++ (l.after ++ b)) := by
            simp only [byteSize_append] at hsize ⊢
            omega
          have hends := eq_nil_of_edge (Or.inr hedge) heq rfl
          exact Or.inr ⟨hexposed, op, x, y, rfl, hends⟩
        · -- no connective right of the root binds as loosely
          exfalso
          rcases hroot with ⟨hweak, hnone⟩ | ⟨-, -, hnil⟩
          · have hz' := hnone z.1.op (List.mem_map_of_mem hz)
            rw [(hlater.1 hweak).1] at hz'
            cases hz'
          · have hright : right = [] := List.map_eq_nil_iff.1 hnil
            rw [hright] at hz
            cases hz

/-! ## Both sides of the root -/

/-- The trimmed text of a chain, cut at one of its links. -/
theorem trim_write (hfits : Fits ⟨a, left ++ (l, b) :: right⟩) :
    trim (dialect.write ⟨a, left ++ (l, b) :: right⟩) =
      trimStart (dialect.write ⟨a, left⟩) ++ l.before ++ l.op.keyword ++
        (l.after ++ trimEnd (dialect.write ⟨b, right⟩)) := by
  rcases splittable_fits a left l b right hfits with ⟨hleft, hright⟩
  calc
    trim (dialect.write ⟨a, left ++ (l, b) :: right⟩) =
        trimEnd (trimStart (dialect.write ⟨a, left⟩ ++
          (dialect.linkText l ++ dialect.write ⟨b, right⟩))) := by
      rw [Dialect.write_append, trim, List.append_assoc]
    _ = trimEnd (trimStart (dialect.write ⟨a, left⟩) ++ dialect.linkText l ++
          dialect.write ⟨b, right⟩) := by
      rw [trimStart_append_of_not_allBlank (notBlank_write hleft), List.append_assoc]
    _ = trimStart (dialect.write ⟨a, left⟩) ++ dialect.linkText l ++
          trimEnd (dialect.write ⟨b, right⟩) :=
      trimEnd_append_of_not_allBlank _ (notBlank_write hright)
    _ = trimStart (dialect.write ⟨a, left⟩) ++ l.before ++ l.op.keyword ++
          (l.after ++ trimEnd (dialect.write ⟨b, right⟩)) := by
      simp [Dialect.linkText, dialect]

theorem tidy_write (hfits : Fits ⟨a, left ++ (l, b) :: right⟩) :
    tidy (dialect.write ⟨a, left ++ (l, b) :: right⟩) =
      .ok (trim (dialect.write ⟨a, left ++ (l, b) :: right⟩)) := by
  rcases splittable_fits a left l b right hfits with ⟨hleft, hright⟩
  rcases hfits.2 (l, b) (by simp) with ⟨hbefore, hafter⟩
  have hkey : Settled l.op.keyword := Settled.of_inert (isInert_of_mem_keyword _)
  have hgap : Settled l.before := Settled.of_inert hbefore.isInert
  have hfirst := ((settled_write hleft).trimStart.append hgap).append hkey
  have hne : trimStart (dialect.write ⟨a, left⟩) ++ l.before ++ l.op.keyword ≠ [] := by
    simp [keyword_ne_nil]
  have hne' : l.after ++ trimEnd (dialect.write ⟨b, right⟩) ≠ [] := by
    simp [hafter.1]
  have hunwrapped := unwrapped_append hfirst.balanced hfirst.quoteClosed hne hne'
  rw [← trim_write hfits] at hunwrapped
  exact tidy_of_unwrapped (settled_write hfits).balanced hunwrapped

theorem read_before (schema : Schema) (hg : IsGap g) (s : Text) :
    read schema (trimStart s ++ g) = read schema s := by
  apply read_congr schema
  rw [trim_append_of_allBlank_right _ hg.allBlank, trim_trimStart]

theorem read_after (schema : Schema) (hg : IsGap g) (s : Text) :
    read schema (g ++ trimEnd s) = read schema s := by
  apply read_congr schema
  rw [trim_append_of_allBlank_left hg.allBlank, trim_trimEnd]

/-- The reader on a chain that it splits at its root. -/
theorem read_at_root (hfits : Fits ⟨a, left ++ (l, b) :: right⟩)
    (hsplit : split? (trim (dialect.write ⟨a, left ++ (l, b) :: right⟩)) =
      some (l.op, trimStart (dialect.write ⟨a, left⟩) ++ l.before,
        l.after ++ trimEnd (dialect.write ⟨b, right⟩))) :
    read schema (dialect.write ⟨a, left ++ (l, b) :: right⟩) =
      (do
        let x ← read schema (dialect.write ⟨a, left⟩)
        let y ← read schema (dialect.write ⟨b, right⟩)
        .ok (.binary l.op x y (trim (dialect.write ⟨a, left ++ (l, b) :: right⟩)))) := by
  rcases splittable_fits a left l b right hfits with ⟨hleft, hright⟩
  rcases hfits.2 (l, b) (by simp) with ⟨hbefore, hafter⟩
  rw [read_of_split schema (tidy_write hfits) hsplit, if_neg, read_before schema hbefore,
    read_after schema hafter]
  simp [allBlank_trimStart, allBlank_trimEnd, notBlank_write hleft, notBlank_write hright]

theorem splitsAtRoot (schema : Schema) : dialect.SplitsAtRoot (read schema) Fits := by
  intro a left l b right hfits hroot hitems x y hx hy
  rcases splittable_fits a left l b right hfits with ⟨hleft, hright⟩
  rcases hfits.2 (l, b) (by simp) with ⟨hbefore, hafter⟩
  -- each item is read, so trimming the chain exposes no connective at its ends
  have hclear : ∀ i ∈ (⟨a, left ++ (l, b) :: right⟩ : Chain Connective Text).items,
      Clear (trim i) := by
    intro i hi
    rcases hitems i hi with ⟨tree, htree⟩
    exact clear_trim_of_read (hfits.1 i hi) htree
  rw [Chain.items_append] at hclear
  have hsplit := split?_at_root False hroot hbefore hafter
    (settled_write hleft).trimStart.run
    (fun op i hi => Or.inr (mem_of_stands_trimStart hleft
      (fun i hi => hclear i (List.mem_append_left _ hi)) hi))
    (fun op i hi => Or.inr (mem_of_stands_trimEnd hright
      (fun i hi => hclear i (List.mem_append_right _ hi)) hi))
  rw [← trim_write hfits] at hsplit
  rcases hsplit with hsplit | ⟨hfalse, -⟩
  · rw [read_at_root hfits hsplit, hx, hy]
    rfl
  · exact absurd hfalse not_false

theorem needsBothSides (schema : Schema) : dialect.NeedsBothSides (read schema) Fits := by
  rintro a left l b right hfits hroot ⟨tree, htree⟩
  rcases splittable_fits a left l b right hfits with ⟨hleft, hright⟩
  rcases hfits.2 (l, b) (by simp) with ⟨hbefore, hafter⟩
  have hl := settled_write hleft
  have hr := settled_write hright
  have hsplit := split?_at_root True hroot hbefore hafter hl.trimStart.run
    (by
      intro op i hi
      rcases stands_of_trimStart hi with hfirst | ⟨j, hj⟩
      · exact Or.inl ⟨trivial, hfirst⟩
      · exact Or.inr (mem_of_stands_write hleft hj))
    (by
      intro op i hi
      rcases stands_of_trimEnd hr.run hi with hlast | hinside
      · exact Or.inl ⟨trivial, hlast⟩
      · exact Or.inr (mem_of_stands_write hright hinside))
  rw [← trim_write hfits] at hsplit
  rcases hsplit with hsplit | ⟨-, op, x, y, hsplit, hends⟩
  · -- the reader split at the root, and read both sides
    rw [read_at_root hfits hsplit] at htree
    rcases bind_eq_ok_iff.1 htree with ⟨x, hx, hrest⟩
    rcases bind_eq_ok_iff.1 hrest with ⟨y, hy, -⟩
    exact ⟨⟨x, hx⟩, ⟨y, hy⟩⟩
  · -- it split at a connective exposed at an end, and refused the text
    have hblank : (allBlank x || allBlank y) = true := by
      rcases hends with rfl | rfl <;> simp
    rw [read_of_split schema (tidy_write hfits) hsplit, if_pos hblank] at htree
    cases htree

/-! ## Negation -/

theorem isInert_of_mem_notKeyword : ∀ c ∈ notKeyword, isInert c = true := by decide

/-- Behind a leading NOT stand the connectives of what it negates. -/
theorem stands_not_iff (hg : IsGap g) :
    Stands op i (notKeyword ++ g ++ a) ↔ ∃ j, Stands op j a ∧ i = byteSize (notKeyword ++ g) + j := by
  have hnot : Scan.start.run notKeyword = .start := Scan.run_inert isInert_of_mem_notKeyword _
  have hmask : maskGroups (notKeyword ++ g ++ a) = notKeyword ++ g ++ maskGroups a := by
    rw [maskGroups_append, maskGroups_append_blank hnot hg.allBlank,
      maskGroups_inert isInert_of_mem_notKeyword]
    simp [hnot, Scan.run_blank hg.allBlank]
  have hnone : wordOffsets op.keyword notKeyword = [] := by
    cases op <;> decide
  rw [Stands, hmask, wordOffsets_append_gap (keyword_ne_nil op) (hg.separates op) hg.1, hnone]
  simp only [List.nil_append, List.mem_map, byteSize_append]
  constructor
  · rintro ⟨j, hj, rfl⟩
    exact ⟨j, hj, rfl⟩
  · rintro ⟨j, hj, rfl⟩
    exact ⟨j, hj, rfl⟩

theorem truthOf?_not (s : Text) : truthOf? (notKeyword ++ s) = none := by
  simp [truthOf?, notKeyword, truthWord]

theorem negated?_not (hg : IsGap g) (s : Text) :
    negated? (notKeyword ++ g ++ s) = some (g ++ s) := by
  rcases hg with ⟨hne, hblank⟩
  cases g with
  | nil => exact absurd rfl hne
  | cons c g =>
      have hword := isWordChar_of_ascii_blank (hblank c List.mem_cons_self).1
        (hblank c List.mem_cons_self).2
      simp only [isWordChar, Bool.or_eq_false_iff] at hword
      simp [negated?, notKeyword, hword]

theorem tidy_not (ha : IsAtom a) (hg : IsGap g) :
    tidy (notKeyword ++ g ++ a) = .ok (notKeyword ++ g ++ trimEnd a) ∧
      trim (notKeyword ++ g ++ a) = notKeyword ++ g ++ trimEnd a := by
  have hsettled : Settled (notKeyword ++ g ++ a) :=
    ((Settled.of_inert isInert_of_mem_notKeyword).append (Settled.of_inert hg.isInert)).append
      ha.settled
  have htrim : trim (notKeyword ++ g ++ a) = notKeyword ++ g ++ trimEnd a := by
    have hstart : trimStart (notKeyword ++ g ++ a) = notKeyword ++ g ++ a :=
      trimStart_cons (by decide) _
    rw [trim, hstart, trimEnd_append_of_not_allBlank _ ha.notBlank]
  have hunwrapped : Unwrapped (trim (notKeyword ++ g ++ a)) := by
    intro inner heq
    rw [htrim] at heq
    exact absurd (List.cons.inj heq).1 (by decide)
  refine ⟨?_, htrim⟩
  rw [tidy_of_unwrapped hsettled.balanced hunwrapped, htrim]

theorem read_not (schema : Schema) (ha : IsAtom a) (hg : IsGap g) :
    read schema (notKeyword ++ g ++ a) = .ok tree ↔
      ∃ child, read schema a = .ok child ∧ tree = .negation child (trim (notKeyword ++ g ++ a)) := by
  rcases tidy_not ha hg with ⟨htidy, htrim⟩
  rw [htrim]
  by_cases hclear : Clear (trimEnd a)
  · -- there is nothing to split at, so the reader comes to the leading NOT
    have hnone : split? (notKeyword ++ g ++ trimEnd a) = none := by
      refine split?_eq_none_iff.2 ?_
      intro op i hi
      rcases (stands_not_iff hg).1 hi with ⟨j, hj, -⟩
      exact hclear op j hj
    have htruth : truthOf? (notKeyword ++ g ++ trimEnd a) = none := by
      rw [List.append_assoc]
      exact truthOf?_not _
    have hblank : allBlank (g ++ trimEnd a) = false := by
      simp [allBlank_trimEnd, ha.notBlank]
    rw [read_of_tidy schema htidy (by simp [notKeyword]), htruth, hnone, negated?_not hg]
    simp only [hblank, read_after schema hg]
    cases hchild : read schema a with
    | error e => simp [bind, Except.bind]
    | ok child =>
        constructor
        · rintro ⟨⟩
          exact ⟨child, rfl, rfl⟩
        · rintro ⟨_, ⟨⟩, rfl⟩
          rfl
  · -- a connective shows at the end of the atom, so neither text is read
    have hedge : ∀ op i, Stands op i (notKeyword ++ g ++ trimEnd a) →
        i = 0 ∨ i + byteSize op.keyword = byteSize (notKeyword ++ g ++ trimEnd a) := by
      intro op i hi
      rcases (stands_not_iff hg).1 hi with ⟨j, hj, rfl⟩
      rcases stands_of_trimEnd ha.settled.run hj with hlast | hinside
      · apply Or.inr
        rw [byteSize_append _ (trimEnd a), ← hlast, Nat.add_assoc]
      · exact absurd hinside (ha.clear op j)
    constructor
    · intro h
      exfalso
      apply hclear
      intro op i hi
      exact not_read_of_edge htidy ((stands_not_iff hg).2 ⟨i, hi, rfl⟩) hedge h
    · rintro ⟨child, hchild, -⟩
      have hshown := clear_trim_of_read ha hchild
      exact absurd (clear_of_trim ha.settled.trimEnd.run (by rwa [trim_trimEnd])) hclear

/-! ## Precedence -/

/-- A chain of atoms is read exactly if each atom is, and then as the tree of the chain with the
trees of the atoms at its leaves.  NOT before an atom negates that atom, and parentheses around a
settled text change nothing. -/
theorem read_chain_of_atoms (schema : Schema) :
    (∀ c, Fits c →
      ((∃ tree, read schema (dialect.write c) = .ok tree) ↔
        ∀ a ∈ c.items, ∃ tree, read schema a = .ok tree) ∧
      ∀ leaf : Text → Condition, (∀ a ∈ c.items, read schema a = .ok (leaf a)) →
        read schema (dialect.write c) = .ok (dialect.tree leaf c)) ∧
    (∀ a g tree, IsAtom a → IsGap g →
      (read schema (notKeyword ++ g ++ a) = .ok tree ↔
        ∃ child, read schema a = .ok child ∧
          tree = .negation child (trim (notKeyword ++ g ++ a)))) ∧
    ∀ e tree, Balanced e → QuoteClosed e →
      (read schema ('(' :: e ++ [')']) = .ok tree ↔ read schema e = .ok tree) := by
  refine ⟨?_, fun a g tree ha hg => read_not schema ha hg, fun e tree he hq => read_group schema ⟨he, hq⟩⟩
  intro c hfits
  have hread : ∀ leaf : Text → Condition, (∀ a ∈ c.items, read schema a = .ok (leaf a)) →
      read schema (dialect.write c) = .ok (dialect.tree leaf c) :=
    fun leaf hleaf => Dialect.read_write splittable_fits (splitsAtRoot schema) c hfits hleaf
  refine ⟨⟨?_, ?_⟩, hread⟩
  · exact Dialect.read_items splittable_fits (needsBothSides schema) c hfits
  · intro hitems
    have hleaf : ∀ a ∈ c.items,
        read schema a = .ok ((read schema a).toOption.getD (.truth true)) := by
      intro a ha
      rcases hitems a ha with ⟨tree, htree⟩
      rw [htree]
      rfl
    exact ⟨_, hread _ hleaf⟩

/-- A disjunction whose right side is a conjunction, a negation and a condition in parentheses. -/
theorem read_or_and_not_group :
    read .default "TRUE OR\t(FALSE)\nAND TRUE".toList =
        .ok (.binary .or (.truth true)
          (.binary .and (.truth false) (.truth true) "(FALSE)\nAND TRUE".toList)
          "TRUE OR\t(FALSE)\nAND TRUE".toList) ∧
      read .default "NOT TRUE".toList = .ok (.negation (.truth true) "NOT TRUE".toList) ∧
      read .default "(TRUE)".toList = .ok (.truth true) := by
  have htrue := read_truthWord .default true
  have hfalse := read_truthWord .default false
  have hatom : IsAtom (truthWord true) :=
    ⟨by decide, by decide, by decide, by intro op; cases op <;> decide⟩
  have hgroup : IsAtom ('(' :: truthWord false ++ [')']) :=
    ⟨by decide, by decide, by decide, by intro op; cases op <;> decide⟩
  rcases read_chain_of_atoms .default with ⟨hchain, hnot, hparens⟩
  let c : Chain Connective Text :=
    ⟨truthWord true, [(⟨[' '], .or, ['\t']⟩, '(' :: truthWord false ++ [')']),
      (⟨['\n'], .and, [' ']⟩, truthWord true)]⟩
  have hfits : Fits c := by
    refine ⟨?_, ?_⟩
    · intro a ha
      simp only [c, Chain.items, List.map_cons, List.map_nil, List.mem_cons, List.not_mem_nil,
        or_false] at ha
      rcases ha with rfl | rfl | rfl
      · exact hatom
      · exact hgroup
      · exact hatom
    · decide
  have hgroup' := (hparens (truthWord false) (.truth false) (by decide) (by decide)).2 hfalse
  refine ⟨?_, ?_, ?_⟩
  · refine (hchain c hfits).2 (fun a => .truth (a == truthWord true)) ?_
    intro a ha
    simp only [c, Chain.items, List.map_cons, List.map_nil, List.mem_cons, List.not_mem_nil,
      or_false] at ha
    rcases ha with rfl | rfl | rfl
    · exact htrue
    · exact hgroup'
    · exact htrue
  · exact (hnot (truthWord true) [' '] _ hatom (by decide)).2 ⟨.truth true, htrue, rfl⟩
  · exact (hparens (truthWord true) _ (by decide) (by decide)).2 htrue

end Condition
end RecordFilter
