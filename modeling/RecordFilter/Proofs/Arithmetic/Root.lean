import RecordFilter.Proofs.Expression.Masking
import RecordFilter.Proofs.Precedence.Chain
import RecordFilter.Proofs.Arithmetic.Operators
import RecordFilter.Proofs.Text.Parts

/-!
# Root — the operator that an expression is split at

The reader lists the operators of the mask and splits at the root of that list
(`isRoot_of_rootOperator?`, `rootOperator?_of_isRoot`).  An operator in the mask of a balanced text is
a character of the text between two balanced sides (`split?_eq_some`).
-/

namespace RecordFilter
namespace Arithmetic

open Text Expression

variable {s x y : Text} {i : Nat} {op : Operator} {tier : Operator.Tier}
  {found left right : List (Nat × Operator)}

/-- The tiers of operators that are told apart from the tighter ones. -/
def tiers : List (Operator → Bool) :=
  [fun op => op.tier = .additive, fun op => op.tier = .multiplicative]

/-! ## The last operator of a tier -/

theorem lastOf?_of_none (h : ∀ x ∈ found, x.2.tier ≠ tier) : lastOf? tier found = none := by
  refine List.find?_eq_none.2 ?_
  intro x hx
  have hne := h x (List.mem_reverse.1 hx)
  simpa using hne

theorem lastOf?_append (hop : op.tier = tier) (hright : ∀ x ∈ right, x.2.tier ≠ tier) :
    lastOf? tier (left ++ (i, op) :: right) = some (i, op) := by
  have hnone : right.reverse.find? (fun x : Nat × Operator => x.2.tier = tier) = none :=
    lastOf?_of_none hright
  have hrev : (left ++ (i, op) :: right).reverse = right.reverse ++ (i, op) :: left.reverse := by
    simp
  have hfind : lastOf? tier (left ++ (i, op) :: right) =
      (left ++ (i, op) :: right).reverse.find? (fun x => x.2.tier = tier) := rfl
  rw [hfind, hrev, List.find?_append, hnone]
  simp [hop]

/-! ## The root -/

theorem rootOperator?_of_isRoot (hfound : operators s = left ++ (i, op) :: right)
    (hroot : Chain.IsRoot tiers (left.map Prod.snd) op (right.map Prod.snd)) :
    rootOperator? s = some (i, op) := by
  have hnot : ∀ {t : Operator.Tier} {found : List (Nat × Operator)},
      (∀ o ∈ found.map Prod.snd, decide (o.tier = t) = false) → ∀ x ∈ found, x.2.tier ≠ t := by
    intro t found h x hx
    exact of_decide_eq_false (h x.2 (List.mem_map_of_mem hx))
  have hall : ∀ {t : Operator.Tier}, decide (op.tier = t) = false →
      (∀ o ∈ left.map Prod.snd ++ right.map Prod.snd, decide (o.tier = t) = false) →
      ∀ x ∈ left ++ (i, op) :: right, x.2.tier ≠ t := by
    intro t hop h x hx
    rw [← List.map_append] at h
    rcases List.mem_append.1 hx with hx | hx
    · exact hnot h x (List.mem_append_left _ hx)
    · rcases List.mem_cons.1 hx with rfl | hx
      · exact of_decide_eq_false hop
      · exact hnot h x (List.mem_append_right _ hx)
  simp only [rootOperator?, hfound]
  -- the reader looks for a sum, then for a product, then for a power
  rcases hroot with ⟨hadd, hright⟩ | ⟨hadd, hnoadd, ⟨hmul, hright⟩ | ⟨hmul, hnomul, hnil⟩⟩
  · rw [lastOf?_append (of_decide_eq_true hadd) (hnot hright)]
    rfl
  · rw [lastOf?_of_none (hall hadd hnoadd), lastOf?_append (of_decide_eq_true hmul) (hnot hright)]
    rfl
  · -- the other operators are powers, and the last of them is meant
    have hright : right = [] := List.map_eq_nil_iff.1 hnil
    have hpow : op.tier = .power := by
      cases htier : op.tier with
      | additive => exact absurd htier (of_decide_eq_false hadd)
      | multiplicative => exact absurd htier (of_decide_eq_false hmul)
      | power => rfl
    rw [lastOf?_of_none (hall hadd hnoadd), lastOf?_of_none (hall hmul hnomul), hright,
      lastOf?_append hpow (by simp)]
    rfl

theorem exists_isRoot (hne : operators s ≠ []) :
    ∃ left i op right, operators s = left ++ (i, op) :: right ∧
      Chain.IsRoot tiers (left.map Prod.snd) op (right.map Prod.snd) := by
  have hops : (operators s).map Prod.snd ≠ [] := by
    simpa using hne
  rcases Chain.exists_isRoot_operators tiers _ hops with ⟨left, op, right, heq, hroot⟩
  rcases List.map_eq_append_iff.1 heq with ⟨left', tail, hfound, rfl, htail⟩
  rcases List.map_eq_cons_iff.1 htail with ⟨⟨i, op'⟩, right', rfl, rfl, rfl⟩
  exact ⟨left', i, op', right', hfound, hroot⟩

theorem isRoot_of_rootOperator? (h : rootOperator? s = some (i, op)) :
    ∃ left right, operators s = left ++ (i, op) :: right ∧
      Chain.IsRoot tiers (left.map Prod.snd) op (right.map Prod.snd) := by
  have hne : operators s ≠ [] := by
    intro hnil
    rw [rootOperator?, hnil] at h
    cases h
  -- there is only one root, and the reader finds it
  rcases exists_isRoot hne with ⟨left, i', op', right, hfound, hroot⟩
  have hsome := rootOperator?_of_isRoot hfound hroot
  rw [h] at hsome
  cases hsome
  exact ⟨left, right, hfound, hroot⟩

/-- No sum or difference stands behind the root. -/
theorem tier_ne_additive_of_root (h : rootOperator? s = some (i, op)) {j : Nat} {op' : Operator}
    (hmem : (j, op') ∈ operators s) (hlater : i < j) : op'.tier ≠ .additive := by
  rcases isRoot_of_rootOperator? h with ⟨left, right, hfound, hroot⟩
  have hsorted := (operatorsFrom_pairwise [] 0 (maskGroups s)).1
  have hfound' : operatorsFrom [] 0 (maskGroups s) = left ++ (i, op) :: right := hfound
  rw [hfound', List.pairwise_append] at hsorted
  rw [hfound] at hmem
  -- offsets grow along the list, so a later operator is in the part behind the root
  have hright : (j, op') ∈ right := by
    rcases List.mem_append.1 hmem with hleft | hrest
    · have hlt := hsorted.2.2 _ hleft (i, op) List.mem_cons_self
      exact absurd hlater (Nat.lt_asymm hlt)
    · rcases List.mem_cons.1 hrest with heq | hright
      · cases heq
        exact absurd hlater (Nat.lt_irrefl _)
      · exact hright
  have hop : op' ∈ right.map Prod.snd := List.mem_map.2 ⟨(j, op'), hright, rfl⟩
  rcases hroot with ⟨-, hnone⟩ | ⟨-, hnone, -⟩
  · exact of_decide_eq_false (hnone op' hop)
  · exact of_decide_eq_false (hnone op' (List.mem_append_right _ hop))

/-! ## The two sides -/

theorem byteSize_symbol (op : Operator) : byteSize [op.symbol] = 1 := by
  cases op <;> rfl

theorem symbol_ne_nul (op : Operator) : op.symbol ≠ '\x00' := by
  cases op <;> decide

/-- An operator in the mask is a character of the text outside literals and groups. -/
theorem exists_of_mem_operators (h : (i, op) ∈ operators s) :
    ∃ x y, s = x ++ op.symbol :: y ∧ i = byteSize x ∧
      (Scan.start.run x).encloses op.symbol = false := by
  rcases mem_operatorsFrom_iff.1 h with ⟨p, c, q, hmask, hi, hop⟩
  -- masked characters are NUL, which is no symbol, so this one stands in the text itself
  rw [symbol_of_operatorAt? hop] at hmask
  rcases exists_of_mask_eq (symbol_ne_nul op) hmask with ⟨x, y, rfl, rfl, hvisible, -⟩
  refine ⟨x, y, rfl, ?_, hvisible⟩
  rw [hi, byteSize_mask, Nat.zero_add]

theorem split?_of_root (h : rootOperator? (x ++ op.symbol :: y) = some (byteSize x, op)) :
    split? (x ++ op.symbol :: y) = some (op, x, y) := by
  have hsides : sidesOf (byteSize x) 1 (x ++ op.symbol :: y) = (x, y) := by
    calc
      sidesOf (byteSize x) 1 (x ++ op.symbol :: y) =
          sidesOf (byteSize x) (byteSize [op.symbol]) (x ++ [op.symbol] ++ y) := by
        rw [byteSize_symbol, List.append_assoc]
        rfl
      _ = (x, y) := sidesOf_byteSize x [op.symbol] y
  rw [split?, h, Option.map_some]
  exact congrArg (fun sides => some (op, sides)) hsides

theorem split?_eq_some (h : split? s = some (op, x, y)) :
    s = x ++ op.symbol :: y ∧ rootOperator? s = some (byteSize x, op) := by
  rcases Option.map_eq_some_iff.1 h with ⟨⟨i, op'⟩, hroot, heq⟩
  have hop : op' = op := congrArg Prod.fst heq
  subst hop
  rcases isRoot_of_rootOperator? hroot with ⟨left, right, hfound, -⟩
  have hmem : (i, op') ∈ operators s := by
    rw [hfound]
    exact List.mem_append_right _ List.mem_cons_self
  rcases exists_of_mem_operators hmem with ⟨x', y', rfl, rfl, -⟩
  have hsplit := split?_of_root hroot
  rw [h] at hsplit
  cases hsplit
  exact ⟨rfl, hroot⟩

theorem properPart_of_split? (h : split? s = some (op, x, y)) : ProperPart x s ∧ ProperPart y s := by
  rw [(split?_eq_some h).1]
  simpa using properPart_sides (List.cons_ne_nil op.symbol []) x y

theorem split?_eq_none_iff : split? s = none ↔ operators s = [] := by
  constructor
  · intro h
    rw [split?, Option.map_eq_none_iff] at h
    cases hops : operators s with
    | nil => rfl
    | cons o rest =>
        have hne : operators s ≠ [] := by
          rw [hops]
          exact List.cons_ne_nil o rest
        rcases exists_isRoot hne with ⟨left, i, op, right, hfound, hroot⟩
        rw [rootOperator?_of_isRoot hfound hroot] at h
        cases h
  · intro h
    simp [split?, rootOperator?, h, lastOf?]

/-- The operator at which a balanced text is split stands between balanced sides. -/
theorem settled_of_split? (hs : Balanced s) (h : split? s = some (op, x, y)) :
    Settled x ∧ Balanced y := by
  rcases split?_eq_some h with ⟨rfl, hroot⟩
  rcases isRoot_of_rootOperator? hroot with ⟨left, right, hfound, -⟩
  have hmem : (byteSize x, op) ∈ operators (x ++ op.symbol :: y) := by
    rw [hfound]
    exact List.mem_append_right _ List.mem_cons_self
  rcases exists_of_mem_operators hmem with ⟨x, y', heq, hsize, hvisible⟩
  -- both cuts are at the same byte, so they are the same cut
  rcases append_inj_of_byteSize heq hsize with ⟨rfl, -⟩
  have hsettled : Settled x := settled_of_visible hs hvisible
  have hinert : isInert op.symbol = true := by
    cases op <;> decide
  have hrun : Scan.start.run (x ++ [op.symbol]) = .start := by
    simp [hsettled.run, Scan.advance_inert hinert]
  refine ⟨hsettled, ?_⟩
  have hright : Balanced (x ++ [op.symbol] ++ y) := by
    simpa using hs
  exact hright.right hrun

end Arithmetic
end RecordFilter
