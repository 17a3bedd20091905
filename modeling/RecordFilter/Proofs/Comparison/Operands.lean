import RecordFilter.Proofs.Comparison.Literals

/-!
# Operands — what the sides of a comparison may be

One side of a comparison names a field.  If that is the numeric field, both sides are arithmetic;
otherwise it is a bare field, and the other side is one literal (`readOperands_eq_ok_iff`).  The side with
the field is the left one, unless the left one names none (`readSides_eq_ok_iff`).
-/

namespace RecordFilter
namespace Comparison

open Text Expression

variable {schema : Schema} {s raw left right front other : Text} {operands : Operands} {r : Relation}
  {comparison : Comparison}

/-! ## Pairs of sides -/

/-- `Paired schema front other operands`: beside the side `front`, which names a field, and the side
`other` a comparison has these operands. -/
inductive Paired (schema : Schema) (front other : Text) : Operands → Prop where
  | numeric {a b : Arithmetic} :
      mentions schema.numeric front = true → Arithmetic.read schema front = .ok a →
      Arithmetic.read schema other = .ok b → Paired schema front other (.numeric a b)
  | text {x : Text} :
      mentions schema.numeric front = false → unwrap front ∈ schema.allowed →
      other = Quoted.literal x → Paired schema front other (.text (unwrap front) x)

theorem readOperands_eq_ok_iff :
    readOperands schema raw front other = .ok operands ↔ Paired schema front other operands := by
  unfold readOperands
  cases hnumeric : mentions schema.numeric front with
  | true =>
      rw [if_pos rfl]
      constructor
      · intro h
        rcases bind_eq_ok_iff.1 h with ⟨a, ha, hrest⟩
        rcases bind_eq_ok_iff.1 hrest with ⟨b, hb, heq⟩
        cases heq
        exact .numeric hnumeric ha hb
      · intro h
        cases h with
        | numeric _ ha hb =>
            rw [ha, hb]
            rfl
        | text hnot _ _ =>
            rw [hnumeric] at hnot
            cases hnot
  | false =>
      rw [if_neg (by decide)]
      constructor
      · intro h
        split at h
        case isTrue hallowed =>
          rcases bind_eq_ok_iff.1 h with ⟨x, hliteral, heq⟩
          cases heq
          exact .text hnumeric (List.contains_iff_mem.1 hallowed) (readLiteral_eq_ok_iff.1 hliteral)
        case isFalse => cases h
      · intro h
        cases h with
        | numeric hmentions _ _ =>
            rw [hnumeric] at hmentions
            cases hmentions
        | text _ hallowed hliteral =>
            have hfield : schema.isAllowed (unwrap front) = true := List.contains_iff_mem.2 hallowed
            rw [if_pos hfield, readLiteral_eq_ok_iff.2 hliteral]
            rfl

/-! ## The order of the sides -/

/-- The side that names a field, of two sides as they are written. -/
def fieldSide (swapped : Bool) (left right : Text) : Text := if swapped then right else left

/-- The side that stands opposite the field. -/
def otherSide (swapped : Bool) (left right : Text) : Text := if swapped then left else right

theorem fieldSide_trim (swapped : Bool) (left right : Text) :
    fieldSide swapped (trim left) (trim right) = trim (fieldSide swapped left right) := by
  cases swapped <;> rfl

theorem otherSide_trim (swapped : Bool) (left right : Text) :
    otherSide swapped (trim left) (trim right) = trim (otherSide swapped left right) := by
  cases swapped <;> rfl

theorem readSides_eq_ok_iff :
    readSides schema raw r left right = .ok comparison ↔
      left ≠ [] ∧ right ≠ [] ∧ comparison.raw = raw ∧ comparison.written = r ∧
        comparison.swapped = !namesField schema left ∧
        Paired schema (fieldSide comparison.swapped left right)
          (otherSide comparison.swapped left right) comparison.operands := by
  obtain ⟨raw', written, swapped, operands⟩ := comparison
  unfold readSides
  by_cases hempty : left.isEmpty || right.isEmpty
  · rw [if_pos hempty]
    simp only [Bool.or_eq_true, List.isEmpty_iff] at hempty
    constructor
    · intro h
      cases h
    · rintro ⟨hleft, hright, -⟩
      exact (hempty.elim hleft hright).elim
  · rw [if_neg hempty]
    simp only [Bool.or_eq_true, List.isEmpty_iff, not_or] at hempty
    cases hfield : namesField schema left with
    | true =>
        rw [if_pos rfl]
        constructor
        · intro h
          rcases bind_eq_ok_iff.1 h with ⟨operands, hoperands, heq⟩
          cases heq
          exact ⟨hempty.1, hempty.2, rfl, rfl, rfl, readOperands_eq_ok_iff.1 hoperands⟩
        · rintro ⟨-, -, rfl, rfl, rfl, hpaired⟩
          have hread : readOperands schema raw' left right = .ok operands :=
            readOperands_eq_ok_iff.2 hpaired
          rw [hread]
          rfl
    | false =>
        rw [if_neg (by decide)]
        constructor
        · intro h
          rcases bind_eq_ok_iff.1 h with ⟨operands, hoperands, heq⟩
          cases heq
          exact ⟨hempty.1, hempty.2, rfl, rfl, rfl, readOperands_eq_ok_iff.1 hoperands⟩
        · rintro ⟨-, -, rfl, rfl, rfl, hpaired⟩
          have hread : readOperands schema raw' right left = .ok operands :=
            readOperands_eq_ok_iff.2 hpaired
          rw [hread]
          rfl

/-- A comparison that is read stands in its tidy text, between two sides that are not blank. -/
theorem exists_sides_of_read (h : read schema s = .ok comparison) :
    ∃ a b, tidy s = .ok comparison.raw ∧ comparison.raw = a ++ comparison.written.symbol ++ b ∧
      Settled a ∧ allBlank a = false ∧ allBlank b = false ∧ namesField schema comparison.raw = true ∧
      comparison.swapped = !namesField schema (trim a) ∧
      Paired schema (trim (fieldSide comparison.swapped a b))
        (trim (otherSide comparison.swapped a b)) comparison.operands := by
  rcases read_eq_ok_iff.1 h with
    ⟨raw, outside, r, left, right, htidy, -, -, -, hnames, hsplit, hsides⟩
  rcases readSides_eq_ok_iff.1 hsides with ⟨hleft, hright, rfl, rfl, hswapped, hpaired⟩
  rcases exists_cut_of_split? hsplit with ⟨a, b, hraw, rfl, rfl, hvisible⟩
  have hsettled : Settled a := by
    have hbalanced := (tidy_spec htidy).2.1
    rw [hraw, List.append_assoc] at hbalanced
    exact settled_of_visible hbalanced hvisible
  have hblank : ∀ {t : Text}, trim t ≠ [] → allBlank t = false := by
    intro t ht
    rw [ne_eq, trim_eq_nil_iff] at ht
    simpa using ht
  rw [fieldSide_trim, otherSide_trim] at hpaired
  exact ⟨a, b, htidy, hraw, hsettled, hblank hleft, hblank hright, hnames, hswapped, hpaired⟩

end Comparison
end RecordFilter
