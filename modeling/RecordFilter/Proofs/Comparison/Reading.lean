import RecordFilter.Proofs.Expression.Masking
import RecordFilter.Proofs.Expression.Tidying
import RecordFilter.Proofs.Text.Parts
import RecordFilter.Comparison.Reader

/-!
# Reading — what the reader of comparisons checks

A comparison is read if its tidy text passes the check for unknown names, names a field, has a
relation to split at, and its sides can be read (`read_eq_ok_iff`).
-/

namespace RecordFilter
namespace Comparison

open Text Expression

variable {s t raw outside left right : Text} {r : Relation} {comparison : Comparison}

/-! ## Symbols -/

theorem isInert_of_mem_symbol (r : Relation) : ∀ c ∈ r.symbol, isInert c = true := by
  cases r <;> decide

theorem symbol_ne_nil (r : Relation) : r.symbol ≠ [] := by
  cases r <;> exact List.cons_ne_nil _ _

theorem nul_not_mem_symbol (r : Relation) : '\x00' ∉ r.symbol := by
  cases r <;> decide

/-! ## The split -/

/-- A relation at which a comparison is split stands in it as it is written, outside literals and
groups. -/
theorem exists_cut_of_split? (h : split? s = some (r, left, right)) :
    ∃ a b, s = a ++ r.symbol ++ b ∧ left = trim a ∧ right = trim b ∧
      (Scan.start.run a).encloses (r.symbol.head (symbol_ne_nil r)) = false := by
  rcases Option.map_eq_some_iff.1 h with ⟨⟨offset, r'⟩, hroot, hsides⟩
  rcases List.exists_of_findSome?_eq_some hroot with ⟨r'', -, hfound⟩
  rcases Option.map_eq_some_iff.1 hfound with ⟨offset', hfirst, heq⟩
  cases heq
  rw [firstIndex?_eq] at hfirst
  -- what the mask shows of a relation is a stretch of the text
  rcases (mem_offsets_iff (symbol_ne_nil r')).1 (List.mem_of_mem_head? hfirst) with
    ⟨p, q, hmask, rfl⟩
  rcases exists_of_mask_eq_append (nul_not_mem_symbol r') (symbol_ne_nil r') hmask with
    ⟨a, b, rfl, rfl, hvisible, -⟩
  simp only [byteSize_mask, sidesOf_byteSize] at hsides
  cases hsides
  exact ⟨a, b, rfl, rfl, rfl, hvisible⟩

theorem split?_eq_some (h : split? s = some (r, left, right)) :
    ∃ a b, s = a ++ r.symbol ++ b ∧ left = trim a ∧ right = trim b := by
  rcases exists_cut_of_split? h with ⟨a, b, hs, hleft, hright, -⟩
  exact ⟨a, b, hs, hleft, hright⟩

theorem properPart_of_split? (h : split? s = some (r, left, right)) :
    ProperPart left s ∧ ProperPart right s := by
  rcases split?_eq_some h with ⟨a, b, rfl, rfl, rfl⟩
  rcases properPart_sides (symbol_ne_nil r) a b with ⟨ha, hb⟩
  exact ⟨.of_part (trim_part a) ha, .of_part (trim_part b) hb⟩

/-! ## Reading -/

/-- The reader on a tidy text with something outside its parentheses. -/
theorem read_of_tidy {schema : Schema} {raw outside : Text} (htidy : tidy s = .ok raw)
    (hne : raw ≠ []) (hout : outermost raw = .ok outside) :
    read schema s =
      if hasUnknownName schema outside then .error ⟨.unknownNames schema.allowed, raw⟩
      else if !namesField schema raw then .error ⟨.noKnownField schema.allowed, raw⟩
      else
        match split? raw with
        | none => .error ⟨.noComparisonOperator, raw⟩
        | some (relation, left, right) => readSides schema raw relation left right := by
  have hempty : raw.isEmpty = false := by
    simpa using hne
  simp only [read, htidy, hout, bind, Except.bind, hempty]
  rfl

theorem read_eq_ok_iff {schema : Schema} :
    read schema s = .ok comparison ↔
      ∃ raw outside r left right, tidy s = .ok raw ∧ raw ≠ [] ∧ outermost raw = .ok outside ∧
        hasUnknownName schema outside = false ∧ namesField schema raw = true ∧
        split? raw = some (r, left, right) ∧
        readSides schema raw r left right = .ok comparison := by
  constructor
  · intro h
    cases htidy : tidy s with
    | error e =>
        simp [read, htidy, bind, Except.bind] at h
    | ok raw =>
        by_cases hne : raw = []
        · simp [read, htidy, hne, bind, Except.bind] at h
        · cases hout : outermost raw with
          | error e =>
              simp [read, htidy, hne, hout, bind, Except.bind] at h
          | ok outside =>
              rw [read_of_tidy htidy hne hout] at h
              split at h
              case isTrue => cases h
              case isFalse hunknown =>
                split at h
                case isTrue => cases h
                case isFalse hfield =>
                  split at h
                  case h_1 => cases h
                  case h_2 r left right hsplit =>
                    refine ⟨raw, outside, r, left, right, rfl, hne, hout, ?_, ?_, hsplit, h⟩
                    · simpa using hunknown
                    · simpa using hfield
  · rintro ⟨raw, outside, r, left, right, htidy, hne, hout, hunknown, hfield, hsplit, hsides⟩
    rw [read_of_tidy htidy hne hout, hunknown, hfield, hsplit]
    exact hsides

/-- Of a text that is read only the tidy text counts. -/
theorem read_of_tidy_eq {schema : Schema} (h : read schema s = .ok comparison)
    (htidy : tidy s = .ok raw) (htidy' : tidy t = .ok raw) : read schema t = .ok comparison := by
  rcases read_eq_ok_iff.1 h with ⟨raw', outside, r, left, right, hraw, hrest⟩
  rw [htidy] at hraw
  cases hraw
  exact read_eq_ok_iff.2 ⟨raw, outside, r, left, right, htidy', hrest⟩

end Comparison
end RecordFilter
