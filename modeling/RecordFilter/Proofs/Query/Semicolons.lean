import Mathlib.Data.List.Basic
import RecordFilter.Proofs.Comparison.Operands
import RecordFilter.Proofs.Condition.Parentheses

/-!
# Semicolons — which conditions may end in one

A text keeps the semicolon at its end through every step of every reader.  There it would belong to a
number, a literal, a word or a name, so a condition that is read can end in a semicolon only where some
name of the schema does (`Condition.exists_name_of_endsInSemicolon`).
-/

namespace RecordFilter

open Text Expression

variable {schema : Schema} {a b s t u raw : Text}

/-! ## The last character that is no blank -/

namespace Text

/-- Whether the last character that is no blank is a semicolon. -/
def EndsInSemicolon (s : Text) : Prop := (trim s).getLast? = some ';'

instance (s : Text) : Decidable (EndsInSemicolon s) := inferInstanceAs (Decidable (_ = _))

theorem endsInSemicolon_trim_iff : EndsInSemicolon (trim s) ↔ EndsInSemicolon s := by
  rw [EndsInSemicolon, EndsInSemicolon, trim_trim]

theorem endsInSemicolon_iff_of_trim (h : trim s = s) :
    EndsInSemicolon s ↔ s.getLast? = some ';' := by
  rw [EndsInSemicolon, h]

theorem endsInSemicolon_append_iff (a : Text) (hb : allBlank b = false) :
    EndsInSemicolon (a ++ b) ↔ EndsInSemicolon b := by
  rcases allBlank_or_exists b with hblank | ⟨p, c, rest, hp, hc, rfl⟩
  · rw [hblank] at hb
    cases hb
  · rw [EndsInSemicolon, EndsInSemicolon, ← List.append_assoc, trim_append_cons _ hc,
      trim_append_cons _ hc, List.getLast?_append_cons, List.getLast?_append_cons]

end Text

/-! ## Tidying -/

namespace Expression

theorem endsInSemicolon_of_repair (h : repair t = some u) (ht : EndsInSemicolon t) :
    EndsInSemicolon u := by
  -- a loose parenthesis at the back would be the last character
  fun_induction repair t with
  | case1 t _ =>
      cases h
      exact ht
  | case2 t _ rest hdrop ih =>
      refine ih h (endsInSemicolon_trim_iff.2 ?_)
      rcases dropLoose?_eq_some_iff.1 hdrop with ⟨-, rfl⟩ | ⟨-, rfl⟩
      · cases hblank : allBlank rest with
        | false =>
            rw [← List.singleton_append, endsInSemicolon_append_iff _ hblank] at ht
            exact ht
        | true =>
            have htrim : trim ('(' :: rest) = ['('] := by
              rw [← List.singleton_append, trim_append_of_allBlank_right _ hblank]
              rfl
            rw [EndsInSemicolon, htrim] at ht
            cases ht
      · rw [endsInSemicolon_append_iff _ rfl] at ht
        cases ht
  | case3 => cases h

theorem endsInSemicolon_of_unwrap (h : EndsInSemicolon s) : EndsInSemicolon (unwrap s) := by
  have hunwrapped : Unwrapped (trim s) := by
    intro inner heq
    rw [EndsInSemicolon, heq, List.getLast?_concat] at h
    cases h
  rw [unwrap_of_unwrapped hunwrapped]
  exact endsInSemicolon_trim_iff.2 h

theorem endsInSemicolon_of_tidy (h : tidy s = .ok raw) (hs : EndsInSemicolon s) :
    EndsInSemicolon raw := by
  rcases tidy_eq_ok_iff.1 h with ⟨t, ht, rfl⟩
  exact endsInSemicolon_of_unwrap (endsInSemicolon_of_repair ht (endsInSemicolon_trim_iff.2 hs))

end Expression

/-! ## Arithmetic -/

namespace Arithmetic

variable {tree : Arithmetic}

theorem numeric_of_endsInSemicolon (h : Reads schema s tree) (hs : EndsInSemicolon s) :
    schema.numeric.getLast? = some ';' := by
  induction h with
  | @leaf s raw tree htidy _ _ hleaf =>
      have hlast := (endsInSemicolon_iff_of_trim (tidy_spec htidy).1).1 (endsInSemicolon_of_tidy htidy hs)
      unfold readLeaf at hleaf
      split at hleaf
      case isTrue hnumeric =>
        have hraw : schema.numeric = raw := eq_of_beq hnumeric
        rwa [hraw]
      case isFalse =>
        split at hleaf
        case isTrue => cases hleaf
        case isFalse =>
          split at hleaf
          case h_1 x hnumber =>
            -- no number has a semicolon in it
            have hmem := (Number.shape_of_read? hnumber).isNumberChar_of_mem (List.mem_of_getLast? hlast)
            exact absurd hmem (by decide)
          case h_2 => cases hleaf
  | @binary s raw left right op a b htidy _ hsplit _ hright _ _ _ ihb =>
      -- the right operand is not blank, so the end is its end
      apply ihb
      have hraw := endsInSemicolon_of_tidy htidy hs
      rw [(split?_eq_some hsplit).1, ← List.singleton_append, ← List.append_assoc,
        endsInSemicolon_append_iff _ hright] at hraw
      exact hraw

end Arithmetic

/-! ## Comparisons -/

namespace Comparison

variable {front other : Text} {operands : Operands} {comparison : Comparison}

theorem Paired.exists_name (h : Paired schema front other operands)
    (hends : EndsInSemicolon front ∨ EndsInSemicolon other) :
    ∃ name ∈ schema.numeric :: schema.allowed, name.getLast? = some ';' := by
  cases h with
  | numeric _ ha hb =>
      refine ⟨schema.numeric, List.mem_cons_self, ?_⟩
      rcases hends with hfront | hother
      · exact Arithmetic.numeric_of_endsInSemicolon (Arithmetic.read_sound ha) hfront
      · exact Arithmetic.numeric_of_endsInSemicolon (Arithmetic.read_sound hb) hother
  | @text x _ hallowed hliteral =>
      rcases hends with hfront | hother
      · refine ⟨unwrap front, List.mem_cons_of_mem _ hallowed, ?_⟩
        exact (endsInSemicolon_iff_of_trim (trim_unwrap front)).1 (endsInSemicolon_of_unwrap hfront)
      · -- a literal ends in its quote
        rw [hliteral, EndsInSemicolon, trim_literal, Quoted.literal, List.getLast?_concat] at hother
        cases hother

theorem exists_name_of_endsInSemicolon (h : read schema s = .ok comparison) (hs : EndsInSemicolon s) :
    ∃ name ∈ schema.numeric :: schema.allowed, name.getLast? = some ';' := by
  rcases exists_sides_of_read h with ⟨a, b, htidy, hraw, -, -, hb, -, -, hpaired⟩
  have hright : EndsInSemicolon b := by
    have hends := endsInSemicolon_of_tidy htidy hs
    rwa [hraw, endsInSemicolon_append_iff _ hb] at hends
  refine hpaired.exists_name ?_
  rw [endsInSemicolon_trim_iff, endsInSemicolon_trim_iff]
  cases comparison.swapped with
  | false => exact Or.inr hright
  | true => exact Or.inl hright

end Comparison

/-! ## Conditions -/

namespace Condition

variable {tree : Condition}

theorem exists_name_of_endsInSemicolon (h : Reads schema s tree) (hs : EndsInSemicolon s) :
    ∃ name ∈ schema.numeric :: schema.allowed, name.getLast? = some ';' := by
  -- what stands at the end is read as a tree of its own, down to a word or a comparison
  induction h with
  | @truth s raw b htidy _ htruth =>
      exfalso
      have hraw := endsInSemicolon_of_tidy htidy hs
      unfold truthOf? at htruth
      split at htruth
      case isTrue hword =>
        rw [hword] at hraw
        exact absurd hraw (by decide)
      case isFalse =>
        split at htruth
        case isTrue hword =>
          rw [hword] at hraw
          exact absurd hraw (by decide)
        case isFalse => cases htruth
  | @binary s raw left right op a b htidy _ _ hsplit _ hright _ _ _ ihb =>
      apply ihb
      have hraw := endsInSemicolon_of_tidy htidy hs
      rw [(split?_eq_some hsplit).1, endsInSemicolon_append_iff _ hright] at hraw
      exact hraw
  | @negation s raw rest child htidy _ _ _ hneg hblank _ ih =>
      apply ih
      have hraw := endsInSemicolon_of_tidy htidy hs
      rw [eq_of_negated? hneg, endsInSemicolon_append_iff _ hblank] at hraw
      exact hraw
  | comparison htidy _ _ _ _ hc =>
      exact Comparison.exists_name_of_endsInSemicolon hc (endsInSemicolon_of_tidy htidy hs)

end Condition
end RecordFilter
