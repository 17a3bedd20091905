import Mathlib.Data.List.TakeWhile
import RecordFilter.Text.Basic

/-!
# Spans — the longest initial piece of one kind of characters

A span ends where the text in front of a stop ends, whatever follows the stop
(`takeWhile_append_stop`, `dropWhile_append_stop`).
-/

namespace RecordFilter
namespace Text

variable {s rest : Text}

theorem takeWhile_append_stop {p : Char → Bool} (h : ∀ c, rest.head? = some c → p c = false)
    (s : Text) : (s ++ rest).takeWhile p = s.takeWhile p := by
  induction s with
  | nil =>
      cases rest with
      | nil => rfl
      | cons c more => rw [List.nil_append, List.takeWhile_cons, h c rfl]; rfl
  | cons c s ih =>
      rw [List.cons_append, List.takeWhile_cons, List.takeWhile_cons, ih]

theorem dropWhile_append_stop {p : Char → Bool} (h : ∀ c, rest.head? = some c → p c = false)
    (s : Text) : (s ++ rest).dropWhile p = s.dropWhile p ++ rest := by
  induction s with
  | nil =>
      cases rest with
      | nil => rfl
      | cons c more => rw [List.nil_append, List.dropWhile_cons, h c rfl]; rfl
  | cons c s ih =>
      rw [List.cons_append, List.dropWhile_cons, List.dropWhile_cons, ih]
      split
      case isTrue => rfl
      case isFalse => rfl

/-- A span of characters of one kind, up to a stop. -/
theorem takeWhile_append_of_all {p : Char → Bool} (hs : ∀ c ∈ s, p c = true)
    (h : ∀ c, rest.head? = some c → p c = false) : (s ++ rest).takeWhile p = s := by
  rw [takeWhile_append_stop h, List.takeWhile_eq_self_iff.2 hs]

theorem dropWhile_append_of_all {p : Char → Bool} (hs : ∀ c ∈ s, p c = true)
    (h : ∀ c, rest.head? = some c → p c = false) : (s ++ rest).dropWhile p = rest := by
  rw [dropWhile_append_stop h, List.dropWhile_eq_nil_iff.2 hs, List.nil_append]

end Text
end RecordFilter
