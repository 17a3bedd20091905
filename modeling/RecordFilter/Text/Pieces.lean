import RecordFilter.Text.Basic

/-!
# Pieces — a text between separators

`split separator s` lists the pieces of `s` between the places where the separator stands.  There is
always at least one piece, and the pieces with the separator between each two make `s` again.
-/

namespace RecordFilter
namespace Text

/-- Puts a character in front of the first piece, or starts a new piece with a separator. -/
def splitStep (separator c : Char) (pieces : List Text) : List Text :=
  if c = separator then [] :: pieces
  else
    match pieces with
    | [] => [[c]]
    | piece :: rest => (c :: piece) :: rest

/-- The pieces between separators. -/
def split (separator : Char) (s : Text) : List Text := s.foldr (splitStep separator) [[]]

theorem split_nil (separator : Char) : split separator [] = [[]] := rfl

theorem split_cons (separator c : Char) (rest : Text) :
    split separator (c :: rest) = splitStep separator c (split separator rest) := rfl

theorem split_ne_nil (separator : Char) (s : Text) : split separator s ≠ [] := by
  cases s with
  | nil => simp [split_nil]
  | cons c rest =>
      rw [split_cons]
      unfold splitStep
      split
      · simp
      · split <;> simp

theorem joinWith_split (separator : Char) (s : Text) :
    joinWith [separator] (split separator s) = s := by
  induction s with
  | nil => rfl
  | cons c rest ih =>
      rw [split_cons]
      unfold splitStep
      cases h : split separator rest with
      | nil => exact absurd h (split_ne_nil separator rest)
      | cons piece more =>
          rw [h] at ih
          by_cases hc : c = separator
          · simp [hc, joinWith, ih]
          · cases more with
            | nil =>
                simp only [joinWith] at ih
                simp [hc, joinWith, ih]
            | cons next further =>
                simp only [joinWith] at ih
                simp [hc, joinWith, ← ih]

end Text
end RecordFilter
