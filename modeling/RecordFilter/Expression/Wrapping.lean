import RecordFilter.Expression.Balance

/-!
# Wrapping — parentheses around a whole expression

`unwrap` removes the parentheses that enclose a whole expression; `outermost` picks the characters
outside all parentheses, after unwrapping.
-/

namespace RecordFilter
namespace Expression

open Text

/-- What stands between a parenthesis that opens the text and one that closes it. -/
def interior? : Text → Option Text
  | '(' :: rest => if rest.getLast? = some ')' then some rest.dropLast else none
  | _ => none

theorem length_of_interior? {t inner : Text} (h : interior? t = some inner) :
    inner.length + 2 = t.length := by
  unfold interior? at h
  split at h
  case h_1 rest =>
    split at h
    case isTrue hlast =>
      cases h
      have : rest ≠ [] := by
        intro hnil
        simp [hnil] at hlast
      have := List.length_pos_iff.mpr this
      simp only [List.length_dropLast, List.length_cons]
      omega
    case isFalse => cases h
  case h_2 => cases h

/-- The trimmed text without the parentheses that wrap it, layer by layer. -/
def unwrap (s : Text) : Text :=
  match _hin : interior? (trim s) with
  | some inner => if dips inner then trim s else unwrap inner
  | none => trim s
termination_by s.length
decreasing_by
  have := length_of_interior? _hin
  have := length_trim_le s
  omega

theorem length_unwrap_le (s : Text) : (unwrap s).length ≤ s.length := by
  fun_induction unwrap s with
  | case1 s _ _ _ => exact length_trim_le s
  | case2 s inner h _ ih =>
      have := length_of_interior? h
      have := length_trim_le s
      omega
  | case3 s _ => exact length_trim_le s

/-- The repaired text without the parentheses that wrap it: what every reader of expressions
works on. -/
def tidy (s : Text) : Except SyntaxError Text := (balance s).map unwrap

theorem length_le_of_tidy {s t : Text} (h : tidy s = .ok t) : t.length ≤ s.length := by
  cases hb : balance s with
  | error e =>
      rw [tidy, hb] at h
      cases h
  | ok u =>
      rw [tidy, hb] at h
      cases h
      exact Nat.le_trans (length_unwrap_le u) (length_le_of_balance hb)

/-! ## Characters outside parentheses -/

/-- Characters outside parentheses, from state `q` on.  A literal counts as ordinary text, and
parentheses that group are left out. -/
def atDepthZero (q : Scan) : Text → Text
  | [] => []
  | c :: rest =>
      if (q.quotes c || (c != '(' && c != ')')) && q.depth == 0 then
        c :: atDepthZero (q.advance c) rest
      else atDepthZero (q.advance c) rest

/-- The repaired text's characters outside parentheses.  If these are all blank, the parentheses
around the whole are removed and the rest is read in the same way. -/
def outermost (s : Text) : Except SyntaxError Text :=
  match _hbal : balance s with
  | .error e => .error e
  | .ok t =>
      if !allBlank (atDepthZero .start t) then .ok (atDepthZero .start t)
      else
        match _hin : interior? t with
        | some inner => outermost inner
        | none => .error ⟨.noOuterContent, trim s⟩
termination_by s.length
decreasing_by
  have := length_of_interior? _hin
  have := length_le_of_balance _hbal
  omega

end Expression
end RecordFilter
