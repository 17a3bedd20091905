import RecordFilter.Text.Blank
import RecordFilter.Expression.Mask
import RecordFilter.Failure

/-!
# Balance — repairing loose parentheses at one end

Parentheses outside literals that are left open are dropped from the front, and those that close
nothing from the back, one at a time and only where they stand at that end.
-/

namespace RecordFilter
namespace Expression

open Text

/-- The text without one loose parenthesis at its end, if the text has loose parentheses on one
side only and one of them stands there. -/
def dropLoose? (t : Text) : Option Text :=
  if 0 < depth t then
    match t with
    | '(' :: rest => some rest
    | _ => none
  else if depth t < 0 then
    if t.getLast? = some ')' then some t.dropLast else none
  else none

theorem length_of_dropLoose? {t rest : Text} (h : dropLoose? t = some rest) :
    rest.length < t.length := by
  unfold dropLoose? at h
  split at h
  · split at h
    · cases h
      simp
    · cases h
  · split at h
    · split at h
      case isTrue hlast =>
        cases h
        have : t ≠ [] := by
          intro hnil
          simp [hnil] at hlast
        have := List.length_pos_iff.mpr this
        simp only [List.length_dropLast]
        omega
      case isFalse => cases h
    · cases h

/-- Drops loose parentheses and the blanks behind them until the text balances. -/
def repair (t : Text) : Option Text :=
  if Balanced t then some t
  else
    match _hdrop : dropLoose? t with
    | some rest => repair (trim rest)
    | none => none
termination_by t.length
decreasing_by
  have := length_of_dropLoose? _hdrop
  have := length_trim_le rest
  omega

/-- The trimmed text without its loose parentheses. -/
def balance (s : Text) : Except SyntaxError Text :=
  match repair (trim s) with
  | some t => .ok t
  | none => .error ⟨.unclosedParentheses, trim s⟩

theorem length_le_of_repair {t u : Text} (h : repair t = some u) : u.length ≤ t.length := by
  fun_induction repair t with
  | case1 t _ =>
      cases h
      exact Nat.le_refl _
  | case2 t _ rest hdrop ih =>
      have := ih h
      have := length_of_dropLoose? hdrop
      have := length_trim_le rest
      omega
  | case3 => cases h

theorem length_le_of_balance {s t : Text} (h : balance s = .ok t) : t.length ≤ s.length := by
  unfold balance at h
  split at h
  case h_1 u hu =>
    cases h
    exact Nat.le_trans (length_le_of_repair hu) (length_trim_le s)
  case h_2 => cases h

end Expression
end RecordFilter
