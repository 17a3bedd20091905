import RecordFilter.Text.Basic

/-!
# Hex — numbers in base sixteen
-/

namespace RecordFilter
namespace Text

/-- A number in base sixteen, small letters, without leading zeros. -/
def hex (n : Nat) : Text := Nat.toDigits 16 n

/-- The value of a digit in base sixteen, in either case. -/
def hexDigit? (c : Char) : Option Nat :=
  if c.isDigit then some (c.toNat - '0'.toNat)
  else if 'a' ≤ c && c ≤ 'f' then some (c.toNat - 'a'.toNat + 10)
  else if 'A' ≤ c && c ≤ 'F' then some (c.toNat - 'A'.toNat + 10)
  else none

/-- The value of a list of digits in base sixteen. -/
def hexValue? (digits : Text) : Option Nat :=
  digits.foldlM (fun n c => (hexDigit? c).map (16 * n + ·)) 0

end Text
end RecordFilter
