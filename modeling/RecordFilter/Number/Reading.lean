import RecordFilter.Text.Basic

/-!
# Reading — floats from text

A float is read from an optional sign and either digits with an optional point and an optional
exponent, or one of the words `inf`, `infinity` and `nan` in any letter case.  At least one digit
stands before or after the point, and at least one in an exponent.  The result is the float nearest
to the decimal, ties to even.
-/

namespace RecordFilter
namespace Number

/-- The value of digits in base ten. -/
def digitsValue (digits : Text) : Nat := Nat.ofDigitChars 10 digits 0

/-- The float nearest to `digits · 10^exponent`.  Beyond the range of floats the answer is zero or
infinity, whatever the digits. -/
def nearest (digits : Nat) (exponent : Int) : Float :=
  if digits = 0 then 0
  else
    let magnitude := (Nat.log2 digits : Int) * 30103 / 100000 + exponent
    if magnitude > 400 then Float.ofBits 0x7FF0000000000000
    else if magnitude < -400 then 0
    else Float.ofScientific digits (exponent < 0) exponent.natAbs

/-- An optional sign at the front: whether it is a minus, and what follows it. -/
def takeSign : Text → Bool × Text
  | [] => (false, [])
  | c :: rest =>
      if c = '-' then (true, rest) else if c = '+' then (false, rest) else (false, c :: rest)

/-- An exponent: a sign and at least one digit, to the end of the text. -/
def exponent? (s : Text) : Option Int :=
  let (negative, digits) := takeSign s
  if digits.isEmpty || !digits.all Char.isDigit then none
  else if negative then some (-(digitsValue digits : Int)) else some (digitsValue digits)

/-- The exponent after the digits, which is zero at the end of the text. -/
def exponentPart? : Text → Option Int
  | [] => some 0
  | c :: rest => if c = 'e' || c = 'E' then exponent? rest else none

/-- The digits after a point, if there is a point, and what follows them. -/
def fractionPart : Text → Text × Text
  | [] => ([], [])
  | c :: rest =>
      if c = '.' then (rest.takeWhile Char.isDigit, rest.dropWhile Char.isDigit)
      else ([], c :: rest)

/-- An unsigned decimal. -/
def decimal? (s : Text) : Option Float :=
  let whole := s.takeWhile Char.isDigit
  let (fraction, rest) := fractionPart (s.dropWhile Char.isDigit)
  if whole.isEmpty && fraction.isEmpty then none
  else (exponentPart? rest).map fun e =>
    nearest (digitsValue (whole ++ fraction)) (e - fraction.length)

/-- An unsigned float: a decimal or a word. -/
def unsigned? (s : Text) : Option Float :=
  if s.equalsIgnoringCase "inf".toList || s.equalsIgnoringCase "infinity".toList then
    some (Float.ofBits 0x7FF0000000000000)
  else if s.equalsIgnoringCase "nan".toList then some (Float.ofBits 0x7FF8000000000000)
  else decimal? s

/-- Reads a float, which must be the whole text. -/
def read? (s : Text) : Option Float :=
  let (negative, body) := takeSign s
  (unsigned? body).map fun x => if negative then -x else x

end Number
end RecordFilter
