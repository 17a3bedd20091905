import RecordFilter.Text.Basic
import RecordFilter.Number.Shortest

/-!
# Notation — numbers as text

Integers are written in base ten.  Finite floats are written with the fewest digits that read back,
positionally where the leading digit has an exponent from -5 to 15, and with an exponent otherwise.
-/

namespace RecordFilter
namespace Number

/-- A natural number in base ten. -/
def natText (n : Nat) : Text := Nat.toDigits 10 n

/-- An integer in base ten. -/
def intText : Int → Text
  | .ofNat n => natText n
  | .negSucc n => '-' :: natText (n + 1)

/-- A positive decimal: with a point and at least one digit on either side of it where the leading
digit's exponent is from -5 to 15, else as `d.dde+x`. -/
def Decimal.text (d : Decimal) : Text :=
  let digits := natText d.digits
  let leading : Int := d.exponent + digits.length - 1
  if -5 ≤ leading && leading ≤ 15 then
    if 0 ≤ d.exponent then digits ++ List.replicate d.exponent.toNat '0' ++ ['.', '0']
    else if 0 ≤ leading then
      digits.take (leading.toNat + 1) ++ '.' :: digits.drop (leading.toNat + 1)
    else ['0', '.'] ++ List.replicate (-leading - 1).toNat '0' ++ digits
  else
    let tail := digits.drop 1
    let point := if tail.isEmpty then [] else '.' :: tail
    let sign := if leading < 0 then '-' else '+'
    digits.take 1 ++ point ++ 'e' :: sign :: natText leading.natAbs

/-- A float as text.  A zero keeps its sign. -/
def floatText (x : Float) : Text :=
  match Binary.ofFloat? x with
  | some b =>
      let body := if b.significand = 0 then ['0', '.', '0'] else (Decimal.shortest b).text
      if b.negative then '-' :: body else body
  | none =>
      if x.isNaN then ['n', 'a', 'n']
      else if x < 0 then ['-', 'i', 'n', 'f'] else ['i', 'n', 'f']

end Number
end RecordFilter
