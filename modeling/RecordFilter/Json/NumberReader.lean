import RecordFilter.Number.Reading
import RecordFilter.Json.Basic

/-!
# NumberReader — numbers in JSON text

A number is an optional minus, digits without a leading zero, an optional point with digits and an
optional exponent with digits.  Digits are gathered into a significand of 64 bits.  Without point
and exponent, a number within the range of signed or unsigned 64-bit integers is an integer.  All
others are floats: the significand times, or divided by, a power of ten, both rounded.  Digits that
the significand cannot hold count as zeros.
-/

namespace RecordFilter
namespace Json

open RecordFilter.Number (digitsValue takeSign)

/-- A power of ten up to 308. -/
def powerOfTen (n : Nat) : Float := Float.ofScientific 1 false n

/-- Appends digits to a significand while it stays below `2^64`, and gives the digits left over. -/
def gather (significand : Nat) : Text → Nat × Text
  | [] => (significand, [])
  | c :: rest =>
      let next := 10 * significand + (c.toNat - '0'.toNat)
      if next < Nat.pow 2 64 then gather next rest else (significand, c :: rest)

/-- Divides by a power of ten, in steps of at most 308 places, until zero is reached. -/
def scaleDown (x : Float) (places : Nat) : Float :=
  if places ≤ 308 then x / powerOfTen places
  else if x == 0 then x
  else scaleDown (x / powerOfTen 308) (places - 308)
termination_by places

/-- Scales by a power of ten; nothing where the result is too large for a float. -/
def scale? (x : Float) : Int → Option Float
  | .ofNat places =>
      if places ≤ 308 then
        let y := x * powerOfTen places
        if y.isInf then none else some y
      else if x == 0 then some x
      else none
  | .negSucc n => some (scaleDown x (n + 1))

/-- The sum of two exponents, kept within the range of signed 32-bit integers. -/
def addExponents (a b : Int) : Int :=
  max (-(Nat.pow 2 31 : Int)) (min ((Nat.pow 2 31 : Int) - 1) (a + b))

/-- The float with a sign, a significand and an exponent. -/
def signedReal? (negative : Bool) (significand : Nat) (exponent : Int) : Option Number :=
  (scale? (Float.ofNat significand) exponent).map fun x => .real (if negative then -x else x)

/-- The number without point and exponent that has the given digits. -/
def integer? (negative : Bool) (significand : Nat) (leftOver : Nat) : Option Number :=
  if leftOver ≠ 0 then signedReal? negative significand leftOver
  else if !negative then some (.integer significand)
  else if significand = 0 || Nat.pow 2 63 < significand then some (.real (-Float.ofNat significand))
  else some (.integer (-significand))

/-- Applies an exponent that is written in the text.  One that does not fit in 32 bits makes zero,
or is too large. -/
def withExponent? (negative : Bool) (significand : Nat) (exponent : Int) (minus : Bool)
    (digits : Text) : Option Number :=
  let written := digitsValue digits
  if written < Nat.pow 2 31 then
    signedReal? negative significand
      (addExponents exponent (if minus then -(written : Int) else written))
  else if significand ≠ 0 && !minus then none
  else some (.real (if negative then -0.0 else 0.0))

/-- An optional exponent behind the digits, and the rest of the text. -/
def exponentTail? (negative : Bool) (significand : Nat) (exponent : Int) (s : Text) :
    Option (Number × Text) :=
  match s with
  | [] => (signedReal? negative significand exponent).map (·, [])
  | c :: rest =>
      if c = 'e' || c = 'E' then
        let (minus, body) := takeSign rest
        let digits := body.takeWhile Char.isDigit
        if digits.isEmpty then none
        else
          (withExponent? negative significand exponent minus digits).map
            (·, body.dropWhile Char.isDigit)
      else (signedReal? negative significand exponent).map (·, c :: rest)

/-- An unsigned number, to which `negative` gives the sign, and the rest of the text. -/
def magnitude? (negative : Bool) (s : Text) : Option (Number × Text) :=
  let whole := s.takeWhile Char.isDigit
  let rest := s.dropWhile Char.isDigit
  if whole.isEmpty || (whole.head? == some '0' && whole.length != 1) then none
  else
    let (significand, left) := gather 0 whole
    match rest with
    | [] => (integer? negative significand left.length).map (·, [])
    | c :: more =>
        if c = '.' then
          let fraction := more.takeWhile Char.isDigit
          if fraction.isEmpty then none
          else
            let (significand, unused) := gather significand fraction
            let taken : Int := fraction.length - unused.length
            exponentTail? negative significand (left.length - taken)
              (more.dropWhile Char.isDigit)
        else if c = 'e' || c = 'E' then exponentTail? negative significand left.length rest
        else (integer? negative significand left.length).map (·, rest)

/-- A number, and the rest of the text. -/
def number? : Text → Option (Number × Text)
  | [] => none
  | c :: rest => if c = '-' then magnitude? true rest else magnitude? false (c :: rest)

end Json
end RecordFilter
