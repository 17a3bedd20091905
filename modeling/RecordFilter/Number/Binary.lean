/-!
# Binary — finite floats as scaled integers

A finite float is `± m · 2^q` with a natural `m`.  `Binary.ofFloat?` takes a float apart,
`Binary.toFloat` puts one together, and the remainder is computed exactly on the parts.
-/

namespace RecordFilter
namespace Number

/-- The finite value `± significand · 2^exponent`. -/
structure Binary where
  negative : Bool
  significand : Nat
  exponent : Int
  deriving DecidableEq, Repr

namespace Binary

/-- The parts of a finite float; nothing for a NaN or an infinity. -/
def ofFloat? (x : Float) : Option Binary :=
  let bits := x.toBits.toNat
  let field : Nat := bits / Nat.pow 2 52 % Nat.pow 2 11
  let fraction : Nat := bits % Nat.pow 2 52
  let negative := bits / Nat.pow 2 63 == 1
  if field = 2047 then none
  else if field = 0 then some ⟨negative, fraction, -1074⟩
  else some ⟨negative, Nat.pow 2 52 + fraction, (field : Int) - 1075⟩

/-- Moves a significand below `2^53` up, and the exponent down, as far as a float's range admits. -/
def normalize (b : Binary) : Binary :=
  let room := 52 - Nat.log2 b.significand
  let shift := min room (b.exponent + 1074).toNat
  { b with significand := b.significand * Nat.pow 2 shift, exponent := b.exponent - shift }

/-- The float with the given parts, for a significand below `2^53` and an exponent from -1074 to
971. -/
def toFloat (b : Binary) : Float :=
  let n := b.normalize
  let sign := if b.negative then Nat.pow 2 63 else 0
  let body :=
    if n.significand < Nat.pow 2 52 then n.significand
    else (n.exponent + 1075).toNat * Nat.pow 2 52 + (n.significand - Nat.pow 2 52)
  Float.ofBits (UInt64.ofNat (sign + body))

/-- Remainder of the division that rounds toward zero, on finite values.  It has the sign of the
dividend. -/
def remainder (x y : Binary) : Binary :=
  let exponent := min x.exponent y.exponent
  let dividend := x.significand * Nat.pow 2 (x.exponent - exponent).toNat
  let divisor := y.significand * Nat.pow 2 (y.exponent - exponent).toNat
  ⟨x.negative, dividend % divisor, exponent⟩

/-- Whether the neighbour below is half as far away as the neighbour above. -/
def narrowBelow (b : Binary) : Bool :=
  b.significand == Nat.pow 2 52 && -1074 < b.exponent

end Binary

/-- The value with all bits of a quiet NaN. -/
def nan : Float := Float.ofBits 0x7FF8000000000000

/-- Remainder of the division that rounds toward zero: exact on finite values, a NaN where the
dividend is infinite or the divisor zero, and the dividend itself where the divisor is infinite. -/
def remainder (x y : Float) : Float :=
  if x.isNaN || y.isNaN then nan
  else
    match Binary.ofFloat? x, Binary.ofFloat? y with
    | none, _ => nan
    | some _, none => x
    | some a, some b => if b.significand = 0 then nan else (Binary.remainder a b).toFloat

end Number
end RecordFilter
