import RecordFilter.Number.Binary

/-!
# Shortest — the fewest digits that read back

Among the decimals that round to a given float, `Decimal.shortest` chooses one with the fewest
digits; of two such it takes the nearer, and of two equally near the even one.  All comparisons are
between natural numbers and exact.
-/

namespace RecordFilter
namespace Number

/-- The value `digits · 10^exponent`. -/
structure Decimal where
  digits : Nat
  exponent : Int
  deriving DecidableEq, Repr

namespace Decimal

/-- Compares `a · 10^i` with `n · 2^j`. -/
def compareScaled (a : Nat) (i : Int) (n : Nat) (j : Int) : Ordering :=
  compare (a * Nat.pow 10 i.toNat * Nat.pow 2 (-j).toNat)
    (n * Nat.pow 2 j.toNat * Nat.pow 10 (-i).toNat)

/-- Whether a decimal lies among the reals that round to `b`, to nearest and ties to even. -/
def readsBack (b : Binary) (d : Decimal) : Bool :=
  let low := if b.narrowBelow then 4 * b.significand - 1 else 4 * b.significand - 2
  let high := 4 * b.significand + 2
  let inclusive := b.significand % 2 == 0
  let belowLow := compareScaled d.digits d.exponent low (b.exponent - 2)
  let belowHigh := compareScaled d.digits d.exponent high (b.exponent - 2)
  (belowLow == .gt || (inclusive && belowLow == .eq)) &&
    (belowHigh == .lt || (inclusive && belowHigh == .eq))

/-- The exponent of the leading digit of a positive value. -/
def leadingExponent (b : Binary) : Int :=
  let estimate := ((Nat.log2 b.significand : Int) + b.exponent) * 30103 / 100000
  if (compareScaled 1 (estimate + 1) b.significand b.exponent).isLE then estimate + 1
  else if (compareScaled 1 estimate b.significand b.exponent).isLE then estimate
  else estimate - 1

/-- The neighbour below, or the value itself, on the grid of multiples of `10^exponent`. -/
def floorOn (exponent : Int) (b : Binary) : Nat :=
  (b.significand * Nat.pow 2 b.exponent.toNat * Nat.pow 10 (-exponent).toNat) /
    (Nat.pow 2 (-b.exponent).toNat * Nat.pow 10 exponent.toNat)

/-- The neighbour on a grid that reads back; of two the nearer, of two equally near the even. -/
def nearestOn? (b : Binary) (exponent : Int) : Option Decimal :=
  let below : Nat := floorOn exponent b
  let down : Decimal := ⟨below, exponent⟩
  let up : Decimal := ⟨below + 1, exponent⟩
  match readsBack b down, readsBack b up with
  | false, false => none
  | true, false => some down
  | false, true => some up
  | true, true =>
      match compareScaled (2 * below + 1) exponent (2 * b.significand) b.exponent with
      | .gt => some down
      | .lt => some up
      | .eq => if below % 2 = 0 then some down else some up

/-- Drops up to `limit` zeros at the end of the digits. -/
def dropZeros : Nat → Decimal → Decimal
  | 0, d => d
  | limit + 1, d =>
      if d.digits % 10 = 0 then dropZeros limit ⟨d.digits / 10, d.exponent + 1⟩ else d

/-- The value written out in full. -/
def exact (b : Binary) : Decimal :=
  ⟨b.significand * Nat.pow 2 b.exponent.toNat * Nat.pow 5 (-b.exponent).toNat, min b.exponent 0⟩

/-- The fewest digits that read back as the positive value `b`. -/
def shortest (b : Binary) : Decimal :=
  let leading := leadingExponent b
  let found := (List.range 17).findSome? fun (more : Nat) => nearestOn? b (leading - more)
  dropZeros 17 (found.getD (exact b))

end Decimal
end Number
end RecordFilter
