import RecordFilter.Text.Basic

/-!
# Ranges — classes of characters by their code points

The tables of character classes list inclusive ranges of code points in increasing order.
-/

namespace RecordFilter
namespace Text

/-- Inclusive ranges of code points. -/
abbrev Ranges := List (Nat × Nat)

/-- Whether a code point lies in one of the ranges. -/
def Ranges.holds (ranges : Ranges) (n : Nat) : Bool :=
  ranges.any fun (low, high) => low ≤ n && n ≤ high

end Text
end RecordFilter
