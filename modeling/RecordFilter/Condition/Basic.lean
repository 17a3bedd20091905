import RecordFilter.Comparison.Basic

/-!
# Condition — comparisons under connectives

A condition is a truth value, a comparison, a negation or two conditions under a connective.
Evaluation reads both sides of a connective, so a field that is missing on either side shows.
-/

namespace RecordFilter

namespace Condition

/-- The binary connectives. -/
inductive Connective where
  | and
  | or
  | xor
  deriving DecidableEq, Repr

namespace Connective

/-- The word for a connective. -/
def keyword : Connective → Text
  | .and => ['A', 'N', 'D']
  | .or => ['O', 'R']
  | .xor => ['X', 'O', 'R']

/-- The truth function. -/
def apply : Connective → Bool → Bool → Bool
  | .and, a, b => a && b
  | .or, a, b => a || b
  | .xor, a, b => a ^^ b

end Connective

/-- The word for negation. -/
def notKeyword : Text := ['N', 'O', 'T']

/-- The words for the truth values. -/
def truthWord (b : Bool) : Text :=
  if b then ['T', 'R', 'U', 'E'] else ['F', 'A', 'L', 'S', 'E']

end Condition

/-- A condition.  `raw` is the text of the node. -/
inductive Condition where
  | truth (value : Bool)
  | comparison (c : Comparison)
  | negation (child : Condition) (raw : Text)
  | binary (op : Condition.Connective) (left right : Condition) (raw : Text)
  deriving DecidableEq, Repr

namespace Condition

/-- The text that a node was read from. -/
def raw : Condition → Text
  | .truth b => truthWord b
  | .comparison c => c.raw
  | .negation _ raw => raw
  | .binary _ _ _ raw => raw

/-- The connective or negation at the root. -/
def keyword? : Condition → Option Text
  | .negation _ _ => some notKeyword
  | .binary op _ _ _ => some op.keyword
  | _ => none

/-- The conditions directly below. -/
def children : Condition → List Condition
  | .negation child _ => [child]
  | .binary _ left right _ => [left, right]
  | _ => []

/-- The value of a condition that is a truth value. -/
def truth? : Condition → Option Bool
  | .truth b => some b
  | _ => none

/-- One for a truth value, that of the comparison for a comparison, else one more than the largest
below. -/
def complexity : Condition → Nat
  | .truth _ => 1
  | .comparison c => c.complexity
  | .negation child _ => child.complexity + 1
  | .binary _ left right _ => max left.complexity right.complexity + 1

/-- The value on a record.  Both sides of a connective are read, the left one first. -/
def evaluate (record : Record) : Condition → Except FieldError Bool
  | .truth b => .ok b
  | .comparison c => c.holds record
  | .negation child _ => do
      let b ← child.evaluate record
      .ok !b
  | .binary op left right _ => do
      let a ← left.evaluate record
      let b ← right.evaluate record
      .ok (op.apply a b)

/-- Canonical text: parentheses around every negation and connective. -/
def text : Condition → Text
  | .truth b => truthWord b
  | .comparison c => c.text
  | .negation child _ => '(' :: notKeyword ++ ' ' :: child.text ++ [')']
  | .binary op left right _ =>
      '(' :: left.text ++ ' ' :: op.keyword ++ ' ' :: right.text ++ [')']

end Condition
end RecordFilter
