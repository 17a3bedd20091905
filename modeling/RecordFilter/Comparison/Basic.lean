import RecordFilter.Text.Quoted
import RecordFilter.Arithmetic.Basic

/-!
# Comparison — one relation between a field and something else

A comparison relates an arithmetic expression that reads the numeric field to another one, or a
text field to a literal.  The side with the field is kept on the left; `swapped` says that it was
written on the right, and then the relation applied is the converse of the one written.
-/

namespace RecordFilter

namespace Comparison

/-- The relations. -/
inductive Relation where
  | eq
  | ne
  | lt
  | gt
  | le
  | ge
  deriving DecidableEq, Repr

namespace Relation

/-- The characters that stand for a relation. -/
def symbol : Relation → Text
  | .eq => ['=']
  | .ne => ['<', '>']
  | .lt => ['<']
  | .gt => ['>']
  | .le => ['<', '=']
  | .ge => ['>', '=']

/-- The same relation with its sides exchanged. -/
def converse : Relation → Relation
  | .lt => .gt
  | .gt => .lt
  | .le => .ge
  | .ge => .le
  | r => r

/-- Whether the relation holds of two texts in the given order. -/
def holdsOf : Relation → Ordering → Bool
  | .eq, o => o == .eq
  | .ne, o => o != .eq
  | .lt, o => o == .lt
  | .gt, o => o == .gt
  | .le, o => o != .gt
  | .ge, o => o != .lt

/-- How far two floats may be apart and still count as equal. -/
def tolerance : Float := 1e-7

/-- Whether two floats count as equal. -/
def nearlyEqual (a b : Float) : Bool := (a - b).abs < tolerance

/-- Whether the relation holds between two floats. -/
def holdsBetween : Relation → Float → Float → Bool
  | .eq, a, b => nearlyEqual a b
  | .ne, a, b => !nearlyEqual a b
  | .lt, a, b => a < b
  | .gt, a, b => a > b
  | .le, a, b => a ≤ b
  | .ge, a, b => a ≥ b

theorem converse_converse (r : Relation) : r.converse.converse = r := by
  cases r <;> rfl

end Relation

/-- The two sides of a comparison. -/
inductive Operands where
  | numeric (left right : Arithmetic)
  | text (field literal : Text)
  deriving DecidableEq, Repr

end Comparison

/-- A comparison. -/
structure Comparison where
  raw : Text
  written : Comparison.Relation
  swapped : Bool
  operands : Comparison.Operands
  deriving DecidableEq, Repr

namespace Comparison

/-- The relation between the kept left side and the kept right side. -/
def effective (c : Comparison) : Relation :=
  if c.swapped then c.written.converse else c.written

/-- Whether two numbers are compared. -/
def isNumeric (c : Comparison) : Bool :=
  match c.operands with
  | .numeric _ _ => true
  | .text _ _ => false

/-- One more than the complexity of the arithmetic in it. -/
def complexity (c : Comparison) : Nat :=
  match c.operands with
  | .numeric left right => max left.complexity right.complexity + 1
  | .text _ _ => 1

/-- Whether the comparison holds of a record. -/
def holds (record : Record) (c : Comparison) : Except FieldError Bool :=
  match c.operands with
  | .text field literal => do
      let data ← record.textOf field
      .ok (c.effective.holdsOf (Text.order data literal))
  | .numeric left right => do
      let a ← left.value record
      let b ← right.value record
      .ok (c.effective.holdsBetween a b)

/-- Canonical text of the two sides around a relation. -/
def Operands.render (relation : Text) : Operands → Text
  | .numeric left right => '(' :: left.text ++ ' ' :: relation ++ ' ' :: right.text ++ [')']
  | .text field literal =>
      '(' :: field ++ ' ' :: relation ++ ' ' :: Text.Quoted.literal literal ++ [')']

/-- Canonical text, with the field on the left. -/
def text (c : Comparison) : Text := c.operands.render c.effective.symbol

end Comparison
end RecordFilter
