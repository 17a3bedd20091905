import RecordFilter.Number.Binary
import RecordFilter.Record

/-!
# Arithmetic — numeric expressions over a record

An arithmetic tree has numbers and the numeric field at its leaves.  Each node keeps the text it
was read from.  `text` prints a tree with parentheses around every operation.
-/

namespace RecordFilter

namespace Arithmetic

/-- The binary operators. -/
inductive Operator where
  | add
  | sub
  | mul
  | div
  | rem
  | pow
  deriving DecidableEq, Repr

namespace Operator

/-- The character that stands for an operator. -/
def symbol : Operator → Char
  | .add => '+'
  | .sub => '-'
  | .mul => '*'
  | .div => '/'
  | .rem => '%'
  | .pow => '^'

/-- The operator that a character stands for. -/
def ofSymbol? (c : Char) : Option Operator :=
  if c = '+' then some .add
  else if c = '-' then some .sub
  else if c = '*' then some .mul
  else if c = '/' then some .div
  else if c = '%' then some .rem
  else if c = '^' then some .pow
  else none

/-- How tightly an operator binds. -/
inductive Tier where
  | additive
  | multiplicative
  | power
  deriving DecidableEq, Repr

/-- The tier of an operator. -/
def tier : Operator → Tier
  | .add | .sub => .additive
  | .mul | .div | .rem => .multiplicative
  | .pow => .power

/-- The operation on floats.  Division and remainder by zero give infinities and NaNs. -/
def apply : Operator → Float → Float → Float
  | .add, a, b => a + b
  | .sub, a, b => a - b
  | .mul, a, b => a * b
  | .div, a, b => a / b
  | .rem, a, b => Number.remainder a b
  | .pow, a, b => Float.pow a b

theorem ofSymbol?_symbol (op : Operator) : ofSymbol? op.symbol = some op := by
  cases op <;> rfl

end Operator
end Arithmetic

/-- An arithmetic expression.  `raw` is the text of the node. -/
inductive Arithmetic where
  | number (raw : Text) (value : Float)
  | field (name : Text)
  | binary (op : Arithmetic.Operator) (left right : Arithmetic) (raw : Text)
  deriving DecidableEq, Repr

namespace Arithmetic

/-- The text that a node was read from. -/
def raw : Arithmetic → Text
  | .number raw _ => raw
  | .field name => name
  | .binary _ _ _ raw => raw

/-- The operator at the root. -/
def operator? : Arithmetic → Option Operator
  | .binary op _ _ _ => some op
  | _ => none

/-- The number of operations on the longest way down. -/
def complexity : Arithmetic → Nat
  | .binary _ left right _ => max left.complexity right.complexity + 1
  | _ => 0

/-- Whether the expression reads the numeric field. -/
def readsField : Arithmetic → Bool
  | .number _ _ => false
  | .field _ => true
  | .binary _ left right _ => left.readsField || right.readsField

/-- The value on a record; of two failing leaves the left one counts. -/
def value (record : Record) : Arithmetic → Except FieldError Float
  | .number _ x => .ok x
  | .field name => record.numberOf name
  | .binary op left right _ => do
      let a ← left.value record
      let b ← right.value record
      .ok (op.apply a b)

/-- Canonical text: parentheses around every operation, leaves as they were written. -/
def text : Arithmetic → Text
  | .binary op left right _ => '(' :: left.text ++ [' ', op.symbol, ' '] ++ right.text ++ [')']
  | leaf => leaf.raw

end Arithmetic
end RecordFilter
