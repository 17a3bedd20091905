import RecordFilter.Arithmetic.Basic
import RecordFilter.Expression.Wrapping
import RecordFilter.Number.Reading
import RecordFilter.Schema

/-!
# Reader — arithmetic expressions from text

An expression is split at the last operator of the loosest tier outside literals and groups, so
operators of one tier group to the left.  A plus or minus that follows no operand, or that belongs
to the exponent of a number, is no operator.
-/

namespace RecordFilter
namespace Arithmetic

open Text Expression

/-- Whether the text before a sign, given backwards, ends in a number that the sign gives an
exponent to: digits or points and the letter `e`, not preceded by a word. -/
def endsInExponentMark : Text → Bool
  | [] => false
  | mark :: before =>
      let inNumber := fun c : Char => c.isDigit || c == '.'
      (mark == 'e' || mark == 'E') && !(before.takeWhile inNumber).isEmpty &&
        !(before.dropWhile inNumber).head?.any fun c => c.isAlphanum || c == '_'

/-- Whether a sign joins two operands, given the text before it backwards. -/
def joinsOperands (before : Text) : Bool :=
  match before.find? fun c => !isAsciiBlank c with
  | none => false
  | some c => (Operator.ofSymbol? c).isNone && !endsInExponentMark before

/-- The operator that stands at a character, given the text before it backwards. -/
def operatorAt? (before : Text) (c : Char) : Option Operator :=
  match Operator.ofSymbol? c with
  | none => none
  | some op => if op.tier = .additive && !joinsOperands before then none else some op

/-- The operators in a mask with their offsets, from left to right. -/
def operatorsFrom (before : Text) (offset : Nat) : Text → List (Nat × Operator)
  | [] => []
  | c :: rest =>
      let further := operatorsFrom (c :: before) (offset + c.utf8Size) rest
      match operatorAt? before c with
      | some op => (offset, op) :: further
      | none => further

/-- The operators outside literals and groups with their offsets, from left to right. -/
def operators (s : Text) : List (Nat × Operator) := operatorsFrom [] 0 (maskGroups s)

/-- The last operator of a tier. -/
def lastOf? (tier : Operator.Tier) (found : List (Nat × Operator)) : Option (Nat × Operator) :=
  found.reverse.find? fun (_, op) => op.tier = tier

/-- The operator at which an expression is split: the last one of the loosest tier there is. -/
def rootOperator? (s : Text) : Option (Nat × Operator) :=
  let found := operators s
  lastOf? .additive found <|> lastOf? .multiplicative found <|> lastOf? .power found

/-- The operator at which an expression is split, and its two sides. -/
def split? (s : Text) : Option (Operator × Text × Text) :=
  (rootOperator? s).map fun (offset, op) => (op, sidesOf offset 1 s)

theorem length_of_split? {s left right : Text} {op : Operator}
    (h : split? s = some (op, left, right)) : left.length + right.length ≤ s.length := by
  obtain ⟨⟨offset, _⟩, _, heq⟩ := Option.map_eq_some_iff.1 h
  cases heq
  exact length_sidesOf offset 1 s

/-- An expression without operators: the numeric field or a number. -/
def readLeaf (schema : Schema) (s : Text) : Except SyntaxError Arithmetic :=
  if schema.isNumeric s then .ok (.field s)
  else if schema.isAllowed s then .error ⟨.textFieldInArithmetic s, s⟩
  else
    match Number.read? s with
    | some x => .ok (.number s x)
    | none => .error ⟨.notANumber, s⟩

/-- Reads an arithmetic expression. -/
def read (schema : Schema) (s : Text) : Except SyntaxError Arithmetic :=
  match _htidy : tidy s with
  | .error e => .error e
  | .ok raw =>
      if raw.isEmpty then .error ⟨.emptyArithmetic, trim s⟩
      else
        match _hsplit : split? raw with
        | none => readLeaf schema raw
        | some (op, left, right) =>
            if _hblank : allBlank left || allBlank right then
              .error ⟨.missingOperand [op.symbol], raw⟩
            else do
              let a ← read schema left
              let b ← read schema right
              .ok (.binary op a b raw)
termination_by s.length
decreasing_by
  all_goals
    have := length_le_of_tidy _htidy
    have := length_of_split? _hsplit
    simp only [Bool.or_eq_true, not_or, Bool.not_eq_true] at _hblank
    have := length_pos_of_not_allBlank _hblank.1
    have := length_pos_of_not_allBlank _hblank.2
    omega

end Arithmetic
end RecordFilter
