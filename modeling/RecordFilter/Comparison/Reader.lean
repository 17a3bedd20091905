import RecordFilter.Arithmetic.Reader
import RecordFilter.Comparison.Basic

/-!
# Reader — comparisons from text

A comparison is split at its first relation outside literals and groups, where a relation of two
characters is looked for before one of a single character.  One side has to name a field.  If that
side names the numeric field, both sides are arithmetic; otherwise it is a bare field and the other
side a literal.
-/

namespace RecordFilter
namespace Comparison

open Text Expression

/-! ## Checks on the whole comparison -/

/-- Whether a text names some allowed field outside literals. -/
def namesField (schema : Schema) (s : Text) : Bool :=
  schema.allowed.any fun field => mentions field s

/-- The characters outside single quotes, with each closing quote; `inside` says that the text
begins between quotes. -/
def outsideQuotes (inside : Bool) : Text → Text
  | [] => []
  | c :: rest =>
      let inside := if c = '\'' then !inside else inside
      if inside then outsideQuotes inside rest else c :: outsideQuotes inside rest

/-- What is left of a text without allowed names, quoted parts, digits, points and blanks. -/
def residue (schema : Schema) (s : Text) : Text :=
  let unnamed := schema.allowed.foldl (fun rest name => without name rest) s
  (outsideQuotes false unnamed).filter fun c => !(c.isDigit || c == '.' || isBlank c)

/-- More characters left than a relation of two characters and a closing quote can explain. -/
def hasUnknownName (schema : Schema) (s : Text) : Bool := 3 < (residue schema s).length

/-! ## The relation -/

/-- The relations in the order in which they are looked for: a relation of two characters before
one of which it begins with the symbol. -/
def Relation.searchOrder : List Relation := [.le, .ge, .ne, .eq, .lt, .gt]

/-- The relation of a comparison and its offset. -/
def rootRelation? (s : Text) : Option (Nat × Relation) :=
  Relation.searchOrder.findSome? fun r => (firstIndex? r.symbol s).map (·, r)

/-- The relation at which a comparison is split, and its two sides without blanks around them. -/
def split? (s : Text) : Option (Relation × Text × Text) :=
  (rootRelation? s).map fun (offset, relation) =>
    let (left, right) := sidesOf offset (byteSize relation.symbol) s
    (relation, trim left, trim right)

/-! ## The sides -/

/-- A literal: the text between single quotes, where a quote is written twice. -/
def readLiteral (raw s : Text) : Except SyntaxError Text :=
  match Quoted.body? s with
  | none => .error ⟨.noQuotedLiteral, raw⟩
  | some body =>
      match Quoted.decode body with
      | none => .error ⟨.loneQuote, raw⟩
      | some literal => .ok literal

/-- The sides, of which the left one names a field. -/
def readOperands (schema : Schema) (raw left right : Text) : Except SyntaxError Operands :=
  if mentions schema.numeric left then do
    let a ← Arithmetic.read schema left
    let b ← Arithmetic.read schema right
    .ok (.numeric a b)
  else if schema.isAllowed (unwrap left) then do
    let literal ← readLiteral raw right
    .ok (.text (unwrap left) literal)
  else .error ⟨.noBareField, raw⟩

/-- Reads the sides of a relation, the one that names a field first. -/
def readSides (schema : Schema) (raw : Text) (relation : Relation) (left right : Text) :
    Except SyntaxError Comparison :=
  if left.isEmpty || right.isEmpty then .error ⟨.missingOperand relation.symbol, raw⟩
  else if namesField schema left then do
    let operands ← readOperands schema raw left right
    .ok ⟨raw, relation, false, operands⟩
  else do
    let operands ← readOperands schema raw right left
    .ok ⟨raw, relation, true, operands⟩

/-- Reads a comparison. -/
def read (schema : Schema) (s : Text) : Except SyntaxError Comparison := do
  let raw ← tidy s
  if raw.isEmpty then .error ⟨.emptyComparison, trim s⟩
  else
    let outside ← outermost raw
    if hasUnknownName schema outside then .error ⟨.unknownNames schema.allowed, raw⟩
    else if !namesField schema raw then .error ⟨.noKnownField schema.allowed, raw⟩
    else
      match split? raw with
      | none => .error ⟨.noComparisonOperator, raw⟩
      | some (relation, left, right) => readSides schema raw relation left right

end Comparison
end RecordFilter
