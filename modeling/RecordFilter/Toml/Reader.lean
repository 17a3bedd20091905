import RecordFilter.Toml.ScalarReader
import RecordFilter.Toml.StringReader

/-!
# Reader — documents from text

A document is read line by line into statements, and the statements then make its table.  Arrays
may run over lines and hold comments; tables between braces may not.  Values nest at most 79 deep,
and a key has at most 79 parts.
-/

namespace RecordFilter
namespace Toml

/-! ## Blanks, comments and line ends -/

/-- What follows a comment at the front, up to the end of its line. -/
def skipComment (s : Text) : Text :=
  match s with
  | '#' :: rest => rest.dropWhile isShown
  | _ => s

/-- What follows the end of a line, before which blanks and a comment may stand. -/
def lineEnd? (s : Text) : Option Text :=
  match skipComment (skipInlineBlanks s) with
  | [] => some []
  | rest => afterBreak? rest

theorem length_skipComment_le (s : Text) : (skipComment s).length ≤ s.length := by
  unfold skipComment
  split
  case h_1 rest =>
    exact Nat.le_succ_of_le (List.dropWhile_sublist _).length_le
  case h_2 => exact Nat.le_refl _

/-- What follows the blanks, line breaks and comments at the front of a text. -/
def skipTrivia (s : Text) : Text :=
  match _hbreak : afterBreak? (skipComment (skipInlineBlanks s)) with
  | some rest => skipTrivia rest
  | none => skipInlineBlanks s
termination_by s.length
decreasing_by
  have := length_of_afterBreak? _hbreak
  have := length_skipComment_le (skipInlineBlanks s)
  have := length_skipInlineBlanks_le s
  omega

/-! ## Keys -/

/-- A character of a key without quotes. -/
def isBareKeyChar (c : Char) : Bool := c.isAlphanum || c == '_' || c == '-'

/-- One part of a key. -/
def keyPart? (s : Text) : Option (Text × Text) :=
  match s with
  | '"' :: rest => basicBody? rest
  | '\'' :: rest => literalBody? rest
  | _ =>
      let part := s.takeWhile isBareKeyChar
      if part.isEmpty then none else some (part, s.dropWhile isBareKeyChar)

/-- One or more parts of a key with points between them, and blanks around each. -/
def keyParts? (s : Text) : Option (List Text × Text) :=
  match keyPart? (skipInlineBlanks s) with
  | none => none
  | some (part, rest) =>
      match skipInlineBlanks rest with
      | '.' :: more =>
          if more.length < s.length then (keyParts? more).map fun (parts, r) => (part :: parts, r)
          else none
      | after => some ([part], after)
termination_by s.length

/-- How many parts a key may not have, and how deep values may not nest. -/
def recursionLimit : Nat := 80

/-- A key. -/
def key? (s : Text) : Option (Key × Text) :=
  match keyParts? s with
  | none => none
  | some (parts, rest) =>
      match parts.getLast? with
      | none => none
      | some name =>
          if parts.length < recursionLimit then some (⟨parts.dropLast, name⟩, rest) else none

/-! ## Values -/

/-- Items up to the closing bracket, each read by `item`. -/
def items? (item : Text → Option (Value × Text)) (s : Text) : Option (List Value × Text) :=
  match skipTrivia s with
  | ']' :: after => some ([], after)
  | body =>
      match item body with
      | none => none
      | some (v, rest) =>
          match skipTrivia rest with
          | ']' :: after => some ([v], after)
          | ',' :: more =>
              if more.length < s.length then (items? item more).map fun (vs, r) => (v :: vs, r)
              else none
          | _ => none
termination_by s.length

/-- A key, an equals sign and a value, with blanks around each. -/
def pair? (item : Text → Option (Value × Text)) (s : Text) : Option ((Key × Value) × Text) := do
  let (key, rest) ← key? s
  let (v, rest) ← item (skipInlineBlanks (← afterChar? '=' rest))
  pure ((key, v), skipInlineBlanks rest)

/-- Pairs up to the closing brace. -/
def pairs? (item : Text → Option (Value × Text)) (s : Text) :
    Option (List (Key × Value) × Text) :=
  match pair? item s with
  | none => none
  | some (p, rest) =>
      match rest with
      | '\x7d' :: after => some ([p], after)
      | ',' :: more =>
          if more.length < s.length then (pairs? item more).map fun (ps, r) => (p :: ps, r)
          else none
      | _ => none
termination_by s.length

/-- The table that pairs make. -/
def tableOf? (pairs : List (Key × Value)) : Option Value :=
  Document.ofStatements? (pairs.map fun (key, v) => .entry key v)

/-- A table behind its opening brace. -/
def inlineTable? (item : Text → Option (Value × Text)) (s : Text) : Option (Value × Text) :=
  match skipInlineBlanks s with
  | '\x7d' :: after => some (.table [], after)
  | body => do
      let (pairs, rest) ← pairs? item body
      pure (← tableOf? pairs, rest)

/-- A value that is no array and no table. -/
def simple? (s : Text) : Option (Value × Text) :=
  match string? s with
  | some (t, rest) => some (.string t, rest)
  | none => scalar? s

/-- A value in which arrays and tables nest at most `depth` deep, and the rest of the text. -/
def value? : Nat → Text → Option (Value × Text)
  | 0, s => simple? s
  | depth + 1, s =>
      match s with
      | '[' :: rest => (items? (value? depth) rest).map fun (vs, r) => (.array vs, r)
      | '\x7b' :: rest => inlineTable? (value? depth) rest
      | _ => simple? s

/-! ## Lines -/

/-- The header of a table, behind its opening bracket, or of a table in an array. -/
def header? (s : Text) : Option (Statement × Text) :=
  match s with
  | '[' :: rest => do
      let (key, rest) ← key? rest
      pure (.tableInArray key, ← afterChar? ']' (← afterChar? ']' rest))
  | _ => do
      let (key, rest) ← key? s
      pure (.table key, ← afterChar? ']' rest)

/-- What stands on a line that is not blank. -/
def statement? (s : Text) : Option (Statement × Text) :=
  match s with
  | '[' :: rest => header? rest
  | _ => (pair? (value? (recursionLimit - 1)) s).map fun ((key, v), r) => (.entry key v, r)

/-- One line: its statement, if there is one, and what follows its end. -/
def line? (s : Text) : Option (Option Statement × Text) :=
  match lineEnd? s with
  | some rest => some (none, rest)
  | none => do
      let (statement, rest) ← statement? (skipInlineBlanks s)
      pure (some statement, ← lineEnd? rest)

/-- The statements of a text. -/
def statements? (s : Text) : Option (List Statement) :=
  if s.isEmpty then some []
  else
    match line? s with
    | none => none
    | some (statement, rest) =>
        if rest.length < s.length then (statements? rest).map (statement.toList ++ ·) else none
termination_by s.length

/-- Without a byte order mark at the front. -/
def dropByteOrderMark (s : Text) : Text :=
  match s with
  | c :: rest => if c.toNat = 0xFEFF then rest else s
  | [] => []

/-- The table that a document holds. -/
def read? (s : Text) : Option Value :=
  (statements? (dropByteOrderMark s)).bind Document.ofStatements?

end Toml
end RecordFilter
