import RecordFilter.Condition.Reader

/-!
# Query — a condition in a SELECT statement

A query is written `SELECT * FROM <source> [WHERE <condition>] [;]`, with blanks between the words
and keywords in any letter case.  Without a condition every record is accepted.
-/

namespace RecordFilter

open Text

/-- A query: its text, the source it names, and its condition as text and as a tree. -/
structure Query where
  statement : Text
  source : Text
  condition : Text
  root : Condition
  deriving DecidableEq, Repr

namespace Query

/-! ## The shape of a statement -/

/-- Whether a character is a given capital letter in either case.  The long s counts as an s. -/
def isLetter (capital c : Char) : Bool :=
  c.toUpper == capital || (capital == 'S' && c == 'ſ')

/-- What follows a keyword at the front of the text. -/
def afterKeyword? : Text → Text → Option Text
  | [], s => some s
  | _ :: _, [] => none
  | k :: word, c :: rest => if isLetter k c then afterKeyword? word rest else none

/-- What follows one or more blanks at the front of the text. -/
def afterBlanks? : Text → Option Text
  | [] => none
  | c :: rest => if isBlank c then some (trimStart rest) else none

/-- A word of one or more characters that `inWord` admits, and what follows it. -/
def word? (inWord : Char → Bool) (s : Text) : Option (Text × Text) :=
  let word := s.takeWhile inWord
  if word.isEmpty then none else some (word, s.dropWhile inWord)

/-- The parts of a statement. -/
structure Statement where
  projection : Text
  source : Text
  clause : Option Text
  deriving DecidableEq, Repr

/-- Without one semicolon at the end, if there is one. -/
def dropSemicolon (s : Text) : Text :=
  if s.getLast? = some ';' then s.dropLast else s

/-- What follows the word WHERE and the blanks on either side of it. -/
def clause? (s : Text) : Option Text := do
  afterBlanks? (← afterKeyword? "WHERE".toList (← afterBlanks? s))

/-- What stands behind the source: a clause, without blanks and one semicolon at its end, or
nothing but blanks and at most one semicolon. -/
def ending? (s : Text) : Option (Option Text) :=
  match clause? s with
  | some clause => some (some (trimEnd (dropSemicolon (trimEnd clause))))
  | none => if allBlank (dropSemicolon (trimEnd s)) then some none else none

/-- The parts of a statement, if the text has the shape of one. -/
def statement? (s : Text) : Option Statement := do
  let s ← afterBlanks? (← afterKeyword? "SELECT".toList (trimStart s))
  let (projection, s) ← word? (fun c => !isBlank c) s
  let s ← afterBlanks? (← afterKeyword? "FROM".toList (← afterBlanks? s))
  let (source, s) ← word? (fun c => !(isBlank c || c == ';')) s
  some ⟨projection, source, ← ending? s⟩

/-! ## Reading -/

/-- Without the semicolons at the end. -/
def trimSemicolons (s : Text) : Text := (s.reverse.dropWhile (· == ';')).reverse

/-- The condition that a clause holds; that of no clause is always true. -/
def conditionOf (clause : Option Text) : Text :=
  match clause with
  | some c => trim (trimSemicolons (trim c))
  | none => Condition.truthWord true

/-- Reads a statement. -/
def read (schema : Schema) (s : Text) : Except SyntaxError Query :=
  match statement? s with
  | none => .error ⟨.notASelect, trim s⟩
  | some ⟨projection, source, clause⟩ =>
      if projection ≠ ['*'] then .error ⟨.projection, projection⟩
      else if (conditionOf clause).isEmpty then .error ⟨.emptyWhere, trim s⟩
      else do
        let root ← Condition.read schema (conditionOf clause)
        .ok ⟨trim s, source, conditionOf clause, root⟩

/-- Reads a bare condition, as the clause of a statement about any source. -/
def ofCondition (schema : Schema) (condition : Text) : Except SyntaxError Query :=
  read schema ("SELECT * FROM * WHERE ".toList ++ condition)

/-- The complexity of the condition. -/
def complexity (q : Query) : Nat := q.root.complexity

/-- Whether a record satisfies the condition. -/
def evaluate (q : Query) (record : Record) : Except FieldError Bool := q.root.evaluate record

end Query
end RecordFilter
