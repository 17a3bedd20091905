import RecordFilter.Regex.CharSet
import RecordFilter.Text.Numeric

/-!
# Reader — which texts are regular expressions

An expression is a choice between sequences of characters, sets, places and groups, each of which
may be repeated.  The reader keeps the groups that are open, from the inside out, and measures how
deep the parts nest, in levels: a group, a repetition, a set, a sequence of several parts and a
choice are a level each.  `isPattern` accepts the expressions that an automaton can be built from.
-/

namespace RecordFilter
namespace Regex

open Text

/-! ## Open groups -/

/-- A group that is still open: how many of its choices are complete and the levels of the deepest,
then how many parts the last one has, the levels of the deepest, and those of the last part if it
may be repeated. -/
structure OpenGroup where
  choices : Nat
  choiceLevels : Nat
  size : Nat
  levels : Nat
  last : Option Nat
  deriving DecidableEq, Repr

namespace OpenGroup

/-- A group with nothing in it. -/
def empty : OpenGroup := ⟨0, 0, 0, 0, none⟩

/-- Adds a part that may be repeated. -/
def add (o : OpenGroup) (levels : Nat) : OpenGroup :=
  { o with size := o.size + 1, levels := max o.levels levels, last := some levels }

/-- Adds flags, which are a part that may not be repeated. -/
def addFlags (o : OpenGroup) : OpenGroup := { o with size := o.size + 1, last := none }

/-- Repeats the last part. -/
def repeat? (o : OpenGroup) : Option OpenGroup :=
  o.last.map fun n => { o with levels := max o.levels (n + 1), last := some (n + 1) }

/-- The levels of the last choice. -/
def sequenceLevels (o : OpenGroup) : Nat := if o.size ≤ 1 then o.levels else o.levels + 1

/-- The group behind one more bar. -/
def choose (o : OpenGroup) : OpenGroup :=
  ⟨o.choices + 1, max o.choiceLevels o.sequenceLevels, 0, 0, none⟩

/-- The levels of everything in the group. -/
def total (o : OpenGroup) : Nat :=
  if o.choices = 0 then o.sequenceLevels else max o.choiceLevels o.sequenceLevels + 1

end OpenGroup

/-! ## What opens a group -/

/-- What stands behind an opening parenthesis: flags for the rest of the group around it, or the
flags or the name of a group. -/
inductive Opening where
  | flags (flags : Text)
  | group (flags : Text)
  | named (name : Text)
  deriving DecidableEq, Repr

/-- Whether a name may begin with a character. -/
def beginsName (c : Char) : Bool := c == '_' || isAlphabetic c

/-- Whether a name may go on with a character. -/
def continuesName (c : Char) : Bool :=
  c == '_' || c == '.' || c == '[' || c == ']' || isAlphanumeric c

/-- A name up to its closing angle bracket. -/
def name? (s : Text) : Option (Opening × Text) :=
  match s.takeWhile (· != '>'), s.dropWhile (· != '>') with
  | c :: more, _ :: rest =>
      if beginsName c && more.all continuesName then some (.named (c :: more), rest) else none
  | _, _ => none

/-- Flags up to a closing parenthesis, or up to a colon, behind which the group has its parts. -/
def flags? (s : Text) : Option (Opening × Text) :=
  let isInside := fun c => c != ':' && c != ')'
  let flags := s.takeWhile isInside
  match s.dropWhile isInside with
  | [] => none
  | c :: rest =>
      if !isFlags flags then none
      else if c = ':' then some (.group flags, rest)
      else if flags.isEmpty then none
      else some (.flags flags, rest)

/-- What stands behind an opening parenthesis.  Looking ahead and looking behind are refused. -/
def opening? (s : Text) : Option (Opening × Text) :=
  match s with
  | '?' :: 'P' :: '<' :: rest => name? rest
  | '?' :: '<' :: c :: rest => if c = '=' || c = '!' then none else name? (c :: rest)
  | '?' :: rest => flags? rest
  | _ => some (.group [], s)

/-! ## Expressions -/

/-- The reader of an expression: its mode, the names of groups so far, the innermost open group, and
those around it with the modes that they go on in. -/
structure Reader where
  mode : Mode
  names : List Text
  inner : OpenGroup
  outer : List (OpenGroup × Mode)
  deriving DecidableEq, Repr

namespace Reader

/-- Nothing read. -/
def start : Reader := ⟨.start, [], .empty, []⟩

/-- Adds a part to the innermost group. -/
def add (r : Reader) (levels : Nat) : Reader := { r with inner := r.inner.add levels }

/-- Opens a group that is read in a mode. -/
def enter (r : Reader) (mode : Mode) : Reader :=
  { r with mode := mode, inner := .empty, outer := (r.inner, r.mode) :: r.outer }

/-- Goes on behind what opens a group.  A name is given once. -/
def open? (r : Reader) : Opening → Option Reader
  | .flags flags => some { r with mode := r.mode.withFlags flags, inner := r.inner.addFlags }
  | .group flags => some (r.enter (r.mode.withFlags flags))
  | .named name =>
      if r.names.contains name then none
      else some { r.enter r.mode with names := name :: r.names }

/-- Closes the innermost group. -/
def close? (r : Reader) : Option Reader :=
  match r.outer with
  | [] => none
  | (o, mode) :: outer =>
      some { r with mode := mode, inner := o.add (r.inner.total + 1), outer := outer }

/-- Repeats the last part; a question mark may follow the sign of a repetition. -/
def repeat? (r : Reader) (s : Text) : Option (Reader × Text) :=
  r.inner.repeat?.map fun inner =>
    ({ r with inner := inner }, if s.head? = some '?' then s.drop 1 else s)

/-- Reads what is next in an expression.  Counted repetitions need a pair of braces. -/
def step? (r : Reader) : Text → Option (Reader × Text)
  | [] => none
  | c :: rest =>
      if c = '(' then
        (opening? (r.mode.skip rest)).bind fun (opening, after) =>
          (r.open? opening).map (·, after)
      else if c = ')' then r.close?.map (·, rest)
      else if c = '|' then some ({ r with inner := r.inner.choose }, rest)
      else if c = '[' then (set? r.mode rest).map fun (levels, after) => (r.add levels, after)
      else if c = '?' || c = '*' || c = '+' then r.repeat? rest
      else if c = '\x7b' then none
      else if c = '.' then if r.mode.unicode then some (r.add 0, rest) else none
      else if c = '\\' then (escape? r.mode rest).map fun (_, after) => (r.add 0, after)
      else some (r.add 0, rest)

/-- Reads to the end of an expression. -/
def run? (r : Reader) (s : Text) : Option Reader :=
  match r.mode.skip s with
  | [] => some r
  | body =>
      match r.step? body with
      | none => none
      | some (r, rest) => if rest.length < s.length then r.run? rest else none
termination_by s.length

end Reader

/-- How many levels an expression may have. -/
def levelLimit : Nat := 250

/-- Whether a text is a regular expression. -/
def isPattern (s : Text) : Bool :=
  match Reader.start.run? s with
  | none => false
  | some r => r.outer.isEmpty && r.inner.total ≤ levelLimit

end Regex
end RecordFilter
