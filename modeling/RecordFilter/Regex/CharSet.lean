import RecordFilter.Regex.Escape

/-!
# CharSet — sets of characters between brackets

A set lists characters, ranges, named classes and further sets; `&&`, `--` and `~~` between lists
make an intersection or a difference.  A caret at the front takes the complement, which only the
Unicode mode knows.  At the front a hyphen stands for itself, and so does a closing bracket.

The reader of sets keeps the lists that are open and measures how deep the parts nest, in levels.
-/

namespace RecordFilter
namespace Regex

open Text

/-! ## Open sets -/

/-- A set that is still open: the levels of the lists before its last operator, how many items the
list behind it has and how many levels the deepest of them, and whether the set may still begin with
a hyphen or a closing bracket. -/
structure OpenSet where
  operands : Option Nat
  size : Nat
  levels : Nat
  fresh : Bool
  deriving DecidableEq, Repr

namespace OpenSet

/-- A set without items. -/
def empty : OpenSet := ⟨none, 0, 0, true⟩

/-- Adds an item. -/
def add (o : OpenSet) (levels : Nat) : OpenSet :=
  { o with size := o.size + 1, levels := max o.levels levels, fresh := false }

/-- Adds a hyphen at the front. -/
def addHyphen (o : OpenSet) : OpenSet := { o with size := o.size + 1 }

/-- The levels of the list behind the last operator.  A list of several items is a level. -/
def listLevels (o : OpenSet) : Nat := if o.size ≤ 1 then o.levels else o.levels + 1

/-- The levels of everything in the set. -/
def total (o : OpenSet) : Nat :=
  match o.operands with
  | none => o.listLevels
  | some n => max n o.listLevels + 1

/-- The set behind one more operator. -/
def operate (o : OpenSet) : OpenSet := ⟨some o.total, 0, 0, false⟩

end OpenSet

/-! ## Items -/

/-- A character or an escape in a set. -/
def setAtom? (m : Mode) : Text → Option (Atom × Text)
  | [] => none
  | c :: rest => if c = '\\' then escape? m rest else some (.literal c, rest)

/-- Whether a mode has a character in its sets. -/
def Mode.hasChar (m : Mode) (c : Char) : Bool := m.unicode || c.toNat < 0x80

/-- Whether an atom may be an item of a set. -/
def Mode.hasItem (m : Mode) : Atom → Bool
  | .literal c => m.hasChar c
  | .charClass => true
  | .assertion => false

/-- Whether two atoms are the ends of a range. -/
def Mode.hasRange (m : Mode) : Atom → Atom → Bool
  | .literal low, .literal high => m.hasChar low && m.hasChar high && low ≤ high
  | _, _ => false

/-- The character behind a hyphen, or behind blanks and the mark of a comment there. -/
def behindHyphen? (m : Mode) (s : Text) : Option Char :=
  if m.extended then
    match s.dropWhile isBlank with
    | '#' :: rest => (rest.dropWhile isBlank).head?
    | rest => rest.head?
  else s.head?

/-- An item or a range; gives what follows it.  A hyphen makes no range before another hyphen or
before a closing bracket. -/
def setItem? (m : Mode) (s : Text) : Option Text :=
  (setAtom? m s).bind fun (low, rest) =>
    match m.skip rest with
    | [] => none
    | c :: more =>
        let next := behindHyphen? m more
        if c != '-' || next == some ']' || next == some '-' then
          if m.hasItem low then some (c :: more) else none
        else
          (setAtom? m (m.skip more)).bind fun (high, after) =>
            if m.hasRange low high then some after else none

/-! ## Named classes -/

/-- The names of the classes of ASCII. -/
def classNames : List Text :=
  ["alnum", "alpha", "ascii", "blank", "cntrl", "digit", "graph", "lower", "print", "punct",
    "space", "upper", "word", "xdigit"].map String.toList

/-- A class by its name between `[:` and `:]`, behind the bracket: whether it is a complement, and
what follows. -/
def namedClass? (s : Text) : Option (Bool × Text) :=
  match s with
  | ':' :: rest =>
      let negated := rest.head? == some '^'
      let body := if negated then rest.drop 1 else rest
      match body.dropWhile (· != ':') with
      | ':' :: ']' :: after =>
          if classNames.contains (body.takeWhile (· != ':')) then some (negated, after) else none
      | _ => none
  | _ => none

/-! ## Sets -/

/-- What follows the opening bracket of a set and the caret behind it. -/
def afterOpening? (m : Mode) (s : Text) : Option Text :=
  match m.skip s with
  | '^' :: rest => if m.unicode then some rest else none
  | rest => some rest

/-- The reader of a set: the innermost open set, and those around it from the inside out. -/
structure SetReader where
  inner : OpenSet
  outer : List OpenSet
  deriving DecidableEq, Repr

/-- Where the reader of a set comes to: inside of it, or to its end with the levels it has. -/
inductive SetProgress where
  | inside (r : SetReader)
  | closed (levels : Nat)
  deriving DecidableEq, Repr

/-- Goes on behind something that has been read into the innermost set. -/
def SetReader.within (r : SetReader) (inner : OpenSet) : SetProgress := .inside ⟨inner, r.outer⟩

/-- Closes the innermost set. -/
def SetReader.close (r : SetReader) : SetProgress :=
  let levels := r.inner.total + 1
  match r.outer with
  | [] => .closed levels
  | o :: outer => .inside ⟨o.add levels, outer⟩

/-- What an opening bracket in a set begins: a named class or a further set. -/
def openInside? (m : Mode) (r : SetReader) (s : Text) : Option (SetProgress × Text) :=
  match namedClass? s with
  | some (negated, after) =>
      if negated && !m.unicode then none else some (r.within (r.inner.add 0), after)
  | none => (afterOpening? m s).map (.inside ⟨.empty, r.inner :: r.outer⟩, ·)

/-- Whether a text begins with an operator between lists. -/
def beginsOperator : Text → Bool
  | c :: d :: _ => c == d && (c == '&' || c == '-' || c == '~')
  | _ => false

/-- Reads what is next in a set. -/
def SetReader.step? (m : Mode) (r : SetReader) : Text → Option (SetProgress × Text)
  | [] => none
  | c :: rest =>
      if r.inner.fresh && c = '-' then some (r.within r.inner.addHyphen, rest)
      else if r.inner.fresh && r.inner.size = 0 && c = ']' then
        some (r.within (r.inner.add 0), rest)
      else if c = '[' then openInside? m r rest
      else if c = ']' then some (r.close, rest)
      else if beginsOperator (c :: rest) then some (r.within r.inner.operate, rest.drop 1)
      else (setItem? m (c :: rest)).map (r.within (r.inner.add 0), ·)

/-- Reads to the end of a set: its levels, and what follows its closing bracket. -/
def SetReader.run? (m : Mode) (r : SetReader) (s : Text) : Option (Nat × Text) :=
  match r.step? m (m.skip s) with
  | none => none
  | some (.closed levels, rest) => some (levels, rest)
  | some (.inside r, rest) => if rest.length < s.length then r.run? m rest else none
termination_by s.length

/-- A set behind its opening bracket: its levels, and what follows it. -/
def set? (m : Mode) (s : Text) : Option (Nat × Text) :=
  (afterOpening? m s).bind (SetReader.run? m ⟨.empty, []⟩)

end Regex
end RecordFilter
