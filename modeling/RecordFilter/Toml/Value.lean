import RecordFilter.Text.Basic

/-!
# Value — the data of a TOML document

A document is a table of values.  While it is read, each table remembers how it came to be, because
a header may not open a table twice and dotted keys may only extend tables that dotted keys made.
`Document.add?` puts one statement into a document and refuses what breaks these rules.
-/

namespace RecordFilter
namespace Toml

/-- A value.  Dates and times are kept without their parts, since nothing reads them. -/
inductive Value where
  | string (s : Text)
  | integer (n : Int)
  | real (x : Float)
  | boolean (b : Bool)
  | moment
  | array (items : List Value)
  | table (entries : List (Text × Value))
  deriving Repr

/-- A key: the tables that lead to it, and its name. -/
structure Key where
  path : List Text
  name : Text
  deriving DecidableEq, Repr

/-! ## Tables under construction -/

/-- How a table came to be: opened by a header of its own, implied by the header of a table below
it, or made by a dotted key. -/
inductive Origin where
  | header
  | implied
  | dotted
  deriving DecidableEq, Repr

/-- What a key holds while a document is read.  The tables of an array of tables are listed from
the last one back. -/
inductive Item where
  | value (v : Value)
  | table (origin : Origin) (entries : List (Text × Item))
  | tables (latestFirst : List (List (Text × Item)))
  deriving Repr

/-- The entries of a table under construction, in the order in which they came. -/
abbrev Entries := List (Text × Item)

namespace Entries

/-- Replaces what a key holds, or adds the key at the end; fails where `change` does. -/
def alter? (key : Text) (change : Option Item → Option Item) : Entries → Option Entries
  | [] => (change none).map fun item => [(key, item)]
  | (k, item) :: rest =>
      if k = key then (change (some item)).map fun item => (k, item) :: rest
      else (alter? key change rest).map ((k, item) :: ·)

/-- Changes the table that a header's path leads to.  Tables on the way that are not there yet are
implied, and of an array of tables the last one counts. -/
def within? (change : Entries → Option Entries) : List Text → Entries → Option Entries
  | [], entries => change entries
  | k :: path, entries =>
      entries.alter? k fun
        | none => (within? change path []).map (.table .implied)
        | some (.table origin below) => (within? change path below).map (.table origin)
        | some (.tables (last :: earlier)) =>
            (within? change path last).map fun last => .tables (last :: earlier)
        | some _ => none

/-- Opens the table of a header. -/
def openTable? (name : Text) (entries : Entries) : Option Entries :=
  entries.alter? name fun
    | none => some (.table .header [])
    | some (.table .implied below) => some (.table .header below)
    | some _ => none

/-- Adds an empty table to an array of tables. -/
def appendTable? (name : Text) (entries : Entries) : Option Entries :=
  entries.alter? name fun
    | none => some (.tables [[]])
    | some (.tables earlier) => some (.tables ([] :: earlier))
    | some _ => none

/-- Sets a value under a dotted key.  Tables on the way that are not there yet are made; one that a
header opened may not be extended, nor may the value be put into one that a header implied. -/
def set? (name : Text) (v : Value) : List Text → Entries → Option Entries
  | [], entries =>
      entries.alter? name fun
        | none => some (.value v)
        | some _ => none
  | k :: path, entries =>
      entries.alter? k fun
        | none => (set? name v path []).map (.table .dotted)
        | some (.table .dotted below) => (set? name v path below).map (.table .dotted)
        | some (.table .implied below) =>
            if path.isEmpty then none else (set? name v path below).map (.table .implied)
        | some (.tables (last :: earlier)) =>
            if path.isEmpty then none
            else (set? name v path last).map fun last => .tables (last :: earlier)
        | some _ => none

end Entries

mutual

/-- The finished value of an item. -/
def Item.toValue : Item → Value
  | .value v => v
  | .table _ entries => .table (entriesToValues entries)
  | .tables latestFirst => .array (tablesToValues latestFirst).reverse
termination_by structural item => item

/-- The finished values of a table's entries. -/
def entriesToValues : List (Text × Item) → List (Text × Value)
  | [] => []
  | entry :: rest => entryToValue entry :: entriesToValues rest
termination_by structural entries => entries

/-- The finished value of one entry. -/
def entryToValue : Text × Item → Text × Value
  | (key, item) => (key, item.toValue)
termination_by structural entry => entry

/-- The finished tables of an array of tables. -/
def tablesToValues : List (List (Text × Item)) → List Value
  | [] => []
  | entries :: rest => .table (entriesToValues entries) :: tablesToValues rest
termination_by structural tables => tables

end

/-! ## Documents -/

/-- One statement of a document. -/
inductive Statement where
  | table (key : Key)
  | tableInArray (key : Key)
  | entry (key : Key) (v : Value)
  deriving Repr

/-- A document under construction: where entries go, and all entries so far. -/
structure Document where
  current : List Text
  entries : Entries
  deriving Repr

namespace Document

/-- The document without statements. -/
def empty : Document := ⟨[], []⟩

/-- Adds a statement, if the rules admit it. -/
def add? (d : Document) : Statement → Option Document
  | .table key =>
      (Entries.within? (Entries.openTable? key.name) key.path d.entries).map
        (⟨key.path ++ [key.name], ·⟩)
  | .tableInArray key =>
      (Entries.within? (Entries.appendTable? key.name) key.path d.entries).map
        (⟨key.path ++ [key.name], ·⟩)
  | .entry key v =>
      (Entries.within? (Entries.set? key.name v key.path) d.current d.entries).map
        (⟨d.current, ·⟩)

/-- The table that a list of statements makes. -/
def ofStatements? (statements : List Statement) : Option Value :=
  (statements.foldlM add? empty).map fun d => .table (entriesToValues d.entries)

end Document

end Toml
end RecordFilter
