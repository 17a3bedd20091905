import RecordFilter.Json.Printer
import RecordFilter.Json.Reader
import RecordFilter.Text.Blank

/-!
# Record — what the filter decides about

A record is a JSON object.  Its fields have two views that a filter reads: `textOf`, for strings,
numbers and booleans, and `numberOf`, for numbers and strings that hold one.
-/

namespace RecordFilter

/-- The fields of a record, in increasing order of their names. -/
structure Record where
  fields : Json.Members
  deriving Repr

namespace Record

/-- The record without fields. -/
def empty : Record := ⟨[]⟩

/-- Reads a record from JSON text. -/
def read (s : Text) : Except RecordError Record :=
  match Json.read? s with
  | none => .error .malformed
  | some (.object fields) => .ok ⟨fields⟩
  | some v => .error (.notAnObject v.kind)

/-- Compact JSON text. -/
def text (r : Record) : Text := (Json.Value.object r.fields).text

/-- The value of a field. -/
def get? (r : Record) (field : Text) : Option Json.Value := r.fields.get? field

/-- Whether the record has a field. -/
def contains (r : Record) (field : Text) : Bool := (r.get? field).isSome

/-- Sets a field. -/
def insert (r : Record) (field : Text) (v : Json.Value) : Record := ⟨r.fields.insert field v⟩

/-- The number of fields. -/
def size (r : Record) : Nat := r.fields.length

/-- The text of a scalar field. -/
def textOf (r : Record) (field : Text) : Except FieldError Text :=
  match r.get? field with
  | none => .error ⟨field, .missing⟩
  | some v =>
      match v.scalarText? with
      | some t => .ok t
      | none => .error ⟨field, .notAScalar v.kind⟩

/-- The number in a field, which is a number or a string that reads as one. -/
def numberOf (r : Record) (field : Text) : Except FieldError Float :=
  match r.get? field with
  | none => .error ⟨field, .missing⟩
  | some (.number n) => .ok n.toFloat
  | some (.string s) =>
      match Number.read? (Text.trim s) with
      | some x => .ok x
      | none => .error ⟨field, .unreadableNumber s⟩
  | some v => .error ⟨field, .notNumeric v.kind⟩

end Record
end RecordFilter
