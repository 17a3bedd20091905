import RecordFilter.Text.Blank
import RecordFilter.Failure

/-!
# Schema — the fields that a filter may name

A schema lists the allowed field names and says which one holds numbers.  `Schema.problem?` says
what is wrong with a schema; one without a problem has at least one field, only names without
blanks, and its numeric field among them.
-/

namespace RecordFilter

/-- The allowed field names and the numeric one. -/
structure Schema where
  allowed : List Text
  numeric : Text
  deriving DecidableEq, Repr

namespace Schema

/-- Four fields, of which `result` is numeric. -/
def default : Schema :=
  ⟨["thing".toList, "quantity".toList, "result".toList, "time".toList], "result".toList⟩

/-- Whether the schema lists a field. -/
def isAllowed (schema : Schema) (field : Text) : Bool := schema.allowed.contains field

/-- Whether a field is the numeric one. -/
def isNumeric (schema : Schema) (field : Text) : Bool := schema.numeric == field

/-- A name that is empty or has a blank in it. -/
def isBadName (name : Text) : Bool := name.isEmpty || name.any Text.isBlank

/-- The first problem of a schema. -/
def problem? (schema : Schema) : Option SchemaError :=
  if schema.allowed.isEmpty then some .noFields
  else
    match schema.allowed.find? isBadName with
    | some name => some (.invalidName name)
    | none =>
        if schema.isAllowed schema.numeric then none
        else some (.numericNotAllowed schema.numeric schema.allowed)

/-- The schema, if it has no problem. -/
def check (schema : Schema) : Except SchemaError Schema :=
  match schema.problem? with
  | none => .ok schema
  | some e => .error e

end Schema
end RecordFilter
