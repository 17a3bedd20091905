import RecordFilter.Record

/-!
# Enrichment — nested attributes as fields of the record

Records carry attributes in nested objects.  Enrichment copies configured attributes to the top
level, where a filter can name them.  All lookups are made in the record as it came; later copies
replace earlier ones: first the text attributes, then the numeric ones, then the time.
-/

namespace RecordFilter

/-- Which attributes are copied, and from where. -/
structure Enrichment where
  enabled : Bool
  datastreamKey : Text
  datastreamAttributes : List Text
  metaKey : Text
  metaAttributes : List Text
  timeSource : Text
  timeTarget : Text
  deriving DecidableEq, Repr

namespace Enrichment

/-- The attributes of common observation records. -/
def default : Enrichment where
  enabled := true
  datastreamKey := "datastream".toList
  datastreamAttributes := ["thing".toList, "client_app".toList, "quantity".toList]
  metaKey := "attributes".toList
  metaAttributes := ["longitude".toList, "latitude".toList]
  timeSource := "phenomenonTime".toList
  timeTarget := "time".toList

/-- Changes no record. -/
def disabled : Enrichment := { default with enabled := false }

/-- A finite float as a value. -/
def finite? (x : Float) : Option Json.Value :=
  if x.isFinite then some (.number (.real x)) else none

/-- A number, or a string that reads as one, as a finite float. -/
def asNumber? : Json.Value → Option Json.Value
  | .number n => finite? n.toFloat
  | .string s => (Number.read? (Text.trim s)).bind finite?
  | _ => none

/-- A scalar as a string. -/
def asText? (v : Json.Value) : Option Json.Value := v.scalarText?.map .string

/-- The members of an object in a field; a field that holds no object has none. -/
def membersOf (r : Record) (field : Text) : Json.Members :=
  match r.get? field with
  | some (.object ms) => ms
  | _ => []

/-- The members that a list names and `convert` accepts, in the order of the list. -/
def pick (convert : Json.Value → Option Json.Value) (names : List Text) (ms : Json.Members) :
    List (Text × Json.Value) :=
  names.filterMap fun name => ((ms.get? name).bind convert).map (name, ·)

/-- What is copied into a record, in order. -/
def copies (e : Enrichment) (r : Record) : List (Text × Json.Value) :=
  pick asText? e.datastreamAttributes (membersOf r e.datastreamKey)
    ++ pick asNumber? e.metaAttributes (membersOf r e.metaKey)
    ++ (((r.get? e.timeSource).bind asText?).map (e.timeTarget, ·)).toList

/-- The record with its copied attributes. -/
def apply (e : Enrichment) (r : Record) : Record :=
  if e.enabled then (e.copies r).foldl (fun r (name, v) => r.insert name v) r else r

end Enrichment
end RecordFilter
