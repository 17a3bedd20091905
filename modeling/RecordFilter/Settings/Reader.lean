import RecordFilter.Settings.Basic
import RecordFilter.Toml.Reader

/-!
# Reader — settings from TOML

Each group of settings is a table; a group may also be an array, whose items then come in the order
of the options.  What is not said has its default, and unknown names are ignored.  The schema of
the fields has to be without problems.
-/

namespace RecordFilter
namespace Settings

open Toml (Value)

/-! ## Values -/

/-- A string. -/
def asText? : Value → Option Text
  | .string s => some s
  | _ => none

/-- A truth value. -/
def asFlag? : Value → Option Bool
  | .boolean b => some b
  | _ => none

/-- A list of strings. -/
def asTexts? : Value → Option (List Text)
  | .array items => items.mapM asText?
  | _ => none

/-! ## Groups of options -/

/-- What a group says about an option, given its name and its place. -/
abbrev Group := Text → Nat → Option Value

/-- The value of a key in a list of entries. -/
def valueOf? (key : Text) : List (Text × Value) → Option Value
  | [] => none
  | (k, v) :: rest => if k = key then some v else valueOf? key rest

/-- The group that a value makes.  A date says nothing. -/
def group? : Value → Option Group
  | .table entries => some fun key _ => valueOf? key entries
  | .array items => some fun _ place => items[place]?
  | .moment => some fun _ _ => none
  | _ => none

/-- An option, or its default where the group says nothing. -/
def Group.get? {α : Type} (g : Group) (convert : Value → Option α) (key : Text) (place : Nat)
    (other : α) : Option α :=
  match g key place with
  | none => some other
  | some v => convert v

/-- The settings of the stream. -/
def stream? (v : Value) : Option StreamSettings := do
  let g ← group? v
  let option := fun v : Value => (asText? v).map some
  some {
    name := ← g.get? option "name".toList 0 none
    sourceSystem := ← g.get? option "source_system".toList 1 none
    targetSystem := ← g.get? option "target_system".toList 2 none
    bootstrapServers := ← g.get? option "bootstrap_servers".toList 3 none
    serverUri := ← g.get? option "server_uri".toList 4 none
    filterLogic := ← g.get? option "filter_logic".toList 5 none
    verbose := ← g.get? asFlag? "verbose".toList 6 true }

/-- The schema of the fields. -/
def fields? (v : Value) : Option Schema := do
  let g ← group? v
  some {
    allowed := ← g.get? asTexts? "allowed".toList 0 Schema.default.allowed
    numeric := ← g.get? asText? "numeric".toList 1 Schema.default.numeric }

/-- The enrichment of records. -/
def enrichment? (v : Value) : Option Enrichment := do
  let g ← group? v
  let d := Enrichment.default
  some {
    enabled := ← g.get? asFlag? "enabled".toList 0 d.enabled
    datastreamKey := ← g.get? asText? "datastream_key".toList 1 d.datastreamKey
    datastreamAttributes :=
      ← g.get? asTexts? "datastream_attributes".toList 2 d.datastreamAttributes
    metaKey := ← g.get? asText? "meta_key".toList 3 d.metaKey
    metaAttributes := ← g.get? asTexts? "meta_attributes".toList 4 d.metaAttributes
    timeSource := ← g.get? asText? "time_source".toList 5 d.timeSource
    timeTarget := ← g.get? asText? "time_target".toList 6 d.timeTarget }

/-- The level of the log. -/
def logLevel? (v : Value) : Option Text := do
  let g ← group? v
  g.get? asText? "level".toList 0 default.logLevel

/-- All settings in a table, before their schema is checked. -/
def ofValue? (v : Value) : Option Settings := do
  let g ← group? v
  some {
    stream := ← g.get? stream? "stream".toList 0 default.stream
    fields := ← g.get? fields? "fields".toList 1 default.fields
    enrichment := ← g.get? enrichment? "augment".toList 2 default.enrichment
    logLevel := ← g.get? logLevel? "logging".toList 3 default.logLevel }

/-- Reads settings. -/
def read (s : Text) : Except SettingsError Settings :=
  match (Toml.read? s).bind ofValue? with
  | none => .error .malformed
  | some settings =>
      match settings.fields.problem? with
      | some e => .error (.schema e)
      | none => .ok settings

end Settings
end RecordFilter
