import RecordFilter.Settings.Basic
import RecordFilter.Toml.Writer

/-!
# Writer — settings as TOML

Four tables with an empty line between each two.  Unset options are left out.
-/

namespace RecordFilter

open Toml

/-- A line for an option that is set. -/
def optionLine (key : Text) : Option Text → Text
  | none => []
  | some s => entryLine key (stringText s)

/-- The lines of the stream's table. -/
def StreamSettings.lines (s : StreamSettings) : Text :=
  optionLine "name".toList s.name
    ++ optionLine "source_system".toList s.sourceSystem
    ++ optionLine "target_system".toList s.targetSystem
    ++ optionLine "bootstrap_servers".toList s.bootstrapServers
    ++ optionLine "server_uri".toList s.serverUri
    ++ optionLine "filter_logic".toList s.filterLogic
    ++ entryLine "verbose".toList (booleanText s.verbose)

/-- The lines of the schema's table. -/
def Schema.lines (s : Schema) : Text :=
  entryLine "allowed".toList (stringsText s.allowed)
    ++ entryLine "numeric".toList (stringText s.numeric)

/-- The lines of the enrichment's table. -/
def Enrichment.lines (e : Enrichment) : Text :=
  entryLine "enabled".toList (booleanText e.enabled)
    ++ entryLine "datastream_key".toList (stringText e.datastreamKey)
    ++ entryLine "datastream_attributes".toList (stringsText e.datastreamAttributes)
    ++ entryLine "meta_key".toList (stringText e.metaKey)
    ++ entryLine "meta_attributes".toList (stringsText e.metaAttributes)
    ++ entryLine "time_source".toList (stringText e.timeSource)
    ++ entryLine "time_target".toList (stringText e.timeTarget)

namespace Settings

/-- All settings as a document. -/
def text (s : Settings) : Text :=
  headerLine "stream".toList ++ s.stream.lines ++ '\n'
    :: headerLine "fields".toList ++ s.fields.lines ++ '\n'
    :: headerLine "augment".toList ++ s.enrichment.lines ++ '\n'
    :: headerLine "logging".toList ++ entryLine "level".toList (stringText s.logLevel)

end Settings
end RecordFilter
