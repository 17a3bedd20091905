import RecordFilter.Enrichment
import RecordFilter.Schema

/-!
# Settings — what a filter run is told about its surroundings

Settings name the stream, its systems and servers, say which fields a filter may use and how
records are enriched, and set the level of the log.
-/

namespace RecordFilter

/-- The stream that is filtered.  Options may be unset. -/
structure StreamSettings where
  name : Option Text
  sourceSystem : Option Text
  targetSystem : Option Text
  bootstrapServers : Option Text
  serverUri : Option Text
  filterLogic : Option Text
  verbose : Bool
  deriving DecidableEq, Repr

namespace StreamSettings

/-- Nothing set, verbose. -/
def default : StreamSettings := ⟨none, none, none, none, none, none, true⟩

/-- The topic on which the source system publishes. -/
def inputTopic (s : StreamSettings) : Option Text := s.sourceSystem.map (· ++ ".int".toList)

/-- The topic to which accepted records go. -/
def targetTopic (s : StreamSettings) : Option Text := s.targetSystem.map (· ++ ".ext".toList)

/-- The name under which the stream runs. -/
def applicationId (s : StreamSettings) : Option Text :=
  match s.sourceSystem, s.name with
  | some source, some name => some ("streamhub-".toList ++ source ++ '.' :: name)
  | _, _ => none

/-- The options by the environment variable that sets each. -/
def options (s : StreamSettings) : List (Text × Option Text) :=
  [("STREAM_NAME".toList, s.name), ("SOURCE_SYSTEM".toList, s.sourceSystem),
    ("TARGET_SYSTEM".toList, s.targetSystem),
    ("KAFKA_BOOTSTRAP_SERVERS".toList, s.bootstrapServers),
    ("SERVER_URI".toList, s.serverUri), ("FILTER_LOGIC".toList, s.filterLogic)]

/-- The variables of the options that are unset or empty. -/
def missing (s : StreamSettings) : List Text :=
  (s.options.filter fun (_, value) => value.all List.isEmpty).map (·.1)

end StreamSettings

/-- All settings. -/
structure Settings where
  stream : StreamSettings
  fields : Schema
  enrichment : Enrichment
  logLevel : Text
  deriving DecidableEq, Repr

namespace Settings

/-- The settings where nothing is said. -/
def default : Settings := ⟨.default, .default, .default, "info".toList⟩

end Settings
end RecordFilter
