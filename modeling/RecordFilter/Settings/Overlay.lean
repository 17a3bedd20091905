import RecordFilter.Settings.Basic

/-!
# Overlay — the environment over the settings

Environment variables replace options of the stream.  Quotes around a name or a filter are not part
of it, so double quotes are dropped there.  Any text but the word `false` means yes.
-/

namespace RecordFilter

/-- The variables that are set, with their values. -/
abbrev Environment := List (Text × Text)

/-- The value of a variable. -/
def Environment.get? (key : Text) : Environment → Option Text
  | [] => none
  | (k, v) :: rest => if k = key then some v else get? key rest

namespace Settings

/-- Without double quotes. -/
def unquoted (s : Text) : Text := s.filter (· != '"')

/-- Whether a text says yes. -/
def saysYes (s : Text) : Bool := !(Text.trim s).equalsIgnoringCase "false".toList

/-- The stream's settings with the variables that are set. -/
def overlayStream (lookup? : Text → Option Text) (s : StreamSettings) : StreamSettings where
  name := ((lookup? "STREAM_NAME".toList).map unquoted).or s.name
  sourceSystem := (lookup? "SOURCE_SYSTEM".toList).or s.sourceSystem
  targetSystem := (lookup? "TARGET_SYSTEM".toList).or s.targetSystem
  bootstrapServers := (lookup? "KAFKA_BOOTSTRAP_SERVERS".toList).or s.bootstrapServers
  serverUri := (lookup? "SERVER_URI".toList).or s.serverUri
  filterLogic := ((lookup? "FILTER_LOGIC".toList).map unquoted).or s.filterLogic
  verbose := ((lookup? "VERBOSE".toList).map saysYes).getD s.verbose

/-- The settings with the variables that are set. -/
def overlay (lookup? : Text → Option Text) (s : Settings) : Settings :=
  { s with stream := overlayStream lookup? s.stream }

end Settings
end RecordFilter
