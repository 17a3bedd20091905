import RecordFilter.Command.Arguments
import RecordFilter.Command.LogFilter
import RecordFilter.FileTree.Inputs
import RecordFilter.Outline
import RecordFilter.Report
import RecordFilter.Settings.Overlay
import RecordFilter.Settings.Reader
import RecordFilter.Settings.Writer

/-!
# Program — the commands

The program is a function of its surroundings: the disk, the environment, the standard input and the
arguments.  Its response is an exit code, what it writes to the two outputs, and the disk after it.
Arguments are read first, then the settings, then the filter of the log is checked; only then does
the command run.
-/

namespace RecordFilter
namespace Command

open FileTree (Disk)

/-! ## Complaints -/

/-- Why a command does not succeed. -/
inductive Complaint where
  | settings (e : SettingsError)
  | unreadableFile (path : Text)
  | unwritableFile (path : Text)
  | logFilter (level : Text)
  | cutLogFilter (level : Text)
  | filter (text : Text) (e : SyntaxError)
  | record (f : Failure)
  | noFilter
  | badPattern (pattern : Text)
  | noInputs (input : Text)
  deriving DecidableEq, Repr

/-- What a complaint says, and its cause where it has one of its own. -/
def Complaint.wording : Complaint → Text × Option Text
  | .settings e => (e.message, none)
  | .unreadableFile path => ("IO error: cannot read ".toList ++ path, none)
  | .unwritableFile path => ("IO error: cannot write ".toList ++ path, none)
  | .logFilter level =>
      ("invalid log level filter: ".toList ++ level, some "invalid filter directive".toList)
  | .cutLogFilter level =>
      ("log level filter with a part inside a character: ".toList ++ level, none)
  | .filter text e => ("invalid filter: ".toList ++ text, some e.message)
  | .record f => (f.message, none)
  | .noFilter =>
      ("no filter given: pass --filter or set FILTER_LOGIC / [stream].filter_logic".toList, none)
  | .badPattern pattern => ("bad input pattern '".toList ++ pattern ++ "'".toList, none)
  | .noInputs input => ("No record files found: ".toList ++ input, none)

/-- A complaint as it is shown.  Further lines of the cause are indented like its first. -/
def Complaint.text (c : Complaint) : Text :=
  let (message, cause) := c.wording
  let causeText := match cause with
    | none => []
    | some cause =>
        "\n\nCaused by:\n    ".toList
          ++ Text.joinWith "\n    ".toList (Text.split '\n' cause)
  "Error: ".toList ++ message ++ causeText ++ ['\n']

/-- The exit code of a complaint. -/
def Complaint.exitCode : Complaint → Nat
  | .cutLogFilter _ => 101
  | _ => 1

/-! ## Surroundings and response -/

/-- What a command finds. -/
structure Surroundings where
  disk : Disk
  environment : Environment
  input : Text

/-- What a command leaves. -/
structure Response where
  exitCode : Nat
  output : Text
  errors : Text
  disk : Disk

/-- What a command shows that succeeds: its two outputs and the disk after it. -/
structure Shown where
  output : Text
  errors : Text
  disk : Disk

/-! ## Settings -/

/-- Where settings are kept unless the environment says otherwise. -/
def defaultSettingsPath (env : Environment) : Text :=
  let directory := match env.get? "XDG_CONFIG_HOME".toList with
    | some path =>
        if Disk.isAbsolute path then path
        else FileTree.Path.join ((env.get? "HOME".toList).getD []) ".config".toList
    | none => FileTree.Path.join ((env.get? "HOME".toList).getD []) ".config".toList
  FileTree.Path.join (FileTree.Path.join directory "streamhub".toList) "config.toml".toList

/-- Where settings are read from. -/
def settingsPath (env : Environment) : Text :=
  (env.get? "STREAMHUB_CONFIG".toList).getD (defaultSettingsPath env)

/-- The settings in a file, or the default where there is no file. -/
def readSettings (disk : Disk) (path : Text) : Except Complaint Settings :=
  match disk.trail? path with
  | none => .ok Settings.default
  | some trail =>
      match trail.content? with
      | none => .error (.unreadableFile path)
      | some content => (Settings.read content).mapError .settings

/-- The settings of the program, with the environment over those in the file. -/
def loadSettings (s : Surroundings) : Except Complaint Settings :=
  (readSettings s.disk (settingsPath s.environment)).map (·.overlay s.environment.get?)

/-- Checks the filter of the log.  One in the environment counts before that of the settings, and
there directives that are malformed are passed over. -/
def checkLogFilter (env : Environment) (settings : Settings) : Except Complaint Unit :=
  match env.get? "RUST_LOG".toList with
  | some level => if LogFilter.isJudged level then .ok () else .error (.cutLogFilter level)
  | none =>
      match LogFilter.check settings.logLevel with
      | .ok () => .ok ()
      | .error .malformed => .error (.logFilter settings.logLevel)
      | .error .cut => .error (.cutLogFilter settings.logLevel)

/-! ## Commands -/

/-- Reads a filter, as a statement or as a bare condition. -/
def readFilter (text : Text) (condition : Bool) (schema : Schema) : Except Complaint Query :=
  (if condition then Query.ofCondition schema text else Query.read schema text).mapError
    (.filter text)

/-- A query with the enrichment of the settings, or with none. -/
def sieveOf (query : Query) (noAugment : Bool) (settings : Settings) : Sieve :=
  ⟨query, if noAugment then Enrichment.disabled else settings.enrichment⟩

/-- A label, filled up with blanks to `width` characters, a further blank and a value. -/
def labelled (width : Nat) (label : String) (value : Text) : Text :=
  Text.padRight width label.toList ++ ' ' :: value ++ ['\n']

/-- What `check` shows: the condition, its tree and its complexity, and an outline. -/
def checkText (q : Query) : Text :=
  labelled 12 "condition:" q.condition ++ labelled 12 "tree:" q.root.text
    ++ labelled 12 "complexity:" (Number.natText q.complexity) ++ '\n'
    :: (Node.ofCondition q.root).outline 0

/-- Shows the tree of a filter. -/
def showTree (filter : Text) (condition : Bool) (settings : Settings) : Except Complaint Text :=
  (readFilter filter condition settings.fields).map checkText

/-- Shows whether a filter accepts one record. -/
def decideOne (filter record : Text) (condition noAugment : Bool) (settings : Settings) :
    Except Complaint Text := do
  let query ← readFilter filter condition settings.fields
  let accepted ← ((sieveOf query noAugment settings).evaluateText record).mapError .record
  .ok (Json.Value.booleanText accepted ++ ['\n'])

/-- The texts that a run reads: the files that an input names, or the standard input. -/
def runContents (s : Surroundings) : Option Text → Except Complaint (List Text)
  | none => .ok [s.input]
  | some input =>
      match s.disk.inputs? input with
      | none => .error (.badPattern input)
      | some [] => .error (.noInputs input)
      | some paths =>
          paths.mapM fun path =>
            match s.disk.read? path with
            | some content => .ok content
            | none => .error (.unreadableFile path)

/-- The tally as it is shown. -/
def tallyText (t : Tally) : Text :=
  "\x7b\n  \"accepted\": ".toList ++ Number.natText t.accepted
    ++ ",\n  \"rejected\": ".toList ++ Number.natText t.rejected
    ++ ",\n  \"failed\": ".toList ++ Number.natText t.failed ++ "\n\x7d\n".toList

/-- Filters a stream: accepted records to the output and, if asked for, the tally to the errors. -/
def filterStream (s : Surroundings) (filter input : Option Text) (stats noAugment : Bool)
    (settings : Settings) : Except Complaint Shown := do
  match filter.or settings.stream.filterLogic with
  | none => .error .noFilter
  | some text =>
      let query ← readFilter text false settings.fields
      let contents ← runContents s input
      let report := (sieveOf query noAugment settings).report contents
      .ok ⟨report.text, if stats then tallyText report.tally else [], s.disk⟩

/-- What `config` shows: the settings and, as comments, what follows from them. -/
def settingsText (settings : Settings) : Text :=
  let stream := settings.stream
  let comment (label : String) (value : Text) : Text := ['#', ' '] ++ labelled 16 label value
  let orHyphen (value : Option Text) : Text := value.getD ['-']
  let missing := stream.missing
  settings.text ++ '\n' :: comment "input topic:" (orHyphen stream.inputTopic)
    ++ comment "target topic:" (orHyphen stream.targetTopic)
    ++ comment "application id:" (orHyphen stream.applicationId)
    ++ if missing.isEmpty then [] else comment "missing:" (Text.joinWith [',', ' '] missing)

/-- Shows the settings, or writes default ones. -/
def showSettings (s : Surroundings) (init : Bool) (settings : Settings) : Except Complaint Shown :=
  if init then
    let path := defaultSettingsPath s.environment
    match s.disk.write? path Settings.default.text with
    | some disk =>
        .ok ⟨"wrote default configuration to ".toList ++ path ++ ['\n'], [], disk⟩
    | none => .error (.unwritableFile path)
  else .ok ⟨settingsText settings, [], s.disk⟩

/-- Runs a command under settings. -/
def runAction (s : Surroundings) (settings : Settings) : Action → Except Complaint Shown
  | .check filter condition =>
      (showTree filter condition settings).map (⟨·, [], s.disk⟩)
  | .eval filter record condition noAugment =>
      (decideOne filter record condition noAugment settings).map (⟨·, [], s.disk⟩)
  | .run filter input stats noAugment => filterStream s filter input stats noAugment settings
  | .config init => showSettings s init settings

/-- Loads the settings, checks the filter of the log and runs a command. -/
def perform (s : Surroundings) (a : Action) : Except Complaint Shown := do
  let settings ← loadSettings s
  checkLogFilter s.environment settings
  runAction s settings a

/-! ## The program -/

/-- The name and version of the program. -/
def versionText : Text := "streamhub 0.1.0\n".toList

/-- How the program is used. -/
def helpText : Text :=
  "SQL-like filter for JSON record streams\n\nUsage: streamhub <COMMAND>\n\nCommands:\n".toList
    ++ "  check   Parse a filter and print its tree\n".toList
    ++ "  eval    Evaluate a filter against a single JSON record\n".toList
    ++ "  run     Filter NDJSON records from files or stdin, writing accepted records to stdout\n".toList
    ++ "  config  Show the effective configuration\n".toList
    ++ "  help    Print this message or the help of the given subcommand(s)\n".toList
    ++ "\nOptions:\n  -h, --help     Print help\n  -V, --version  Print version\n".toList

/-- The program's response to its arguments. -/
def respond (s : Surroundings) (arguments : List Text) : Response :=
  match read? arguments with
  | none => ⟨2, [], helpText, s.disk⟩
  | some .version => ⟨0, versionText, [], s.disk⟩
  | some .help => ⟨0, helpText, [], s.disk⟩
  | some (.command action) =>
      match perform s action with
      | .ok shown => ⟨0, shown.output, shown.errors, shown.disk⟩
      | .error complaint => ⟨complaint.exitCode, [], complaint.text, s.disk⟩

end Command
end RecordFilter
