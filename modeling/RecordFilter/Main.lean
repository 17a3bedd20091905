import RecordFilter.Command.Program

/-!
# Main — the program at a terminal

Gathers what the program may look at (environment, settings file, named inputs, standard input),
asks for its response, and carries the response out.
-/

namespace RecordFilter
namespace Terminal

open FileTree (Disk Entry)

/-- The variables that the program looks at. -/
def variableNames : List String :=
  ["STREAMHUB_CONFIG", "XDG_CONFIG_HOME", "HOME", "RUST_LOG", "STREAM_NAME", "SOURCE_SYSTEM",
    "TARGET_SYSTEM", "KAFKA_BOOTSTRAP_SERVERS", "SERVER_URI", "FILTER_LOGIC", "VERBOSE"]

/-- The environment as far as the program looks at it. -/
def environment : IO Environment := do
  let found ← variableNames.mapM fun name => do
    return (name.toList, ← IO.getEnv name)
  return found.filterMap fun (name, value) => value.map fun v => (name, v.toList)

/-- Whether a file's content can be asked for: that of a record file, or of a file named in
full. -/
def isWanted (name : String) (named : Bool) : Bool :=
  named || FileTree.Path.isRecordName name.toList

/-- The entry at a path with everything below it, if there is one. -/
partial def snapshot (path : String) (named : Bool) : IO (Option Entry) := do
  let place := (← IO.currentDir) / path
  if ← place.isDir then
    let entries ← place.readDir
    let listed ← entries.toList.filterMapM fun entry => do
      let below ← snapshot (path ++ "/" ++ entry.fileName) false
      return below.map fun e => (entry.fileName.toList, e)
    return some (.directory listed)
  else if ← place.pathExists then
    let name := (place.fileName).getD ""
    if isWanted name named then return some (.file (← IO.FS.readFile place).toList)
    else return some (.file [])
  else return none

/-- The part of a path before its first component with a wildcard. -/
def plainPart (path : Text) : Text :=
  let isPlain := fun piece : Text => !piece.any fun c => c == '*' || c == '?' || c == '['
  Text.joinWith ['/'] ((Text.split '/' path).takeWhile isPlain)

/-- Adds to a disk what is found at a path. -/
def gather (disk : Disk) (path : Text) (named : Bool) : IO Disk := do
  match ← snapshot (String.ofList path) named with
  | some entry => return (disk.put? path entry).getD disk
  | none => return disk

/-- The path at which a command looks for records, and whether it reads the standard input. -/
def inputOf (arguments : List Text) : Option Text × Bool :=
  match Command.read? arguments with
  | some (.command (.run _ input _ _)) => (input.map plainPart, input.isNone)
  | _ => (none, false)

/-- The lines of the standard input from here on, after those already read, newest first. -/
partial def readLines (stream : IO.FS.Stream) (newestFirst : List Text) : IO (List Text) := do
  let line ← stream.getLine
  if line.isEmpty then return newestFirst.reverse
  else readLines stream (line.toList :: newestFirst)

/-- The names that lead to the working directory. -/
def workingDirectory : IO (List Text) := do
  let path := (← IO.currentDir).toString
  return (Text.split '/' path.toList).filter fun name => !name.isEmpty

/-- Runs the program and gives its exit code. -/
def run (arguments : List Text) : IO UInt32 := do
  let env ← environment
  let (input, readsInput) := inputOf arguments
  let start : Disk := ⟨.directory [], ← workingDirectory⟩
  let withInput ← match input with
    | some path => gather start (if path.isEmpty then ['.'] else path) true
    | none => pure start
  let withSettings ← gather withInput (Command.settingsPath env) true
  let disk := (withSettings.ensureDirectory? ['.']).getD withSettings
  let text ← if readsInput then List.flatten <$> readLines (← IO.getStdin) [] else pure []
  let response := Command.respond ⟨disk, env, text⟩ arguments
  let target := Command.defaultSettingsPath env
  match response.disk.read? target with
  | some content =>
      if disk.read? target != some content then
        let place := (← IO.currentDir) / String.ofList target
        if let some directory := place.parent then IO.FS.createDirAll directory
        IO.FS.writeFile place (String.ofList content)
  | none => pure ()
  (← IO.getStdout).putStr (String.ofList response.output)
  (← IO.getStderr).putStr (String.ofList response.errors)
  return UInt32.ofNat response.exitCode

end Terminal
end RecordFilter

/-- The program's entry. -/
def main (arguments : List String) : IO UInt32 :=
  RecordFilter.Terminal.run (arguments.map String.toList)
