import RecordFilter.Text.Pieces

/-!
# Arguments — what a command line asks for

The first argument names a command.  Options begin with two hyphens, stand in any order and at most
once each, and take their value from the next argument or from behind an equals sign.  A value that
begins with a hyphen is taken only behind an equals sign, and after `--` every argument counts as a
value without an option.
-/

namespace RecordFilter
namespace Command

/-- A command with its options. -/
inductive Action where
  | check (filter : Text) (condition : Bool)
  | eval (filter record : Text) (condition noAugment : Bool)
  | run (filter input : Option Text) (stats noAugment : Bool)
  | config (init : Bool)
  deriving DecidableEq, Repr

/-- What a command line asks for. -/
inductive Request where
  | command (a : Action)
  | version
  | help
  deriving DecidableEq, Repr

/-! ## Options -/

/-- What a command accepts: flags, options with a value, and how many values without an option. -/
structure Accepted where
  flags : List Text
  options : List Text
  values : Nat

/-- What was given to a command. -/
structure Given where
  flags : List Text
  options : List (Text × Text)
  values : List Text
  deriving DecidableEq, Repr

namespace Given

/-- Nothing given. -/
def nothing : Given := ⟨[], [], []⟩

/-- Whether a flag was given. -/
def flag (g : Given) (name : String) : Bool := g.flags.contains name.toList

/-- The value of an option. -/
def option? (g : Given) (name : String) : Option Text :=
  (g.options.find? fun (n, _) => n == name.toList).map (·.2)

/-- Adds a flag, unless it was given before. -/
def addFlag? (g : Given) (name : Text) : Option Given :=
  if g.flags.contains name then none else some { g with flags := name :: g.flags }

/-- Adds an option, unless it was given before. -/
def addOption? (g : Given) (name value : Text) : Option Given :=
  if g.options.any fun (n, _) => n == name then none
  else some { g with options := (name, value) :: g.options }

/-- Adds a value without an option, unless there are too many. -/
def addValue? (accepted : Accepted) (g : Given) (value : Text) : Option Given :=
  if g.values.length < accepted.values then some { g with values := g.values ++ [value] } else none

end Given

/-- The outcome of reading a command's arguments. -/
inductive Outcome where
  | given (g : Given)
  | help
  | wrong
  deriving DecidableEq, Repr

/-- Whether an argument begins an option rather than standing for itself. -/
def beginsOption : Text → Bool
  | '-' :: _ :: _ => true
  | _ => false

/-- The name of a long option and the value behind its equals sign. -/
def nameAndValue (s : Text) : Text × Option Text :=
  (s.takeWhile (· != '='), (s.dropWhile (· != '=')).tail?)

/-- One option with what may follow it: what is given then, and the arguments left. -/
def takeOption? (accepted : Accepted) (g : Given) (long : Text) (rest : List Text) :
    Option (Given × List Text) :=
  let (name, value) := nameAndValue long
  if accepted.flags.contains name then
    if value.isSome then none else (g.addFlag? name).map (·, rest)
  else if accepted.options.contains name then
    match value, rest with
    | some v, _ => (g.addOption? name v).map (·, rest)
    | none, [] => none
    | none, v :: more => if beginsOption v then none else (g.addOption? name v).map (·, more)
  else none

theorem length_of_takeOption? {accepted : Accepted} {g h : Given} {long : Text}
    {rest left : List Text} (taken : takeOption? accepted g long rest = some (h, left)) :
    left.length ≤ rest.length := by
  simp only [takeOption?] at taken
  split at taken
  · split at taken
    · cases taken
    · obtain ⟨_, _, heq⟩ := Option.map_eq_some_iff.1 taken
      cases heq
      exact Nat.le_refl _
  · split at taken
    · split at taken
      · obtain ⟨_, _, heq⟩ := Option.map_eq_some_iff.1 taken
        cases heq
        exact Nat.le_refl _
      · cases taken
      · split at taken
        · cases taken
        · obtain ⟨_, _, heq⟩ := Option.map_eq_some_iff.1 taken
          cases heq
          exact Nat.le_succ _
    · cases taken

/-- Reads the arguments of a command. -/
def readGiven (accepted : Accepted) (g : Given) : List Text → Outcome
  | [] => .given g
  | argument :: rest =>
      match argument with
      | '-' :: '-' :: long =>
          if long.isEmpty then
            match rest.foldlM (Given.addValue? accepted) g with
            | some g => .given g
            | none => .wrong
          else if long = "help".toList then .help
          else
            match _htake : takeOption? accepted g long rest with
            | none => .wrong
            | some (g, left) => readGiven accepted g left
      | '-' :: c :: _ => if c = 'h' then .help else .wrong
      | value =>
          match g.addValue? accepted value with
          | some g => readGiven accepted g rest
          | none => .wrong
termination_by arguments => arguments.length
decreasing_by
  · have := length_of_takeOption? _htake
    simp only [List.length_cons]
    omega
  · simp

/-! ## Commands -/

/-- What each command accepts. -/
def accepted? (name : Text) : Option Accepted :=
  if name = "check".toList then some ⟨["condition".toList], [], 1⟩
  else if name = "eval".toList then
    some ⟨["condition".toList, "no-augment".toList], ["record".toList], 1⟩
  else if name = "run".toList then
    some ⟨["stats".toList, "no-augment".toList], ["filter".toList, "input".toList], 0⟩
  else if name = "config".toList then some ⟨["init".toList], [], 0⟩
  else none

/-- The command that was given, if nothing it needs is missing. -/
def ofGiven? (name : Text) (g : Given) : Option Action :=
  if name = "check".toList then g.values.head?.map fun filter => .check filter (g.flag "condition")
  else if name = "eval".toList then
    match g.values.head?, g.option? "record" with
    | some filter, some record =>
        some (.eval filter record (g.flag "condition") (g.flag "no-augment"))
    | _, _ => none
  else if name = "run".toList then
    some (.run (g.option? "filter") (g.option? "input") (g.flag "stats") (g.flag "no-augment"))
  else if name = "config".toList then some (.config (g.flag "init"))
  else none

/-- What the arguments behind the word `help` ask for. -/
def helpOn? : List Text → Option Request
  | [] => some .help
  | [name] => if name = "help".toList || (accepted? name).isSome then some .help else none
  | _ => none

/-- Reads a command line; nothing if it is wrong. -/
def read? : List Text → Option Request
  | [] => none
  | name :: rest =>
      if name = "--version".toList then some .version
      else if name = "--help".toList then some .help
      else if name = "help".toList then helpOn? rest
      else
        match name with
        | '-' :: 'V' :: _ => some .version
        | '-' :: 'h' :: _ => some .help
        | _ =>
            match accepted? name with
            | none => none
            | some accepted =>
                match readGiven accepted .nothing rest with
                | .given g => (ofGiven? name g).map .command
                | .help => some .help
                | .wrong => none

end Command
end RecordFilter
