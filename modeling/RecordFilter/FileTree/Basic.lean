import RecordFilter.Text.Pieces

/-!
# FileTree — files and directories by name

A directory lists its entries in the order in which it is read.  A disk is a tree with a working
directory; paths are looked up from the root or from there, step by step.
-/

namespace RecordFilter
namespace FileTree

/-- A file with its content, or a directory with its entries. -/
inductive Entry where
  | file (content : Text)
  | directory (entries : List (Text × Entry))
  deriving Repr

namespace Entry

/-- Whether the entry is a directory. -/
def isDirectory : Entry → Bool
  | .directory _ => true
  | .file _ => false

/-- The entry of a name in a list of entries. -/
def find? (name : Text) : List (Text × Entry) → Option Entry
  | [] => none
  | (n, e) :: rest => if n = name then some e else find? name rest

/-- Changes the entry of a name, or adds one at the end; fails where `change` does. -/
def alter? (name : Text) (change : Option Entry → Option Entry) :
    List (Text × Entry) → Option (List (Text × Entry))
  | [] => (change none).map fun e => [(name, e)]
  | (n, e) :: rest =>
      if n = name then (change (some e)).map fun e => (n, e) :: rest
      else (alter? name change rest).map ((n, e) :: ·)

/-- Puts an entry under a list of names, making the directories on the way.  Fails where a file is
in the way or a directory stands in its place. -/
def put? (new : Entry) : List Text → Option Entry → Option Entry
  | [], some (.directory _) => none
  | [], _ => some new
  | name :: rest, none => (put? new rest none).map fun e => .directory [(name, e)]
  | _ :: _, some (.file _) => none
  | name :: rest, some (.directory entries) =>
      (alter? name (put? new rest) entries).map .directory

/-- Makes a directory under a list of names, unless there is one.  Fails where a file is in the
way. -/
def ensureDirectory? : List Text → Option Entry → Option Entry
  | [], none => some (.directory [])
  | [], some (.directory entries) => some (.directory entries)
  | name :: rest, none => (ensureDirectory? rest none).map fun e => .directory [(name, e)]
  | _, some (.file _) => none
  | name :: rest, some (.directory entries) =>
      (alter? name (ensureDirectory? rest) entries).map .directory

end Entry

/-! ## Looking up paths -/

/-- A way down from the root: the entry reached, then the directories above it. -/
abbrev Trail := List Entry

namespace Trail

/-- The entry reached, if it is a directory. -/
def directory? : Trail → Option (List (Text × Entry))
  | .directory entries :: _ => some entries
  | _ => none

/-- Whether a directory is reached. -/
def isDirectory (t : Trail) : Bool := t.directory?.isSome

/-- The content of the file that is reached. -/
def content? : Trail → Option Text
  | .file content :: _ => some content
  | _ => none

/-- One step from a directory: an empty step or a point stays, two points go up, and a name goes
down.  The root is above itself. -/
def step? (t : Trail) (name : Text) : Option Trail :=
  match t.directory? with
  | none => none
  | some entries =>
      if name = [] || name = ['.'] then some t
      else if name = ['.', '.'] then some (if t.length ≤ 1 then t else t.drop 1)
      else (Entry.find? name entries).map (· :: t)

/-- Steps along a list of names. -/
def walk? (t : Trail) (names : List Text) : Option Trail := names.foldlM step? t

end Trail

/-- A tree and the names that lead from its root to the working directory. -/
structure Disk where
  root : Entry
  workingDirectory : List Text
  deriving Repr

namespace Disk

/-- Whether a path starts at the root. -/
def isAbsolute (path : Text) : Bool := path.head? == some '/'

/-- Where a path leads.  An empty path leads nowhere. -/
def trail? (disk : Disk) (path : Text) : Option Trail :=
  if path.isEmpty then none
  else do
    let start ← if isAbsolute path then some [disk.root]
      else Trail.walk? [disk.root] disk.workingDirectory
    Trail.walk? start (Text.split '/' path)

/-- Whether a path leads to a directory. -/
def isDirectory (disk : Disk) (path : Text) : Bool := (disk.trail? path).any Trail.isDirectory

/-- The content of the file at a path. -/
def read? (disk : Disk) (path : Text) : Option Text := (disk.trail? path).bind Trail.content?

/-- Follows the steps of a path on a list of names. -/
def resolveNames (names : List Text) (steps : List Text) : List Text :=
  steps.foldl
    (fun names step =>
      if step = [] || step = ['.'] then names
      else if step = ['.', '.'] then names.dropLast
      else names ++ [step])
    names

/-- The names that lead from the root to a path. -/
def namesOf (disk : Disk) (path : Text) : List Text :=
  resolveNames (if isAbsolute path then [] else disk.workingDirectory) (Text.split '/' path)

/-- Puts an entry at a path, making the directories on the way. -/
def put? (disk : Disk) (path : Text) (new : Entry) : Option Disk :=
  (Entry.put? new (disk.namesOf path) (some disk.root)).map fun root => { disk with root := root }

/-- Writes a file at a path, making the directories on the way. -/
def write? (disk : Disk) (path content : Text) : Option Disk := disk.put? path (.file content)

/-- Makes a directory at a path, with the directories on the way. -/
def ensureDirectory? (disk : Disk) (path : Text) : Option Disk :=
  (Entry.ensureDirectory? (disk.namesOf path) (some disk.root)).map
    fun root => { disk with root := root }

/-- The disk with nothing but a working directory. -/
def empty (workingDirectory : List Text) : Disk :=
  ⟨(Entry.ensureDirectory? workingDirectory none).getD (.directory []), workingDirectory⟩

end Disk
end FileTree
end RecordFilter
