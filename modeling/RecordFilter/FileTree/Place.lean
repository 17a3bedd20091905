import RecordFilter.FileTree.Basic
import RecordFilter.FileTree.Path

/-!
# Place — entries with the paths that lead to them

`below` lists all entries below a directory at any depth, each directory before its entries.
`recordFiles` picks the record files among them.
-/

namespace RecordFilter
namespace FileTree

/-- An entry's path, its name, and the way down to it. -/
structure Place where
  path : Text
  name : Text
  trail : Trail
  deriving Repr

namespace Place

/-- Whether a directory is at the place. -/
def isDirectory (p : Place) : Bool := p.trail.isDirectory

/-- Whether a record file is at the place. -/
def isRecordFile (p : Place) : Bool := !p.isDirectory && Path.isRecordName p.name

end Place

mutual

/-- All places below an entry at `path`, where `extend` gives the path of a name in a directory. -/
def below (extend : Text → Text → Text) (path : Text) (above : Trail) : Entry → List Place
  | .file _ => []
  | .directory entries => belowEntries extend path (.directory entries :: above) entries
termination_by structural e => e

/-- The places of some entries of a directory and all places below them. -/
def belowEntries (extend : Text → Text → Text) (path : Text) (trail : Trail) :
    List (Text × Entry) → List Place
  | [] => []
  | e :: rest => belowEntry extend path trail e ++ belowEntries extend path trail rest
termination_by structural es => es

/-- The place of one entry of a directory and all places below it. -/
def belowEntry (extend : Text → Text → Text) (path : Text) (trail : Trail) :
    Text × Entry → List Place
  | (name, e) =>
      ⟨extend path name, name, e :: trail⟩ :: below extend (extend path name) trail e
termination_by structural e => e

end

/-- The record files below a directory, as they are found. -/
def foundRecordFiles (path : Text) (directory : Entry) : List Text :=
  ((below Path.join path [] directory).filter Place.isRecordFile).map (·.path)

/-- The record files below a directory, in the order of their paths. -/
def recordFiles (path : Text) (directory : Entry) : List Text :=
  Path.sort (foundRecordFiles path directory)

end FileTree
end RecordFilter
