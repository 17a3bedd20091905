import RecordFilter.FileTree.Pattern
import RecordFilter.FileTree.Place

/-!
# Inputs — the record files that a text names

A text names a file, a directory with all record files below it, or else the record files whose
paths match it as a pattern.  Files that a directory or a pattern names come in the order of their
paths.
-/

namespace RecordFilter
namespace FileTree

namespace Place

/-- The path of a name in a directory.  Names in the working directory stand alone. -/
def extend (path name : Text) : Text :=
  if Path.isCurrent path then name else Path.join path name

/-- The places of a directory's entries. -/
def children (p : Place) : List Place :=
  (p.trail.directory?.getD []).map fun (name, e) => ⟨extend p.path name, name, e :: p.trail⟩

/-- The places below a directory, at any depth. -/
def descendants (p : Place) : List Place :=
  match p.trail with
  | [] => []
  | e :: above => below extend p.path above e

/-- The place of a name, which may also be empty, a point or two points. -/
def enter? (p : Place) (name : Text) : Option Place :=
  if name = [] && Path.isCurrent p.path then none
  else (p.trail.step? name).map (⟨extend p.path name, name, ·⟩)

/-- The places of a point and of two points, if a pattern that begins with a point admits them. -/
def specials (pattern : Pattern) (p : Place) : List Place :=
  if pattern.head? = some (.literal '.') && p.isDirectory then
    [['.'], ['.', '.']].filterMap fun name =>
      if pattern.admits name then
        (p.trail.step? name).map (⟨Path.join p.path name, name, ·⟩)
      else none
  else []

/-- The places that a list of patterns leads to. -/
def expand : List Pattern → Place → List Place
  | [], p => [p]
  | pattern :: rest, p =>
      match pattern.literal? with
      | some name => (p.enter? name).toList.flatMap (expand rest)
      | none =>
          if pattern.isDeep then
            match rest with
            | [] => p.descendants.filter isDirectory
            | next :: more =>
                (p.descendants.filter fun q => next.admits q.name).flatMap (expand more)
          else
            ((p.children.filter fun q => pattern.admits q.name) ++ specials pattern p).flatMap
              (expand rest)

end Place

namespace Disk

/-- Where the patterns of a path begin: at the root or in the working directory. -/
def startOf (disk : Disk) (path : Text) : Option Place :=
  if isAbsolute path then some ⟨['/'], [], [disk.root]⟩
  else (Trail.walk? [disk.root] disk.workingDirectory).map (⟨['.'], [], ·⟩)

/-- The record files whose paths match a pattern; nothing if it is no pattern.  With a slash at its
end a pattern matches directories only. -/
def matching? (disk : Disk) (path : Text) : Option (List Text) :=
  (Pattern.readPath? path).map fun patterns =>
    if path = [] || path.getLast? = some '/' then []
    else
      let found := (disk.startOf path).toList.flatMap (Place.expand patterns)
      Path.sort ((found.filter Place.isRecordFile).map (·.path))

/-- The files that a text names; nothing if it is no pattern either. -/
def inputs? (disk : Disk) (text : Text) : Option (List Text) :=
  match disk.trail? text with
  | some (.file _ :: _) => some [text]
  | some (e :: _) => some (recordFiles text e)
  | _ => disk.matching? text

end Disk
end FileTree
end RecordFilter
