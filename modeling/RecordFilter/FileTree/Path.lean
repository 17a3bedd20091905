import RecordFilter.Text.Order
import RecordFilter.Text.Pieces

/-!
# Path — paths as text

Paths are compared by their components, so `a/b` comes before `a-b` although a slash comes after a
hyphen.
-/

namespace RecordFilter
namespace FileTree
namespace Path

/-- A component of a path. -/
inductive Component where
  | root
  | current
  | parent
  | normal (name : Text)
  deriving DecidableEq, Repr

namespace Component

/-- The place of a component's kind in the order. -/
def rank : Component → Nat
  | .root => 0
  | .current => 1
  | .parent => 2
  | .normal _ => 3

/-- The root comes first, then the working directory, the parent, and names in their order. -/
def order : Component → Component → Ordering
  | .normal a, .normal b => Text.order a b
  | a, b => compare a.rank b.rank

end Component

/-- The component that a piece between slashes makes. -/
def component? (piece : Text) : Option Component :=
  if piece = [] || piece = ['.'] then none
  else if piece = ['.', '.'] then some .parent
  else some (.normal piece)

/-- The components of a path.  Empty pieces and points count for nothing, but for a point at the
front. -/
def components (path : Text) : List Component :=
  let pieces := Text.split '/' path
  let front :=
    if path.head? = some '/' then [.root]
    else if pieces.head? = some ['.'] then [.current]
    else []
  front ++ pieces.filterMap component?

/-- Component by component; a path comes before the paths below it. -/
def orderComponents : List Component → List Component → Ordering
  | [], [] => .eq
  | [], _ :: _ => .lt
  | _ :: _, [] => .gt
  | a :: as, b :: bs => (a.order b).then (orderComponents as bs)

/-- The order of paths. -/
def order (a b : Text) : Ordering := orderComponents (components a) (components b)

/-- The paths in their order; paths of equal components keep their places. -/
def sort (paths : List Text) : List Text := paths.mergeSort fun a b => (order a b).isLE

/-- Whether a path names the working directory. -/
def isCurrent (path : Text) : Bool := components path = [.current]

/-- The path of a name below a path. -/
def join (path name : Text) : Text :=
  if path = [] || path.getLast? = some '/' then path ++ name else path ++ '/' :: name

/-- What follows the last point of a name.  A name whose only point is its first character has no
extension. -/
def extension? (name : Text) : Option Text :=
  let tail := (name.reverse.takeWhile (· != '.')).reverse
  if name = ['.', '.'] || tail.length + 1 ≥ name.length then none else some tail

/-- Whether a name has the extension of a record file. -/
def isRecordName (name : Text) : Bool :=
  match extension? name with
  | some e => e == "json".toList || e == "jsonl".toList || e == "ndjson".toList
  | none => false

end Path
end FileTree
end RecordFilter
