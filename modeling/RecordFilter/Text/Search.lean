import RecordFilter.Text.Basic

/-!
# Search — where one text occurs in another

`occurrences needle hay` lists every place where a non-empty `needle` starts in `hay`, overlapping
ones included, from left to right.  `without needle` cuts the occurrences out, left to right and
without overlap.
-/

namespace RecordFilter
namespace Text

/-- A place where a needle stands: its byte offset and the characters on either side of it. -/
structure Occurrence where
  offset : Nat
  before : Option Char
  after : Option Char
  deriving DecidableEq, Repr

/-- Occurrences in a rest of the text that starts at `offset` behind the character `before`. -/
def occurrencesFrom (needle : Text) (before : Option Char) (offset : Nat) : Text → List Occurrence
  | [] => []
  | c :: rest =>
      let further := occurrencesFrom needle (some c) (offset + c.utf8Size) rest
      if needle.isPrefixOf (c :: rest) then
        ⟨offset, before, ((c :: rest).drop needle.length).head?⟩ :: further
      else further

/-- All places where `needle` starts, from left to right.  An empty needle stands nowhere. -/
def occurrences (needle hay : Text) : List Occurrence :=
  if needle.isEmpty then [] else occurrencesFrom needle none 0 hay

/-- A letter, digit or underscore, or any character beyond ASCII. -/
def isWordChar (c : Char) : Bool :=
  c.isAlphanum || c == '_' || 0x80 ≤ c.toNat

/-- Neither neighbour continues a word. -/
def Occurrence.isWordBounded (o : Occurrence) : Bool :=
  !o.before.any isWordChar && !o.after.any isWordChar

/-- Drops `skip` characters, then cuts out each occurrence of `needle`. -/
def withoutFrom (needle : Text) : Nat → Text → Text
  | _, [] => []
  | skip + 1, _ :: rest => withoutFrom needle skip rest
  | 0, c :: rest =>
      if !needle.isEmpty && needle.isPrefixOf (c :: rest) then
        withoutFrom needle (needle.length - 1) rest
      else c :: withoutFrom needle 0 rest

/-- Cuts out each occurrence of `needle`, from left to right and without overlap. -/
def without (needle s : Text) : Text := withoutFrom needle 0 s

end Text
end RecordFilter
