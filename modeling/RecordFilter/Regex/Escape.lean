import RecordFilter.Regex.Mode
import RecordFilter.Text.Hex

/-!
# Escape — what follows a backslash

A backslash and a sign stand for the sign, a backslash and a letter for a character, for a class of
characters or for a place in the text.  There are no references to groups.  Word boundaries depend
on the characters on both sides; an automaton that reads bytes knows them for ASCII words only.

An expression stands between braces, so it holds no complete pair of braces, and an escape that
needs one is never complete.
-/

namespace RecordFilter
namespace Regex

open Text

/-- What a smallest part of an expression stands for. -/
inductive Atom where
  | literal (c : Char)
  | charClass
  | assertion
  deriving DecidableEq, Repr

/-- The character with a number in base sixteen of so many digits, whose first digits have the given
value. -/
def hexChar? (m : Mode) (value : Nat) : Nat → Text → Option (Char × Text)
  | 0, s => if value.isValidChar then some (Char.ofNat value, s) else none
  | width + 1, s =>
      match m.skip s with
      | [] => none
      | c :: rest => (hexDigit? c).bind fun d => hexChar? m (16 * value + d) width rest

/-- A character by its number.  A number of two digits stands for a byte without the Unicode mode,
and the bytes beyond ASCII are no characters. -/
def numberEscape? (m : Mode) (width : Nat) (s : Text) : Option (Atom × Text) :=
  (hexChar? m 0 width s).bind fun (c, rest) =>
    if width = 2 && !m.unicode && 0x80 ≤ c.toNat then none else some (.literal c, rest)

/-- The letters of the general categories of characters. -/
def isCategory (c : Char) : Bool := "CLMNPSZ".toList.contains c.toUpper

/-- A class by the letter of a general category. -/
def categoryEscape? (m : Mode) (s : Text) : Option (Atom × Text) :=
  match m.skip s with
  | [] => none
  | c :: rest => if m.unicode && isCategory c then some (.charClass, rest) else none

/-- The control character that a letter stands for. -/
def controlOf? (c : Char) : Option Char :=
  match c with
  | 'a' => some '\x07'
  | 'f' => some '\x0c'
  | 't' => some '\t'
  | 'n' => some '\n'
  | 'r' => some '\r'
  | 'v' => some '\x0b'
  | _ => none

/-- What a single character behind a backslash stands for. -/
def signEscape? (m : Mode) (c : Char) : Option Atom :=
  if "dsw".toList.contains c then some .charClass
  else if "DSW".toList.contains c then if m.unicode then some .charClass else none
  else if c = 'A' || c = 'z' then some .assertion
  else if "bB<>".toList.contains c then if m.unicode then none else some .assertion
  else if c.toNat < 0x80 && !c.isAlphanum then some (.literal c)
  else (controlOf? c).map .literal

/-- What stands behind a backslash. -/
def escape? (m : Mode) : Text → Option (Atom × Text)
  | [] => none
  | c :: rest =>
      if c = 'x' then numberEscape? m 2 rest
      else if c = 'u' then numberEscape? m 4 rest
      else if c = 'U' then numberEscape? m 8 rest
      else if c = 'p' || c = 'P' then categoryEscape? m rest
      else (signEscape? m c).map (·, rest)

end Regex
end RecordFilter
