import RecordFilter.Toml.Value

/-!
# Writer — values as TOML text

A string is written in the first of these forms that holds it: a basic string without escapes but
that of the tab, a literal string, a long basic string without escapes but that of the tab, a long
literal string, and last a basic string with escapes, which is long if the string has line feeds.
-/

namespace RecordFilter
namespace Toml

/-! ## What a string holds -/

/-- Whether the string has a character that only an escape can write: a control other than tab and
line feed, or DEL. -/
def needsEscape (s : Text) : Bool :=
  s.any fun c => (c.toNat < 0x20 && c != '\t' && c != '\n') || c == '\x7f'

/-- The length of the longest run of `c`, given the length of the run that the text continues. -/
def longestRunFrom (c : Char) (run : Nat) : Text → Nat
  | [] => run
  | d :: rest =>
      if d = c then longestRunFrom c (run + 1) rest else max run (longestRunFrom c 0 rest)

/-- The length of the longest run of `c`. -/
def longestRun (c : Char) (s : Text) : Nat := longestRunFrom c 0 s

/-! ## Forms -/

/-- The escape of a character by its number. -/
def numberEscape (n : Nat) : Text :=
  let digits := (Nat.toDigits 16 n).map Char.toUpper
  ['\\', 'u'] ++ List.replicate (4 - digits.length) '0' ++ digits

/-- A character of a basic string, quotes aside.  A long string keeps its line feeds. -/
def basicChar (long : Bool) (c : Char) : Text :=
  if c = '\\' then ['\\', '\\']
  else if c = '\x08' then ['\\', 'b']
  else if c = '\t' then ['\\', 't']
  else if c = '\n' && !long then ['\\', 'n']
  else if c = '\x0c' then ['\\', 'f']
  else if c = '\r' then ['\\', 'r']
  else if (c.toNat < 0x20 && c != '\n') || c = '\x7f' then numberEscape c.toNat
  else [c]

/-- The inside of a basic string.  Up to `allowed` quotes in a row stand for themselves, of which
`run` have just been written. -/
def basicInside (long : Bool) (allowed run : Nat) : Text → Text
  | [] => []
  | c :: rest =>
      if c = '"' then
        if run < allowed then '"' :: basicInside long allowed (run + 1) rest
        else '\\' :: '"' :: basicInside long allowed 0 rest
      else basicChar long c ++ basicInside long allowed 0 rest

/-- A line feed for the front of a long string that has one. -/
def leadingBreak (s : Text) : Text := if s.contains '\n' then ['\n'] else []

/-- A basic string on one line. -/
def basicText (s : Text) : Text := '"' :: basicInside false 0 0 s ++ ['"']

/-- A literal string on one line. -/
def literalText (s : Text) : Text := '\'' :: s ++ ['\'']

/-- A long basic string. -/
def longBasicText (s : Text) : Text :=
  ['"', '"', '"'] ++ leadingBreak s ++ basicInside true 2 0 s ++ ['"', '"', '"']

/-- A long literal string. -/
def longLiteralText (s : Text) : Text :=
  ['\'', '\'', '\''] ++ leadingBreak s ++ s ++ ['\'', '\'', '\'']

/-- A string. -/
def stringText (s : Text) : Text :=
  if !needsEscape s && !s.contains '\\' && !s.contains '"' && !s.contains '\n' then basicText s
  else if !needsEscape s && !s.contains '\'' && !s.contains '\n' then literalText s
  else if !needsEscape s && !s.contains '\\' && longestRun '"' s ≤ 2 then longBasicText s
  else if !needsEscape s && longestRun '\'' s ≤ 2 then longLiteralText s
  else if s.contains '\n' then longBasicText s
  else basicText s

/-- A truth value. -/
def booleanText (b : Bool) : Text := if b then ['t', 'r', 'u', 'e'] else ['f', 'a', 'l', 's', 'e']

/-- A list of strings: on one line if it has fewer than two, else one string a line. -/
def stringsText : List Text → Text
  | [] => ['[', ']']
  | [s] => '[' :: stringText s ++ [']']
  | items =>
      ['[', '\n'] ++ items.flatMap (fun s => [' ', ' ', ' ', ' '] ++ stringText s ++ [',', '\n'])
        ++ [']']

/-! ## Lines -/

/-- A line that sets a key. -/
def entryLine (key value : Text) : Text := key ++ [' ', '=', ' '] ++ value ++ ['\n']

/-- A line that opens a table. -/
def headerLine (name : Text) : Text := '[' :: name ++ [']', '\n']

end Toml
end RecordFilter
