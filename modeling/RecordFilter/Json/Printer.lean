import RecordFilter.Text.Listing
import RecordFilter.Json.Basic

/-!
# Printer — compact text of a value

No blanks stand between tokens.  A string escapes the quote, the backslash and the characters below
U+0020, and nothing else; so the text has no line break.
-/

namespace RecordFilter
namespace Json

/-- One character of a string. -/
def escapedChar (c : Char) : Text :=
  if c = '"' || c = '\\' then ['\\', c]
  else if c = '\x08' then ['\\', 'b']
  else if c = '\t' then ['\\', 't']
  else if c = '\n' then ['\\', 'n']
  else if c = '\x0c' then ['\\', 'f']
  else if c = '\r' then ['\\', 'r']
  else if c.toNat < 0x20 then
    ['\\', 'u', '0', '0', Nat.digitChar (c.toNat / 16), Nat.digitChar (c.toNat % 16)]
  else [c]

/-- A string between quotes. -/
def stringText (s : Text) : Text := '"' :: s.flatMap escapedChar ++ ['"']

mutual

/-- Compact text of a value. -/
def Value.text : Value → Text
  | .null => ['n', 'u', 'l', 'l']
  | .boolean b => Value.booleanText b
  | .number n => n.text
  | .string s => stringText s
  | .array items => '[' :: itemsText items ++ [']']
  | .object members => '\x7b' :: membersText members ++ ['\x7d']
termination_by structural v => v

/-- Values with a comma between each two. -/
def itemsText : List Value → Text
  | [] => []
  | [v] => v.text
  | v :: w :: rest => v.text ++ ',' :: itemsText (w :: rest)
termination_by structural vs => vs

/-- Members with a comma between each two. -/
def membersText : List (Text × Value) → Text
  | [] => []
  | [m] => memberText m
  | m :: n :: rest => memberText m ++ ',' :: membersText (n :: rest)
termination_by structural ms => ms

/-- A key, a colon and its value. -/
def memberText : Text × Value → Text
  | (key, v) => stringText key ++ ':' :: v.text
termination_by structural m => m

end

end Json
end RecordFilter
