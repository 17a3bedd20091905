import RecordFilter.Text.Hex
import RecordFilter.Text.Printable

/-!
# Listing — names in a message

A list of names is written between brackets, each name between double quotes, with a comma and a
space between two names.  Inside a name a backslash stands before a quote or a backslash, a few
controls have a letter, and any other character that does not show by itself is written by its
code point.
-/

namespace RecordFilter
namespace Text

/-- One character of a listed name. -/
def listedChar (c : Char) : Text :=
  if c = '"' || c = '\\' then ['\\', c]
  else if c = '\n' then ['\\', 'n']
  else if c = '\t' then ['\\', 't']
  else if c = '\r' then ['\\', 'r']
  else if c = '\x00' then ['\\', '0']
  else if isPrintable c then [c]
  else ['\\', 'u', '\x7b'] ++ hex c.toNat ++ ['\x7d']

/-- A name between double quotes. -/
def listedName (s : Text) : Text := '"' :: s.flatMap listedChar ++ ['"']

/-- Names between brackets. -/
def listing (names : List Text) : Text :=
  '[' :: joinWith [',', ' '] (names.map listedName) ++ [']']

end Text
end RecordFilter
