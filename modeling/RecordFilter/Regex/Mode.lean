import RecordFilter.Text.Blank

/-!
# Mode — how the characters of a regular expression are read

Flags change the mode from where they stand to the end of their group.  In the extended mode blanks
count for nothing, nor does a comment, which runs from a `#` to the end of its line.  Without the
Unicode mode an expression is about bytes; since it may then only match whole characters, it may
speak of ASCII alone.
-/

namespace RecordFilter
namespace Regex

open Text

/-- How characters are read. -/
structure Mode where
  extended : Bool
  unicode : Bool
  deriving DecidableEq, Repr

namespace Mode

/-- The mode at the front of an expression. -/
def start : Mode := ⟨false, true⟩

end Mode

/-! ## Blanks and comments -/

/-- The text from its first character on that is no blank and in no comment. -/
def skipRemarks (inComment : Bool) : Text → Text
  | [] => []
  | c :: rest =>
      if inComment then skipRemarks (c != '\n') rest
      else if isBlank c then skipRemarks false rest
      else if c = '#' then skipRemarks true rest
      else c :: rest

/-- What counts in a mode of the rest of an expression. -/
def Mode.skip (m : Mode) (s : Text) : Text := if m.extended then skipRemarks false s else s

/-! ## Flags -/

/-- The letters of the flags. -/
def isFlag (c : Char) : Bool := "imsUuRx".toList.contains c

/-- Whether a text is a list of flags: letters, none of them twice, before some of which one hyphen
may stand that turns them off. -/
def isFlags (s : Text) : Bool :=
  s.all (fun c => isFlag c || c == '-') && s.Nodup && s.getLast? != some '-'

/-- What flags make of a setting that has a letter. -/
def setting (letter : Char) (flags : Text) (before : Bool) : Bool :=
  if (flags.takeWhile (· != '-')).contains letter then true
  else if flags.contains letter then false
  else before

/-- The mode behind flags. -/
def Mode.withFlags (m : Mode) (flags : Text) : Mode :=
  ⟨setting 'x' flags m.extended, setting 'u' flags m.unicode⟩

end Regex
end RecordFilter
