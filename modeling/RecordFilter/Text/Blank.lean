import RecordFilter.Text.Basic

/-!
# Blank — white space and trimming

`isBlank` is the Unicode property White_Space.  `trim` removes blanks at both ends; it never
lengthens a text and leaves no blank at an end.
-/

namespace RecordFilter
namespace Text

/-- The Unicode property White_Space. -/
def isBlank (c : Char) : Bool :=
  let n := c.toNat
  (9 ≤ n && n ≤ 13) || n == 0x20 || n == 0x85 || n == 0xA0 || n == 0x1680 ||
    (0x2000 ≤ n && n ≤ 0x200A) || n == 0x2028 || n == 0x2029 || n == 0x202F || n == 0x205F ||
    n == 0x3000

/-- The blanks that may stand around an arithmetic sign: space, tab, line feed, form feed and
carriage return. -/
def isAsciiBlank (c : Char) : Bool :=
  c == ' ' || c == '\t' || c == '\n' || c == '\x0c' || c == '\r'

/-- Without the blanks at the front. -/
def trimStart (s : Text) : Text := s.dropWhile isBlank

/-- Without the blanks at the end. -/
def trimEnd (s : Text) : Text := (s.reverse.dropWhile isBlank).reverse

/-- Without the blanks at both ends. -/
def trim (s : Text) : Text := trimEnd (trimStart s)

/-- Whether the text has no character but blanks. -/
def allBlank (s : Text) : Bool := s.all isBlank

theorem length_pos_of_not_allBlank {s : Text} (h : allBlank s = false) : 0 < s.length := by
  cases s with
  | nil => cases h
  | cons c rest => simp

theorem length_trimStart_le (s : Text) : (trimStart s).length ≤ s.length :=
  (List.dropWhile_sublist _).length_le

theorem length_trimEnd_le (s : Text) : (trimEnd s).length ≤ s.length := by
  have := (List.dropWhile_sublist isBlank (l := s.reverse)).length_le
  simpa [trimEnd] using this

theorem length_trim_le (s : Text) : (trim s).length ≤ s.length :=
  Nat.le_trans (length_trimEnd_le _) (length_trimStart_le s)

end Text
end RecordFilter
