import RecordFilter.Text.Hex
import RecordFilter.Toml.Value

/-!
# StringReader — the four kinds of string

A basic string stands between double quotes and has escapes; a literal string stands between single
quotes and has none.  Between three quotes of either kind a string may run over several lines: a
line break right after the opening quotes is dropped, and a backslash at the end of a line drops all
blanks and line breaks up to the next character.  Every line break is read as a line feed.
-/

namespace RecordFilter
namespace Toml

/-! ## Characters -/

/-- A tab, or any character but the controls and DEL. -/
def isShown (c : Char) : Bool := c == '\t' || (0x20 ≤ c.toNat && c != '\x7f')

/-- A character that stands for itself in a basic string. -/
def isBasicChar (c : Char) : Bool := isShown c && c != '"' && c != '\\'

/-- A character that stands for itself in a literal string. -/
def isLiteralChar (c : Char) : Bool := isShown c && c != '\''

/-- A space or a tab. -/
def isInlineBlank (c : Char) : Bool := c == ' ' || c == '\t'

/-- What follows the spaces and tabs at the front. -/
def skipInlineBlanks (s : Text) : Text := s.dropWhile isInlineBlank

/-- What follows a line break at the front. -/
def afterBreak? : Text → Option Text
  | '\n' :: rest => some rest
  | '\r' :: '\n' :: rest => some rest
  | _ => none

/-- What follows the spaces, tabs and line breaks at the front. -/
def skipBlankLines : Text → Text
  | [] => []
  | [c] => if isInlineBlank c || c == '\n' then [] else [c]
  | c :: d :: rest =>
      if isInlineBlank c || c == '\n' then skipBlankLines (d :: rest)
      else if c == '\r' && d == '\n' then skipBlankLines rest
      else c :: d :: rest

theorem length_skipInlineBlanks_le (s : Text) : (skipInlineBlanks s).length ≤ s.length :=
  (List.dropWhile_sublist _).length_le

theorem length_of_afterBreak? {s rest : Text} (h : afterBreak? s = some rest) :
    rest.length < s.length := by
  unfold afterBreak? at h
  split at h
  · cases h
    simp
  · cases h
    simp only [List.length_cons]
    omega
  · cases h

theorem length_skipBlankLines_le (s : Text) : (skipBlankLines s).length ≤ s.length := by
  fun_induction skipBlankLines s with
  | case1 => simp
  | case2 => simp
  | case3 => simp
  | case4 c d rest _ ih =>
      simp only [List.length_cons] at *
      omega
  | case5 c d rest _ _ ih =>
      simp only [List.length_cons] at *
      omega
  | case6 => simp

/-! ## Escapes -/

/-- The character with a number, if there is one. -/
def character? (n : Nat) : Option Char := if n.isValidChar then some (Char.ofNat n) else none

/-- A character written by exactly `width` digits in base sixteen. -/
def codePoint? (width : Nat) (s : Text) : Option (Char × Text) :=
  if s.length < width then none
  else
    match Text.hexValue? (s.take width) with
    | some n => (character? n).map (·, s.drop width)
    | none => none

/-- The character that a letter behind a backslash stands for. -/
def simpleEscape? (c : Char) : Option Char :=
  match c with
  | 'b' => some '\x08'
  | 't' => some '\t'
  | 'n' => some '\n'
  | 'f' => some '\x0c'
  | 'r' => some '\r'
  | '"' => some '"'
  | '\\' => some '\\'
  | _ => none

/-- What follows a backslash. -/
def escape? : Text → Option (Char × Text)
  | [] => none
  | c :: rest =>
      if c = 'u' then codePoint? 4 rest
      else if c = 'U' then codePoint? 8 rest
      else (simpleEscape? c).map (·, rest)

theorem length_of_codePoint? {width : Nat} {s rest : Text} {c : Char}
    (h : codePoint? width s = some (c, rest)) : rest.length ≤ s.length := by
  unfold codePoint? at h
  split at h
  · cases h
  · split at h
    · obtain ⟨_, _, heq⟩ := Option.map_eq_some_iff.1 h
      cases heq
      simp
    · cases h

theorem length_of_escape? {s rest : Text} {c : Char} (h : escape? s = some (c, rest)) :
    rest.length < s.length := by
  unfold escape? at h
  split at h
  case h_1 => cases h
  case h_2 d more =>
    split at h
    · exact Nat.lt_succ_of_le (length_of_codePoint? h)
    · split at h
      · exact Nat.lt_succ_of_le (length_of_codePoint? h)
      · obtain ⟨_, _, heq⟩ := Option.map_eq_some_iff.1 h
        cases heq
        exact Nat.lt_succ_self _

/-! ## Strings on one line -/

/-- A basic string behind its opening quote, and what follows its closing quote. -/
def basicBody? : Text → Option (Text × Text)
  | [] => none
  | c :: rest =>
      if c = '"' then some ([], rest)
      else if c = '\\' then
        match _hesc : escape? rest with
        | none => none
        | some (d, after) => (basicBody? after).map fun (t, r) => (d :: t, r)
      else if isBasicChar c then (basicBody? rest).map fun (t, r) => (c :: t, r)
      else none
termination_by s => s.length
decreasing_by
  · have := length_of_escape? _hesc
    simp only [List.length_cons]
    omega
  · simp

/-- A literal string behind its opening quote, and what follows its closing quote. -/
def literalBody? : Text → Option (Text × Text)
  | [] => none
  | c :: rest =>
      if c = '\'' then some ([], rest)
      else if isLiteralChar c then (literalBody? rest).map fun (t, r) => (c :: t, r)
      else none

/-! ## Strings over several lines -/

/-- The closing quotes of a long string at the front of a text: three quotes, before which up to
two more belong to the string.  Gives those and what follows. -/
def closing? (quote : Char) (s : Text) : Option (Text × Text) :=
  if [quote, quote, quote].isPrefixOf s then
    let extra := ((s.drop 3).takeWhile (· == quote)).take 2
    some (extra, s.drop (3 + extra.length))
  else none

/-- What follows a backslash at the end of a line, and the blanks and line breaks behind it. -/
def afterContinuation? (s : Text) : Option Text :=
  (afterBreak? (skipInlineBlanks s)).map skipBlankLines

theorem length_of_afterContinuation? {s rest : Text} (h : afterContinuation? s = some rest) :
    rest.length < s.length := by
  obtain ⟨after, hbreak, rfl⟩ := Option.map_eq_some_iff.1 h
  have := length_of_afterBreak? hbreak
  have := length_skipInlineBlanks_le s
  have := length_skipBlankLines_le after
  omega

/-- A long basic string behind its opening quotes and a line break there. -/
def longBasicBody? (s : Text) : Option (Text × Text) :=
  match closing? '"' s with
  | some found => some found
  | none =>
      match _hbreak : afterBreak? s with
      | some rest => (longBasicBody? rest).map fun (t, r) => ('\n' :: t, r)
      | none =>
          match s with
          | [] => none
          | c :: rest =>
              if c = '\\' then
                match _hcont : afterContinuation? rest with
                | some after => longBasicBody? after
                | none =>
                    match _hesc : escape? rest with
                    | none => none
                    | some (d, after) => (longBasicBody? after).map fun (t, r) => (d :: t, r)
              else if c = '"' || isBasicChar c then
                (longBasicBody? rest).map fun (t, r) => (c :: t, r)
              else none
termination_by s.length
decreasing_by
  · exact length_of_afterBreak? _hbreak
  · have := length_of_afterContinuation? _hcont
    simp only [List.length_cons]
    omega
  · have := length_of_escape? _hesc
    simp only [List.length_cons]
    omega
  · simp

/-- A long literal string behind its opening quotes and a line break there. -/
def longLiteralBody? (s : Text) : Option (Text × Text) :=
  match closing? '\'' s with
  | some found => some found
  | none =>
      match _hbreak : afterBreak? s with
      | some rest => (longLiteralBody? rest).map fun (t, r) => ('\n' :: t, r)
      | none =>
          match s with
          | [] => none
          | c :: rest =>
              if c = '\'' || isLiteralChar c then
                (longLiteralBody? rest).map fun (t, r) => (c :: t, r)
              else none
termination_by s.length
decreasing_by
  · exact length_of_afterBreak? _hbreak
  · simp

/-- Without a line break at the front. -/
def dropBreak (s : Text) : Text := (afterBreak? s).getD s

/-- A string of any kind, and the rest of the text. -/
def string? (s : Text) : Option (Text × Text) :=
  match s with
  | '"' :: '"' :: '"' :: rest => longBasicBody? (dropBreak rest)
  | '\'' :: '\'' :: '\'' :: rest => longLiteralBody? (dropBreak rest)
  | '"' :: rest => basicBody? rest
  | '\'' :: rest => literalBody? rest
  | _ => none

end Toml
end RecordFilter
