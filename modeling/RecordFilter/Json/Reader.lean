import RecordFilter.Text.Hex
import RecordFilter.Json.NumberReader

/-!
# Reader — values from text

Strict JSON: blanks are the space, tab, line feed and carriage return; strings hold no control
characters and no half of a surrogate pair; arrays and objects nest at most 127 deep.  Of two
members with one key the later counts.
-/

namespace RecordFilter
namespace Json

/-- The blanks that may stand between tokens. -/
def isBlank (c : Char) : Bool := c == ' ' || c == '\t' || c == '\n' || c == '\r'

/-- The text from its first character on that is no blank. -/
def skipBlanks (s : Text) : Text := s.dropWhile isBlank

/-! ## Strings -/

/-- Four digits in base sixteen. -/
def hexUnit? : Text → Option (Nat × Text)
  | a :: b :: c :: d :: rest => (Text.hexValue? [a, b, c, d]).map (·, rest)
  | _ => none

/-- The second half of a surrogate pair, written as an escape of its own. -/
def lowSurrogate? : Text → Option (Nat × Text)
  | '\\' :: 'u' :: rest =>
      (hexUnit? rest).filter fun (low, _) => 0xDC00 ≤ low && low ≤ 0xDFFF
  | _ => none

/-- The character of a surrogate pair. -/
def surrogatePair (high low : Nat) : Char :=
  Char.ofNat (0x10000 + (high - 0xD800) * 0x400 + (low - 0xDC00))

/-- A character written as one unit, or as a pair of surrogates. -/
def unicodeEscape? (s : Text) : Option (Char × Text) :=
  match hexUnit? s with
  | none => none
  | some (unit, rest) =>
      if 0xD800 ≤ unit && unit ≤ 0xDBFF then
        (lowSurrogate? rest).map fun (low, after) => (surrogatePair unit low, after)
      else if 0xDC00 ≤ unit && unit ≤ 0xDFFF then none
      else some (Char.ofNat unit, rest)

/-- The character that a letter behind a backslash stands for. -/
def simpleEscape? (c : Char) : Option Char :=
  match c with
  | '"' => some '"'
  | '\\' => some '\\'
  | '/' => some '/'
  | 'b' => some '\x08'
  | 'f' => some '\x0c'
  | 'n' => some '\n'
  | 'r' => some '\r'
  | 't' => some '\t'
  | _ => none

/-- What follows a backslash. -/
def escape? : Text → Option (Char × Text)
  | [] => none
  | c :: rest => if c = 'u' then unicodeEscape? rest else (simpleEscape? c).map (·, rest)

theorem length_of_hexUnit? {s rest : Text} {n : Nat} (h : hexUnit? s = some (n, rest)) :
    rest.length < s.length := by
  unfold hexUnit? at h
  split at h
  case h_1 =>
    obtain ⟨_, _, heq⟩ := Option.map_eq_some_iff.1 h
    cases heq
    simp only [List.length_cons]
    omega
  case h_2 => cases h

theorem length_of_lowSurrogate? {s rest : Text} {n : Nat} (h : lowSurrogate? s = some (n, rest)) :
    rest.length < s.length := by
  unfold lowSurrogate? at h
  split at h
  case h_1 =>
    have := length_of_hexUnit? (Option.filter_eq_some_iff.1 h).1
    simp only [List.length_cons]
    omega
  case h_2 => cases h

theorem length_of_unicodeEscape? {s rest : Text} {c : Char}
    (h : unicodeEscape? s = some (c, rest)) : rest.length < s.length := by
  unfold unicodeEscape? at h
  split at h
  case h_1 => cases h
  case h_2 unit after hunit =>
    split at h
    · obtain ⟨⟨low, final⟩, hlow, heq⟩ := Option.map_eq_some_iff.1 h
      have hrest : final = rest := (Prod.mk.inj heq).2
      rw [← hrest]
      exact Nat.lt_trans (length_of_lowSurrogate? hlow) (length_of_hexUnit? hunit)
    · split at h
      · cases h
      · have hrest : after = rest := (Prod.mk.inj (Option.some.inj h)).2
        rw [← hrest]
        exact length_of_hexUnit? hunit

theorem length_of_escape? {s rest : Text} {c : Char} (h : escape? s = some (c, rest)) :
    rest.length < s.length := by
  unfold escape? at h
  split at h
  case h_1 => cases h
  case h_2 d more =>
    split at h
    · exact Nat.lt_succ_of_lt (length_of_unicodeEscape? h)
    · obtain ⟨_, _, heq⟩ := Option.map_eq_some_iff.1 h
      cases heq
      exact Nat.lt_succ_self _

/-- A string behind its opening quote, and what follows its closing quote. -/
def string? : Text → Option (Text × Text)
  | [] => none
  | c :: rest =>
      if c = '"' then some ([], rest)
      else if c = '\\' then
        match _hesc : escape? rest with
        | none => none
        | some (d, after) => (string? after).map fun (t, r) => (d :: t, r)
      else if c.toNat < 0x20 then none
      else (string? rest).map fun (t, r) => (c :: t, r)
termination_by s => s.length
decreasing_by
  · have := length_of_escape? _hesc
    simp only [List.length_cons]
    omega
  · simp

/-! ## Arrays and objects -/

/-- Items up to the closing bracket, each read by `item`. -/
def items? (item : Text → Option (Value × Text)) (s : Text) : Option (List Value × Text) :=
  match item s with
  | none => none
  | some (v, rest) =>
      match skipBlanks rest with
      | ']' :: after => some ([v], after)
      | ',' :: more =>
          if more.length < s.length then (items? item more).map fun (vs, r) => (v :: vs, r)
          else none
      | _ => none
termination_by s.length

/-- An array behind its opening bracket. -/
def array? (item : Text → Option (Value × Text)) (s : Text) : Option (Value × Text) :=
  match skipBlanks s with
  | ']' :: after => some (.array [], after)
  | body => (items? item body).map fun (vs, r) => (.array vs, r)

/-- A key, a colon and a value. -/
def member? (item : Text → Option (Value × Text)) (s : Text) : Option ((Text × Value) × Text) :=
  match skipBlanks s with
  | '"' :: body => do
      let (key, rest) ← string? body
      match skipBlanks rest with
      | ':' :: more =>
          let (v, after) ← item more
          pure ((key, v), after)
      | _ => none
  | _ => none

/-- Members up to the closing brace, put in after those in `found`. -/
def members? (item : Text → Option (Value × Text)) (found : Members) (s : Text) :
    Option (Members × Text) :=
  match member? item s with
  | none => none
  | some ((key, v), rest) =>
      match skipBlanks rest with
      | '\x7d' :: after => some (found.insert key v, after)
      | ',' :: more =>
          if more.length < s.length then members? item (found.insert key v) more else none
      | _ => none
termination_by s.length

/-- An object behind its opening brace. -/
def object? (item : Text → Option (Value × Text)) (s : Text) : Option (Value × Text) :=
  match skipBlanks s with
  | '\x7d' :: after => some (.object [], after)
  | body => (members? item [] body).map fun (ms, r) => (.object ms, r)

/-! ## Values -/

/-- A word that stands for a value. -/
def word? (word : Text) (v : Value) (s : Text) : Option (Value × Text) :=
  if word.isPrefixOf s then some (v, s.drop word.length) else none

/-- A value that is no array and no object. -/
def scalar? (s : Text) : Option (Value × Text) :=
  match s with
  | '"' :: rest => (string? rest).map fun (t, r) => (.string t, r)
  | 'n' :: _ => word? ['n', 'u', 'l', 'l'] .null s
  | 't' :: _ => word? ['t', 'r', 'u', 'e'] (.boolean true) s
  | 'f' :: _ => word? ['f', 'a', 'l', 's', 'e'] (.boolean false) s
  | _ => (number? s).map fun (n, r) => (.number n, r)

/-- A value in which arrays and objects nest at most `depth` deep, and the rest of the text. -/
def value? : Nat → Text → Option (Value × Text)
  | 0, s => scalar? (skipBlanks s)
  | depth + 1, s =>
      match skipBlanks s with
      | '[' :: rest => array? (value? depth) rest
      | '\x7b' :: rest => object? (value? depth) rest
      | other => scalar? other

/-- How deep arrays and objects may nest. -/
def depthLimit : Nat := 127

/-- The value whose text is the whole of `s`, blanks around it aside. -/
def read? (s : Text) : Option Value :=
  match value? depthLimit s with
  | some (v, rest) => if (skipBlanks rest).isEmpty then some v else none
  | none => none

end Json
end RecordFilter
