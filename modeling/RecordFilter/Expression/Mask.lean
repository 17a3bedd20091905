import RecordFilter.Text.Search

/-!
# Mask — which characters of an expression are structure

An expression is read from left to right by a small machine, `Scan`, that knows whether it stands
in a quoted literal and how many parentheses are open.  A mask replaces each hidden character by
as many NUL characters as it has bytes, so positions in the mask are positions in the expression.

* `maskQuotes` hides quoted literals;
* `maskGroups` hides quoted literals and everything between parentheses.

A doubled quote inside a literal closes it and opens it again, which hides both marks and leaves
the machine in the same state as an escaped quote would.
-/

namespace RecordFilter
namespace Expression

/-- Where the reader stands with respect to quoted literals. -/
inductive Zone where
  | plain
  | single
  | double
  deriving DecidableEq, Repr

/-- The state of the reader: its zone, and the open minus the closed parentheses outside literals.
The depth is negative after a parenthesis that closes nothing. -/
structure Scan where
  zone : Zone
  depth : Int
  deriving DecidableEq, Repr

namespace Scan

/-- Outside literals and parentheses. -/
def start : Scan := ⟨.plain, 0⟩

/-- Reads one character. -/
def advance (q : Scan) (c : Char) : Scan :=
  match q.zone with
  | .plain =>
      if c = '\'' then { q with zone := .single }
      else if c = '"' then { q with zone := .double }
      else if c = '(' then { q with depth := q.depth + 1 }
      else if c = ')' then { q with depth := q.depth - 1 }
      else q
  | .single => if c = '\'' then { q with zone := .plain } else q
  | .double => if c = '"' then { q with zone := .plain } else q

/-- Reads a text. -/
def run (q : Scan) (s : Text) : Scan := s.foldl advance q

/-- Whether the next character `c` belongs to a quoted literal, its marks included. -/
def quotes (q : Scan) (c : Char) : Bool :=
  q.zone != .plain || c == '\'' || c == '"'

/-- Whether the next character `c` belongs to a quoted literal or to a group. -/
def encloses (q : Scan) (c : Char) : Bool :=
  q.quotes c || c == '(' || 0 < q.depth

/-- Whether some initial piece of the text closes more parentheses than are open. -/
def dips (q : Scan) : Text → Bool
  | [] => false
  | c :: rest => (q.advance c).depth < 0 || (q.advance c).dips rest

@[simp] theorem run_nil (q : Scan) : q.run [] = q := rfl

@[simp] theorem run_cons (q : Scan) (c : Char) (rest : Text) :
    q.run (c :: rest) = (q.advance c).run rest := rfl

@[simp] theorem run_append (q : Scan) (a b : Text) : q.run (a ++ b) = (q.run a).run b := by
  simp [run]

end Scan

/-! ## Masks -/

/-- Replaces each character that `hides` picks out by as many NUL characters as it has bytes. -/
def mask (hides : Scan → Char → Bool) (q : Scan) : Text → Text
  | [] => []
  | c :: rest =>
      (if hides q c then List.replicate c.utf8Size '\x00' else [c]) ++ mask hides (q.advance c) rest

/-- Hides quoted literals. -/
def maskQuotes (s : Text) : Text := mask Scan.quotes .start s

/-- Hides quoted literals and groups in parentheses. -/
def maskGroups (s : Text) : Text := mask Scan.encloses .start s

theorem mask_append (hides : Scan → Char → Bool) (q : Scan) (a b : Text) :
    mask hides q (a ++ b) = mask hides q a ++ mask hides (q.run a) b := by
  induction a generalizing q with
  | nil => rfl
  | cons c rest ih => simp [mask, ih]

private theorem byteSize_replicate_nul (n : Nat) :
    Text.byteSize (List.replicate n '\x00') = n := by
  induction n with
  | zero => rfl
  | succ n ih =>
      have : Char.utf8Size '\x00' = 1 := rfl
      simp [List.replicate_succ, ih, this, Nat.add_comm]

theorem byteSize_mask (hides : Scan → Char → Bool) (q : Scan) (s : Text) :
    Text.byteSize (mask hides q s) = Text.byteSize s := by
  induction s generalizing q with
  | nil => rfl
  | cons c rest ih =>
      by_cases h : hides q c <;> simp [mask, h, ih, byteSize_replicate_nul]

/-! ## Depth -/

/-- Open minus closed parentheses outside literals. -/
def depth (s : Text) : Int := (Scan.start.run s).depth

/-- Whether some parenthesis outside literals closes nothing. -/
def dips (s : Text) : Bool := Scan.start.dips s

/-- Every parenthesis outside literals has its partner. -/
def Balanced (s : Text) : Prop := depth s = 0 ∧ dips s = false

instance (s : Text) : Decidable (Balanced s) := inferInstanceAs (Decidable (_ ∧ _))

/-- No literal is left open at the end. -/
def QuoteClosed (s : Text) : Prop := (Scan.start.run s).zone = .plain

instance (s : Text) : Decidable (QuoteClosed s) := inferInstanceAs (Decidable (_ = _))

/-! ## Positions outside literals and groups -/

/-- Offset of the first occurrence of `token` outside literals and groups. -/
def firstIndex? (token s : Text) : Option Nat :=
  (Text.occurrences token (maskGroups s)).head?.map (·.offset)

/-- Offset of the last occurrence of `word`, as a whole word, outside literals and groups. -/
def lastWord? (word s : Text) : Option Nat :=
  (Text.occurrences word (maskGroups s)).reverse.find? (·.isWordBounded) |>.map (·.offset)

/-- Whether `word` occurs as a whole word outside literals, in a group or not. -/
def mentions (word s : Text) : Bool :=
  (Text.occurrences word (maskQuotes s)).any (·.isWordBounded)

end Expression
end RecordFilter
