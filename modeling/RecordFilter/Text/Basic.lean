/-!
# Text — characters, byte offsets and cuts

A text is the list of its characters.  Positions are offsets into its UTF-8 form, so this module
measures a text in bytes and cuts it at a byte offset.  The main facts: a cut loses nothing
(`takeBytes_append_dropBytes`), and a cut at the size of an initial piece gives back that piece
(`takeBytes_byteSize_append`, `dropBytes_byteSize_append`).
-/

namespace RecordFilter

/-- A text, as the list of its characters. -/
abbrev Text := List Char

namespace Text

/-! ## Size and cuts -/

/-- Length of the UTF-8 form in bytes. -/
def byteSize : Text → Nat
  | [] => 0
  | c :: rest => c.utf8Size + byteSize rest

/-- The longest initial piece whose UTF-8 form has at most `n` bytes. -/
def takeBytes : Nat → Text → Text
  | _, [] => []
  | n, c :: rest => if c.utf8Size ≤ n then c :: takeBytes (n - c.utf8Size) rest else []

/-- What `takeBytes` leaves over. -/
def dropBytes : Nat → Text → Text
  | _, [] => []
  | n, c :: rest => if c.utf8Size ≤ n then dropBytes (n - c.utf8Size) rest else c :: rest

@[simp] theorem byteSize_nil : byteSize [] = 0 := rfl

@[simp] theorem byteSize_cons (c : Char) (rest : Text) :
    byteSize (c :: rest) = c.utf8Size + byteSize rest := rfl

@[simp] theorem byteSize_append (a b : Text) : byteSize (a ++ b) = byteSize a + byteSize b := by
  induction a with
  | nil => simp
  | cons c rest ih => simp [ih, Nat.add_assoc]

theorem length_le_byteSize (s : Text) : s.length ≤ byteSize s := by
  induction s with
  | nil => simp
  | cons c rest ih =>
      have := c.utf8Size_pos
      simp only [List.length_cons, byteSize_cons]
      omega

theorem takeBytes_append_dropBytes (n : Nat) (s : Text) : takeBytes n s ++ dropBytes n s = s := by
  induction s generalizing n with
  | nil => rfl
  | cons c rest ih =>
      by_cases h : c.utf8Size ≤ n
      · simp [takeBytes, dropBytes, h, ih]
      · simp [takeBytes, dropBytes, h]

theorem dropBytes_zero (s : Text) : dropBytes 0 s = s := by
  cases s with
  | nil => rfl
  | cons c rest =>
      have := c.utf8Size_pos
      simp [dropBytes, Nat.not_le.mpr this]

theorem takeBytes_byteSize_append (a b : Text) : takeBytes (byteSize a) (a ++ b) = a := by
  induction a with
  | nil =>
      cases b with
      | nil => rfl
      | cons c rest =>
          have := c.utf8Size_pos
          simp [takeBytes, Nat.not_le.mpr this]
  | cons c rest ih => simp [takeBytes, ih]

theorem dropBytes_byteSize_append (a b : Text) : dropBytes (byteSize a) (a ++ b) = b := by
  induction a with
  | nil => simp [dropBytes_zero]
  | cons c rest ih => simp [dropBytes, ih]

/-- A text is cut in one way at one byte. -/
theorem append_inj_of_byteSize {a b a' b' : Text} (h : a ++ b = a' ++ b')
    (hsize : byteSize a = byteSize a') : a = a' ∧ b = b' := by
  have ha : a = a' := by
    have htake := congrArg (takeBytes (byteSize a)) h
    rwa [takeBytes_byteSize_append, hsize, takeBytes_byteSize_append] at htake
  subst ha
  exact ⟨rfl, List.append_cancel_left h⟩

theorem length_dropBytes_le (n : Nat) (s : Text) : (dropBytes n s).length ≤ s.length := by
  have whole := congrArg List.length (takeBytes_append_dropBytes n s)
  simp only [List.length_append] at whole
  omega

/-- The two sides of a token of `width` bytes that stands at byte `offset`. -/
def sidesOf (offset width : Nat) (s : Text) : Text × Text :=
  (takeBytes offset s, dropBytes width (dropBytes offset s))

theorem sidesOf_byteSize (a word b : Text) :
    sidesOf (byteSize a) (byteSize word) (a ++ word ++ b) = (a, b) := by
  rw [sidesOf, List.append_assoc, takeBytes_byteSize_append, dropBytes_byteSize_append,
    dropBytes_byteSize_append]

theorem length_sidesOf (offset width : Nat) (s : Text) :
    (sidesOf offset width s).1.length + (sidesOf offset width s).2.length ≤ s.length := by
  have whole := congrArg List.length (takeBytes_append_dropBytes offset s)
  have right := length_dropBytes_le width (dropBytes offset s)
  simp only [List.length_append] at whole
  simp only [sidesOf]
  omega

/-- The piece from byte `first` up to byte `last`; nothing if either lies inside a character. -/
def slice? (first last : Nat) (s : Text) : Option Text :=
  if byteSize (takeBytes first s) = first && byteSize (takeBytes last s) = last then
    some (dropBytes first (takeBytes last s))
  else none

/-! ## Joining -/

/-- The items with `separator` between each two neighbours. -/
def joinWith (separator : Text) : List Text → Text
  | [] => []
  | [item] => item
  | item :: rest => item ++ separator ++ joinWith separator rest

/-- Pads on the right with spaces to at least `width` characters. -/
def padRight (width : Nat) (s : Text) : Text :=
  s ++ List.replicate (width - s.length) ' '

/-- Whether all characters agree after ASCII letters are made small. -/
def equalsIgnoringCase (a b : Text) : Bool :=
  a.map Char.toLower == b.map Char.toLower

/-! ## Properties of all characters -/

/-- A text is finite, so a property of all its characters is decided one character at a time. -/
instance decidableForallMem {p : Char → Prop} [DecidablePred p] (s : Text) :
    Decidable (∀ c ∈ s, p c) := List.decidableBAll p s

end Text

end RecordFilter
