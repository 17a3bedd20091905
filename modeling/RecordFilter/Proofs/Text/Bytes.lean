import RecordFilter.Proofs.Text.Ascii
import RecordFilter.Proofs.Text.Occurrences
import RecordFilter.Proofs.Text.Order

/-!
# Bytes — what is found in a text and what is found in its bytes

No byte inside a character begins one (`exists_first_byte`), and the bytes of one character never begin
those of another.  So the bytes of a text stand in those of another only where the text itself stands,
from one character to another (`mem_offsets_iff_bytes`).  Whether a character belongs to a word can be
told from each of its bytes (`isWordByte_of_mem`).
-/

namespace RecordFilter
namespace Text

variable {a b s needle hay word : Text} {c d : Char} {i j n : Nat} {p q : List Nat}

/-! ## The bytes of pieces -/

@[simp] theorem bytes_nil : bytes [] = [] := rfl

@[simp] theorem bytes_cons (c : Char) (s : Text) : bytes (c :: s) = charBytes c ++ bytes s := rfl

@[simp] theorem bytes_append (a b : Text) : bytes (a ++ b) = bytes a ++ bytes b :=
  List.flatMap_append

theorem length_charBytes (c : Char) : (charBytes c).length = c.utf8Size := by
  rw [charBytes, List.length_map, String.length_utf8EncodeChar]

theorem length_bytes (s : Text) : (bytes s).length = byteSize s := by
  induction s with
  | nil => rfl
  | cons c s ih => rw [bytes_cons, List.length_append, length_charBytes, ih, byteSize_cons]

/-! ## Where characters begin -/

/-- Whether a byte goes on with a character that a byte before it begins. -/
def continuesChar (n : Nat) : Bool := 128 ≤ n && n < 192

/-- Of the bytes of a character the first begins it, and the others go on with it. -/
theorem exists_first_byte (c : Char) : ∃ first more, charBytes c = first :: more ∧
    continuesChar first = false ∧ ∀ n ∈ more, continuesChar n = true := by
  have hc : c.toNat < 0x110000 := toNat_lt c
  have hmore : ∀ n, continuesChar (n % 64 + 128) = true := by
    intro n
    simp only [continuesChar, Bool.and_eq_true, decide_eq_true_eq]
    omega
  have hfirst : ∀ n, n < 128 ∨ 192 ≤ n → continuesChar n = false := by
    intro n hn
    rw [continuesChar, Bool.and_eq_false_iff, decide_eq_false_iff_not, decide_eq_false_iff_not]
    omega
  rw [charBytes_eq]
  split_ifs
  · exact ⟨_, [], rfl, hfirst _ (by omega), by simp⟩
  · exact ⟨_, _, rfl, hfirst _ (by omega), by simp [hmore]⟩
  · exact ⟨_, _, rfl, hfirst _ (by omega), by simp [hmore]⟩
  · exact ⟨_, _, rfl, hfirst _ (by omega), by simp [hmore]⟩

/-- Before a byte that begins a character the text can be cut. -/
theorem exists_of_bytes_eq (hn : continuesChar n = false) (h : bytes s = p ++ n :: q) :
    ∃ a b, s = a ++ b ∧ bytes a = p ∧ bytes b = n :: q := by
  induction s generalizing p with
  | nil => simp at h
  | cons c s ih =>
      cases p with
      | nil => exact ⟨[], c :: s, rfl, rfl, h⟩
      | cons first p =>
          rcases exists_first_byte c with ⟨first', more, hc, -, hmore⟩
          rw [bytes_cons, hc, List.cons_append, List.cons_append] at h
          rcases List.cons.inj h with ⟨rfl, htail⟩
          rcases List.append_eq_append_iff.1 htail with ⟨p', rfl, hs⟩ | ⟨more', rfl, hq⟩
          · rcases ih hs with ⟨a, b, rfl, ha, hb⟩
            exact ⟨c :: a, b, rfl, by rw [bytes_cons, hc, ha, List.cons_append], hb⟩
          · cases more' with
            | nil =>
                rcases ih (p := []) hq.symm with ⟨a, b, rfl, ha, hb⟩
                refine ⟨c :: a, b, rfl, ?_, hb⟩
                rw [bytes_cons, hc, ha]
                simp
            | cons m more' =>
                -- the byte would go on with `c`
                rcases List.cons.inj hq with ⟨rfl, -⟩
                rw [hmore n (by simp)] at hn
                cases hn

/-- The bytes of a text begin with those of another only if the text does. -/
theorem prefix_of_bytes_prefix (h : bytes a <+: bytes b) : a <+: b := by
  induction a generalizing b with
  | nil => exact List.nil_prefix
  | cons c a ih =>
      rcases h with ⟨rest, hrest⟩
      rw [bytes_cons, List.append_assoc] at hrest
      cases b with
      | nil =>
          rw [bytes_nil, List.append_eq_nil_iff] at hrest
          exact absurd hrest.1 (charBytes_ne_nil c)
      | cons d b =>
          rw [bytes_cons] at hrest
          -- where the characters differ, so do the bytes
          rcases Nat.lt_trichotomy c.toNat d.toNat with hlt | heq | hgt
          · exact absurd hrest (charBytes_append_lt hlt _ _).ne
          · rcases Char.toNat_inj.1 heq with rfl
            exact List.cons_prefix_cons.2 ⟨rfl, ih ⟨rest, List.append_cancel_left hrest⟩⟩
          · exact absurd hrest.symm (charBytes_append_lt hgt _ _).ne

/-- A text stands at byte `i` of another just where its bytes do. -/
theorem mem_offsets_iff_bytes (hn : needle ≠ []) :
    i ∈ offsets needle hay ↔ bytes needle <+: (bytes hay).drop i := by
  rw [mem_offsets_iff hn]
  constructor
  · rintro ⟨a, b, rfl, rfl⟩
    rw [bytes_append, bytes_append, List.append_assoc, ← length_bytes, List.drop_left]
    exact List.prefix_append _ _
  · rintro ⟨rest, hrest⟩
    rcases List.exists_cons_of_ne_nil hn with ⟨c, needle', rfl⟩
    rcases exists_first_byte c with ⟨first, more, hc, hfirst, -⟩
    have hdrop : (bytes hay).drop i = first :: (more ++ bytes needle' ++ rest) := by
      rw [← hrest, bytes_cons, hc]
      rfl
    have hsplit : bytes hay = (bytes hay).take i ++ first :: (more ++ bytes needle' ++ rest) := by
      rw [← hdrop, List.take_append_drop]
    rcases exists_of_bytes_eq hfirst hsplit with ⟨a, b, rfl, ha, hb⟩
    have hprefix : c :: needle' <+: b := by
      refine prefix_of_bytes_prefix ⟨rest, ?_⟩
      rw [hb, bytes_cons, hc]
      simp
    rcases hprefix with ⟨b, rfl⟩
    have hi : i ≤ (bytes (a ++ (c :: needle' ++ b))).length := by
      by_contra hlong
      rw [List.drop_eq_nil_of_le (by omega)] at hrest
      simp [charBytes_ne_nil] at hrest
    refine ⟨a, b, by simp, ?_⟩
    rw [← length_bytes, ha, List.length_take, Nat.min_eq_left hi]

/-! ## The character that holds a byte -/

/-- Each byte of a text lies in one of its characters. -/
theorem exists_char_at (h : j < byteSize s) :
    ∃ a c b, s = a ++ c :: b ∧ byteSize a ≤ j ∧ j < byteSize (a ++ [c]) := by
  induction s generalizing j with
  | nil => simp at h
  | cons c s ih =>
      rw [byteSize_cons] at h
      by_cases hfirst : j < c.utf8Size
      · exact ⟨[], c, s, rfl, by simp, by simpa using hfirst⟩
      · rcases ih (j := j - c.utf8Size) (by omega) with ⟨a, d, b, rfl, hle, hlt⟩
        refine ⟨c :: a, d, b, rfl, ?_, ?_⟩
        · rw [byteSize_cons]
          omega
        · rw [List.cons_append, byteSize_cons]
          omega

/-- The character that holds the first byte of `c` is `c`. -/
theorem eq_of_char_at {a' b' : Text} (h : a ++ c :: b = a' ++ d :: b')
    (hle : byteSize a' ≤ byteSize a) (hlt : byteSize a < byteSize (a' ++ [d])) : a = a' ∧ c = d := by
  have hsame : byteSize a = byteSize a' := by
    rcases List.append_eq_append_iff.1 h with ⟨x, rfl, -⟩ | ⟨x, rfl, hrest⟩
    · rw [byteSize_append] at hle ⊢
      omega
    · cases x with
      | nil => simp
      | cons x more =>
          -- `d` would stand before `c`
          rcases List.cons.inj hrest with ⟨rfl, -⟩
          simp only [byteSize_append, byteSize_cons, byteSize_nil] at hlt
          omega
  rcases append_inj_of_byteSize h hsame with ⟨ha, hrest⟩
  exact ⟨ha, (List.cons.inj hrest).1⟩

/-! ## Bytes of words -/

/-- An ASCII letter, digit or underscore, or a byte of a character beyond ASCII. -/
def isWordByte (n : Nat) : Bool :=
  (48 ≤ n && n ≤ 57) || (65 ≤ n && n ≤ 90) || n == 95 || (97 ≤ n && n ≤ 122) || 128 ≤ n

theorem isWordByte_toNat (hc : c.toNat < 0x80) : isWordByte c.toNat = isWordChar c := by
  have hall : ∀ n : Fin 0x80,
      (isWordByte (Char.ofNat n).toNat == isWordChar (Char.ofNat n)) = true := by
    decide
  exact beq_iff_eq.1 (of_ascii (p := fun c => isWordByte c.toNat == isWordChar c) hall hc)

/-- Each byte of a character tells whether the character belongs to a word. -/
theorem isWordByte_of_mem (hn : n ∈ charBytes c) : isWordByte n = isWordChar c := by
  have hbeyond : 128 ≤ c.toNat → 128 ≤ n → isWordByte n = isWordChar c := by
    intro hc hn
    simp [isWordByte, isWordChar, hc, hn]
  rw [charBytes_eq] at hn
  split_ifs at hn with hascii
  · rw [List.mem_singleton.1 hn]
    exact isWordByte_toNat (by omega)
  all_goals
    refine hbeyond (by omega) ?_
    simp only [List.mem_cons, List.not_mem_nil, or_false] at hn
    omega

theorem getLast?_bytes_any (s : Text) :
    (bytes s).getLast?.any isWordByte = s.getLast?.any isWordChar := by
  rcases List.eq_nil_or_concat s with rfl | ⟨front, c, rfl⟩
  · rfl
  · rcases List.eq_nil_or_concat (charBytes c) with hnil | ⟨init, n, hc⟩
    · exact absurd hnil (charBytes_ne_nil c)
    · have hn : isWordByte n = isWordChar c := isWordByte_of_mem (by rw [hc]; simp)
      rw [List.concat_eq_append] at hc ⊢
      rw [bytes_append, bytes_cons, bytes_nil, List.append_nil, hc, ← List.append_assoc,
        List.getLast?_concat, List.getLast?_concat, Option.any_some, Option.any_some, hn]

theorem head?_bytes_any (s : Text) :
    (bytes s).head?.any isWordByte = s.head?.any isWordChar := by
  cases s with
  | nil => rfl
  | cons c s =>
      rcases List.exists_cons_of_ne_nil (charBytes_ne_nil c) with ⟨n, more, hc⟩
      have hn : isWordByte n = isWordChar c := isWordByte_of_mem (by rw [hc]; simp)
      rw [bytes_cons, hc, List.cons_append, List.head?_cons, List.head?_cons, Option.any_some,
        Option.any_some, hn]

/-- The `n` bytes from byte `i` on have no byte of a word right before or behind them. -/
def WordBounded (i n : Nat) (s : Text) : Prop :=
  ∀ j, j + 1 = i ∨ j = i + n → (bytes s)[j]?.any isWordByte = false

theorem wordBounded_iff : WordBounded (byteSize a) (byteSize word) (a ++ word ++ b) ↔
    a.getLast?.any isWordChar = false ∧ b.head?.any isWordChar = false := by
  rw [← getLast?_bytes_any, ← head?_bytes_any, WordBounded]
  have hbefore : ∀ j, j + 1 = byteSize a →
      (bytes (a ++ word ++ b))[j]? = (bytes a).getLast? := by
    intro j hj
    rw [List.append_assoc, bytes_append, List.getElem?_append_left (by rw [length_bytes]; omega),
      List.getLast?_eq_getElem?, length_bytes, ← hj, Nat.add_sub_cancel]
  have hbehind : (bytes (a ++ word ++ b))[byteSize a + byteSize word]? = (bytes b).head? := by
    have hsize : byteSize a + byteSize word = (bytes (a ++ word)).length := by
      rw [length_bytes, byteSize_append]
    rw [bytes_append, hsize, List.getElem?_append_right (Nat.le_refl _), Nat.sub_self,
      List.head?_eq_getElem?]
  constructor
  · intro h
    refine ⟨?_, by rw [← hbehind]; exact h _ (Or.inr rfl)⟩
    cases hsize : byteSize a with
    | zero =>
        have hnil : bytes a = [] := List.eq_nil_of_length_eq_zero (by rw [length_bytes, hsize])
        rw [hnil]
        rfl
    | succ j =>
        rw [← hbefore j hsize.symm]
        exact h j (Or.inl hsize.symm)
  · rintro ⟨hfront, hback⟩ j (hj | rfl)
    · rw [hbefore j hj, hfront]
    · rw [hbehind, hback]

end Text
end RecordFilter
