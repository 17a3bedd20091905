import Mathlib.Data.List.Lex
import RecordFilter.Text.Order

/-!
# Order — texts by code point and by their bytes

Of two texts one comes first, or they are the same (`before_trichotomy`).  The order of texts by code
point is the order of their bytes in UTF-8 (`bytes_lt_iff`): where two characters differ, so do their
bytes, and the first bytes that differ decide like the code points (`charBytes_append_lt`).
-/

namespace RecordFilter
namespace Text

variable {a b c : Text}

/-! ## Before -/

theorem Before.trans (hab : Before a b) (hbc : Before b c) : Before a c :=
  List.lex_trans (fun h h' => Nat.lt_trans h h') hab hbc

theorem Before.ne (h : Before a b) : a ≠ b := by
  intro hab
  subst hab
  exact List.lex_irrefl (fun c => Nat.lt_irrefl c.toNat) a h

/-- Of two texts one comes first, or they are the same. -/
theorem before_trichotomy (a b : Text) : Before a b ∨ a = b ∨ Before b a := by
  cases h : order a b with
  | lt => exact Or.inl (order_eq_lt_iff.1 h)
  | eq => exact Or.inr (Or.inl (order_eq_iff.1 h))
  | gt => exact Or.inr (Or.inr (order_eq_gt_iff.1 h))

/-! ## Bytes -/

/-- The bytes of a character in UTF-8. -/
def charBytes (c : Char) : List Nat := (String.utf8EncodeChar c).map UInt8.toNat

/-- The bytes of a text in UTF-8. -/
def bytes (s : Text) : List Nat := s.flatMap charBytes

theorem charBytes_ne_nil (c : Char) : charBytes c ≠ [] := by
  simp [charBytes, String.utf8EncodeChar_ne_nil]

theorem toNat_lt (c : Char) : c.toNat < 0x110000 := by
  rcases c.valid with h | h
  · exact Nat.lt_trans h (by decide)
  · exact h.2

/-- The bytes of a character are made of its code point, six bits in each byte but the first. -/
theorem charBytes_eq (c : Char) : charBytes c =
    if c.toNat ≤ 127 then [c.toNat]
    else if c.toNat ≤ 2047 then [c.toNat / 64 + 192, c.toNat % 64 + 128]
    else if c.toNat ≤ 65535 then [c.toNat / 4096 + 224, c.toNat / 64 % 64 + 128, c.toNat % 64 + 128]
    else [c.toNat / 262144 + 240, c.toNat / 4096 % 64 + 128, c.toNat / 64 % 64 + 128,
      c.toNat % 64 + 128] := by
  have hc : c.toNat < 0x110000 := toNat_lt c
  have hbyte : ∀ n, n < 256 → (UInt8.ofNat n).toNat = n := by
    intro n hn
    rw [UInt8.toNat_ofNat', Nat.mod_eq_of_lt hn]
  have hval : c.val.toNat = c.toNat := rfl
  unfold charBytes String.utf8EncodeChar
  simp only [hval]
  split
  · rw [List.map_singleton, hbyte _ (by omega)]
  · split
    · simp only [List.map_cons, List.map_nil]
      rw [hbyte _ (by omega), hbyte _ (by omega), Nat.mod_eq_of_lt (by omega)]
    · split
      · simp only [List.map_cons, List.map_nil]
        rw [hbyte _ (by omega), hbyte _ (by omega), hbyte _ (by omega),
          Nat.mod_eq_of_lt (by omega : _ / 4096 < 16)]
      · simp only [List.map_cons, List.map_nil]
        rw [hbyte _ (by omega), hbyte _ (by omega), hbyte _ (by omega), hbyte _ (by omega),
          Nat.mod_eq_of_lt (by omega : _ / 262144 < 8)]

/-- The bytes of two characters decide like their code points, whatever follows.  The first byte of a
longer sequence is the greater one, and sequences of one length differ as numbers do. -/
theorem charBytes_append_lt {c d : Char} (h : c.toNat < d.toNat) (s t : List Nat) :
    charBytes c ++ s < charBytes d ++ t := by
  have hd : d.toNat < 0x110000 := toNat_lt d
  rw [charBytes_eq, charBytes_eq]
  split_ifs <;> simp only [List.cons_append, List.nil_append, List.cons_lt_cons_iff] <;> omega

theorem bytes_lt_of_before (h : Before a b) : bytes a < bytes b := by
  induction h with
  | @nil c rest =>
      cases hbytes : charBytes c with
      | nil => exact absurd hbytes (charBytes_ne_nil c)
      | cons n more =>
          rw [bytes, bytes, List.flatMap_cons, hbytes]
          exact List.Lex.nil
  | @cons c s t _ ih => exact List.Lex.append_left _ ih _
  | @rel c s d t hlt => exact charBytes_append_lt hlt _ _

/-- Comparing texts is comparing their bytes. -/
theorem bytes_lt_iff : bytes a < bytes b ↔ Before a b := by
  constructor
  · intro h
    rcases before_trichotomy a b with hab | rfl | hba
    · exact hab
    · exact absurd h (lt_irrefl _)
    · exact absurd (bytes_lt_of_before hba) (lt_asymm h)
  · exact bytes_lt_of_before

theorem bytes_injective : Function.Injective bytes := by
  intro a b h
  rcases before_trichotomy a b with hab | hab | hba
  · exact absurd h (bytes_lt_of_before hab).ne
  · exact hab
  · exact absurd h.symm (bytes_lt_of_before hba).ne

end Text
end RecordFilter
