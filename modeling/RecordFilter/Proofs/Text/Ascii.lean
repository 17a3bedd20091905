import RecordFilter.Text.Search
import RecordFilter.Text.Blank

/-!
# Ascii — deciding what holds of each character below 128

A property of the ASCII characters is decided by trying all of them (`of_ascii`).  The classes that
the readers test, digits, letters and the blanks around signs, lie in that range.
-/

namespace RecordFilter
namespace Text

variable {c : Char}

theorem of_ascii {p : Char → Bool} (h : ∀ n : Fin 0x80, p (Char.ofNat n) = true)
    (hc : c.toNat < 0x80) : p c = true := by
  have hself : Char.ofNat c.toNat = c := Char.ofNat_toNat c
  have hcase := h ⟨c.toNat, hc⟩
  rwa [hself] at hcase

theorem toNat_lt_of_isDigit (h : c.isDigit = true) : c.toNat < 0x80 := by
  have hrange := Char.isDigit_iff_toNat.1 h
  exact Nat.lt_of_le_of_lt hrange.2 (by decide)

theorem toNat_lt_of_isUpper (h : c.isUpper = true) : c.toNat < 0x80 := by
  have hrange : c.val ≥ 'A'.val ∧ c.val ≤ 'Z'.val := of_decide_eq_true h
  have hle : c.toNat ≤ 90 := UInt32.le_iff_toNat_le.1 hrange.2
  omega

theorem toNat_lt_of_isLower (h : c.isLower = true) : c.toNat < 0x80 := by
  have hrange : c.val ≥ 'a'.val ∧ c.val ≤ 'z'.val := by
    have hboth := Bool.and_eq_true_iff.1 h
    exact ⟨of_decide_eq_true hboth.1, of_decide_eq_true hboth.2⟩
  have hle : c.toNat ≤ 122 := UInt32.le_iff_toNat_le.1 hrange.2
  omega

theorem toNat_lt_of_isAlpha (h : c.isAlpha = true) : c.toNat < 0x80 := by
  rcases Bool.or_eq_true_iff.1 h with hupper | hlower
  · exact toNat_lt_of_isUpper hupper
  · exact toNat_lt_of_isLower hlower

theorem toNat_lt_of_isAlphanum (h : c.isAlphanum = true) : c.toNat < 0x80 := by
  rcases Bool.or_eq_true_iff.1 h with halpha | hdigit
  · exact toNat_lt_of_isAlpha halpha
  · exact toNat_lt_of_isDigit hdigit

theorem toLower_of_not_ascii (h : 0x80 ≤ c.toNat) : c.toLower = c := by
  unfold Char.toLower
  split
  case isTrue hupper =>
    have hle : c.toNat ≤ 90 := UInt32.le_iff_toNat_le.1 hupper.2
    omega
  case isFalse => rfl

/-- Blanks below 128 continue no word. -/
theorem isWordChar_of_ascii_blank (hc : isBlank c = true) (hascii : c.toNat < 0x80) :
    isWordChar c = false := by
  have hall : ∀ n : Fin 0x80, (!isBlank (Char.ofNat n) || !isWordChar (Char.ofNat n)) = true := by
    decide
  have hcase := of_ascii (p := fun c => !isBlank c || !isWordChar c) hall hascii
  simpa [hc] using hcase

theorem isBlank_of_isAsciiBlank (h : isAsciiBlank c = true) : isBlank c = true := by
  simp only [isAsciiBlank, Bool.or_eq_true, beq_iff_eq] at h
  rcases h with (((rfl | rfl) | rfl) | rfl) | rfl <;> rfl

end Text
end RecordFilter
