import RecordFilter.Proofs.Number.Shape
import RecordFilter.Proofs.Text.Spans
import RecordFilter.Number.Notation

/-!
# Notation — the characters of a number that is written

Whatever the number, its text has digits, signs, points and the letters of exponents, infinities and
NaN in it (`isNumberChar_of_mem_floatText`), so no blank and no control character
(`toNat_gt_of_isNumberChar`).
-/

namespace RecordFilter
namespace Number

open Text

variable {c : Char} {m n : Nat} {s t : Text}

theorem toNat_gt_of_isNumberChar (h : isNumberChar c = true) : 0x20 < c.toNat := by
  have hmarks : ∀ c ∈ "+-.eE".toList, 0x20 < c.toNat := by decide
  have hletters : ∀ c ∈ wordLetters, 0x20 < c.toNat := by decide
  simp only [isNumberChar, Bool.or_eq_true] at h
  rcases h with (hdigit | hmark) | hletter
  · exact Nat.lt_of_lt_of_le (by decide) (Char.isDigit_iff_toNat.1 hdigit).1
  · exact hmarks c (List.contains_iff_mem.1 hmark)
  · exact hletters c (List.contains_iff_mem.1 hletter)

/-! ## Integers -/

theorem isDigit_of_mem_natText {n : Nat} (h : c ∈ natText n) : c.isDigit = true :=
  Nat.isDigit_of_mem_toDigits (by decide) (by decide) h

theorem natText_injective (h : natText m = natText n) : m = n := by
  have hvalue := congrArg (fun digits => Nat.ofDigitChars 10 digits 0) h
  simpa only [natText, Nat.ofDigitChars_ten_toDigits] using hvalue

/-- Where a number in base ten ends, it is determined by its text, and so is what follows. -/
theorem natText_append_inj (h : natText m ++ s = natText n ++ t)
    (hs : ∀ c, s.head? = some c → c.isDigit = false)
    (ht : ∀ c, t.head? = some c → c.isDigit = false) : m = n ∧ s = t := by
  have hdigits : ∀ n, ∀ c ∈ natText n, c.isDigit = true := fun _ _ hc => isDigit_of_mem_natText hc
  have hfront := congrArg (List.takeWhile Char.isDigit) h
  have hback := congrArg (List.dropWhile Char.isDigit) h
  rw [takeWhile_append_of_all (hdigits m) hs, takeWhile_append_of_all (hdigits n) ht] at hfront
  rw [dropWhile_append_of_all (hdigits m) hs, dropWhile_append_of_all (hdigits n) ht] at hback
  exact ⟨natText_injective hfront, hback⟩

theorem isNumberChar_of_mem_natText {n : Nat} (h : c ∈ natText n) : isNumberChar c = true :=
  isNumberChar_of_isDigit (isDigit_of_mem_natText h)

theorem isNumberChar_of_mem_intText {n : Int} (h : c ∈ intText n) : isNumberChar c = true := by
  cases n with
  | ofNat n => exact isNumberChar_of_mem_natText h
  | negSucc n =>
      rcases List.mem_cons.1 h with rfl | hdigits
      · rfl
      · exact isNumberChar_of_mem_natText hdigits

/-! ## Floats -/

theorem Decimal.isNumberChar_of_mem_text (d : Decimal) : ∀ c ∈ d.text, isNumberChar c = true := by
  have hdigits : ∀ c ∈ natText d.digits, isNumberChar c = true := by
    intro c hc
    exact isNumberChar_of_mem_natText hc
  have htake : ∀ n, ∀ c ∈ (natText d.digits).take n, isNumberChar c = true := by
    intro n c hc
    exact hdigits c (List.mem_of_mem_take hc)
  have hdrop : ∀ n, ∀ c ∈ (natText d.digits).drop n, isNumberChar c = true := by
    intro n c hc
    exact hdigits c (List.mem_of_mem_drop hc)
  have hzeros : ∀ n, ∀ c ∈ List.replicate n '0', isNumberChar c = true := by
    intro n c hc
    rw [List.eq_of_mem_replicate hc]
    rfl
  unfold Decimal.text
  dsimp only
  split
  case isTrue =>
    split
    case isTrue =>
      exact List.forall_mem_append.2 ⟨List.forall_mem_append.2 ⟨hdigits, hzeros _⟩, by decide⟩
    case isFalse =>
      split
      case isTrue =>
        exact List.forall_mem_append.2 ⟨htake _, List.forall_mem_cons.2 ⟨rfl, hdrop _⟩⟩
      case isFalse =>
        exact List.forall_mem_append.2 ⟨List.forall_mem_append.2 ⟨by decide, hzeros _⟩, hdigits⟩
  case isFalse =>
    -- an exponent: one digit, the point with the others if there are others, the mark and its sign
    refine List.forall_mem_append.2 ⟨List.forall_mem_append.2 ⟨htake 1, ?_⟩,
      List.forall_mem_cons.2 ⟨rfl, List.forall_mem_cons.2 ⟨?_, ?_⟩⟩⟩
    · split
      case isTrue => simp
      case isFalse => exact List.forall_mem_cons.2 ⟨rfl, hdrop 1⟩
    · split
      case isTrue => rfl
      case isFalse => rfl
    · intro c hc
      exact isNumberChar_of_mem_natText hc

theorem isNumberChar_of_mem_floatText (x : Float) : ∀ c ∈ floatText x, isNumberChar c = true := by
  unfold floatText
  split
  case h_1 b _ =>
    have hbody : ∀ c ∈ (if b.significand = 0 then ['0', '.', '0'] else (Decimal.shortest b).text),
        isNumberChar c = true := by
      split
      case isTrue => decide
      case isFalse => exact Decimal.isNumberChar_of_mem_text _
    dsimp only
    split
    case isTrue => exact List.forall_mem_cons.2 ⟨rfl, hbody⟩
    case isFalse => exact hbody
  case h_2 =>
    split
    case isTrue => decide
    case isFalse =>
      split
      case isTrue => decide
      case isFalse => decide

end Number
end RecordFilter
