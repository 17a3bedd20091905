import Mathlib
import RecordFilter.Json.NumberReader
import RecordFilter.Proofs.Number.Notation
import RecordFilter.Proofs.Text.Spans

/-!
# Numbers — where a number in JSON text ends

The reader of numbers takes the longest number it can.  What it reads to the end of a text it also
reads where the text goes on, provided it goes on with no digit, point or mark of an exponent
(`number?_append`).  The text of an integer of 64 bits is read as that integer (`number?_intText`).
-/

namespace RecordFilter
namespace Json

open RecordFilter.Number (digitsValue takeSign natText intText)
open Text (takeWhile_append_stop dropWhile_append_stop)

variable {s t rest left : Text} {n : Number} {negative : Bool} {significand : Nat} {exponent : Int}

/-! ## What ends a number -/

/-- Whether a character may go on with a number behind a digit. -/
def continuesNumber (c : Char) : Bool := c.isDigit || c == '.' || c == 'e' || c == 'E'

/-- A text does not begin with a character that goes on with a number. -/
def Stops (rest : Text) : Prop := ∀ c, rest.head? = some c → continuesNumber c = false

theorem stops_nil : Stops [] := by
  intro c h
  cases h

theorem stops_cons {c : Char} (h : continuesNumber c = false) (rest : Text) : Stops (c :: rest) := by
  intro d hd
  cases hd
  exact h

theorem Stops.digit (h : Stops rest) : ∀ c, rest.head? = some c → c.isDigit = false := by
  intro c hc
  have hstop := h c hc
  simp only [continuesNumber, Bool.or_eq_false_iff] at hstop
  exact hstop.1.1.1

theorem Stops.marks {c : Char} (h : Stops (c :: rest)) : c ≠ '.' ∧ ¬(c = 'e' ∨ c = 'E') := by
  have hstop := h c rfl
  simp only [continuesNumber, Bool.or_eq_false_iff, beq_eq_false_iff_ne] at hstop
  exact ⟨hstop.1.1.2, fun hmark => hmark.elim hstop.1.2 hstop.2⟩

/-! ## Signs -/

theorem takeSign_append (h : s ≠ []) (rest : Text) :
    takeSign (s ++ rest) = ((takeSign s).1, (takeSign s).2 ++ rest) := by
  cases s with
  | nil => exact absurd rfl h
  | cons c s =>
      rw [List.cons_append, takeSign, takeSign]
      split
      case isTrue => rfl
      case isFalse =>
        split
        case isTrue => rfl
        case isFalse => rfl

/-! ## The steps of the reader -/

/-- What is read beside a rest of the text. -/
theorem map_rest_eq_some_iff {α : Type} {o : Option α} {a : α} :
    o.map (·, rest) = some (a, left) ↔ o = some a ∧ rest = left := by
  cases o with
  | none => simp
  | some b => simp

/-- Digits that a number may begin with: there is one, and no zero in front of others. -/
def BeginsNumber (whole : Text) : Prop :=
  ¬(whole.isEmpty || (whole.head? == some '0' && whole.length != 1)) = true

/-- What is read behind the digits in front of a point, which make a significand and leave `unused`. -/
def afterWhole? (negative : Bool) (significand : Nat) (unused : Text) :
    Text → Option (Number × Text)
  | [] => (integer? negative significand unused.length).map (·, [])
  | c :: more =>
      if c = '.' then
        if (more.takeWhile Char.isDigit).isEmpty then none
        else
          exponentTail? negative (gather significand (more.takeWhile Char.isDigit)).1
            (unused.length - ((more.takeWhile Char.isDigit).length -
              (gather significand (more.takeWhile Char.isDigit)).2.length))
            (more.dropWhile Char.isDigit)
      else if c = 'e' ∨ c = 'E' then exponentTail? negative significand unused.length (c :: more)
      else (integer? negative significand unused.length).map (·, c :: more)

theorem magnitude?_eq_some_iff : magnitude? negative s = some (n, left) ↔
    BeginsNumber (s.takeWhile Char.isDigit) ∧
      afterWhole? negative (gather 0 (s.takeWhile Char.isDigit)).1
        (gather 0 (s.takeWhile Char.isDigit)).2 (s.dropWhile Char.isDigit) = some (n, left) := by
  simp only [magnitude?, BeginsNumber]
  split
  case isTrue hbad => simp [hbad]
  case isFalse hgood =>
    rw [and_iff_right hgood]
    cases s.dropWhile Char.isDigit with
    | nil => rfl
    | cons c more => simp only [afterWhole?, Bool.or_eq_true, decide_eq_true_eq]

theorem exponentTail?_cons_eq_some_iff {c : Char} :
    exponentTail? negative significand exponent (c :: s) = some (n, left) ↔
      if c = 'e' ∨ c = 'E' then
        (takeSign s).2.takeWhile Char.isDigit ≠ [] ∧
          withExponent? negative significand exponent (takeSign s).1
            ((takeSign s).2.takeWhile Char.isDigit) = some n ∧
          (takeSign s).2.dropWhile Char.isDigit = left
      else signedReal? negative significand exponent = some n ∧ c :: s = left := by
  simp only [exponentTail?, Bool.or_eq_true, decide_eq_true_eq]
  split
  case isTrue =>
    split
    case isTrue hempty => simp [List.isEmpty_iff.1 hempty]
    case isFalse hdigits =>
      rw [map_rest_eq_some_iff, and_iff_right fun hempty => hdigits (List.isEmpty_iff.2 hempty)]
  case isFalse => exact map_rest_eq_some_iff

/-! ## Reading on -/

theorem exponentTail?_append (h : exponentTail? negative significand exponent s = some (n, []))
    (hrest : Stops rest) :
    exponentTail? negative significand exponent (s ++ rest) = some (n, rest) := by
  cases s with
  | nil =>
      cases rest with
      | nil => exact h
      | cons c more =>
          rw [List.nil_append, exponentTail?_cons_eq_some_iff, if_neg hrest.marks.2]
          exact ⟨(map_rest_eq_some_iff.1 h).1, rfl⟩
  | cons c s =>
      rw [List.cons_append, exponentTail?_cons_eq_some_iff]
      rw [exponentTail?_cons_eq_some_iff] at h
      split
      case isTrue hmark =>
        rw [if_pos hmark] at h
        rcases h with ⟨hdigits, hn, hleft⟩
        have hne : s ≠ [] := by
          intro hnil
          subst hnil
          exact hdigits rfl
        rw [takeSign_append hne, takeWhile_append_stop hrest.digit, dropWhile_append_stop hrest.digit,
          hleft]
        exact ⟨hdigits, hn, rfl⟩
      case isFalse hmark =>
        rw [if_neg hmark] at h
        cases h.2

theorem afterWhole?_append {unused : Text}
    (h : afterWhole? negative significand unused s = some (n, [])) (hrest : Stops rest) :
    afterWhole? negative significand unused (s ++ rest) = some (n, rest) := by
  cases s with
  | nil =>
      cases rest with
      | nil => exact h
      | cons c more =>
          rw [List.nil_append, afterWhole?, if_neg hrest.marks.1, if_neg hrest.marks.2,
            map_rest_eq_some_iff]
          exact ⟨(map_rest_eq_some_iff.1 h).1, rfl⟩
  | cons c more =>
      rw [afterWhole?] at h
      rw [List.cons_append, afterWhole?]
      split
      case isTrue hpoint =>
        rw [if_pos hpoint] at h
        rw [takeWhile_append_stop hrest.digit, dropWhile_append_stop hrest.digit]
        split at h
        case isTrue => cases h
        case isFalse hfraction =>
          rw [if_neg hfraction]
          exact exponentTail?_append h hrest
      case isFalse hpoint =>
        rw [if_neg hpoint] at h
        split
        case isTrue hmark =>
          rw [if_pos hmark] at h
          exact exponentTail?_append h hrest
        case isFalse hmark =>
          rw [if_neg hmark] at h
          cases (map_rest_eq_some_iff.1 h).2

/-- A number that ends with its text ends there also where other text follows. -/
theorem number?_append (h : number? s = some (n, [])) (hrest : Stops rest) :
    number? (s ++ rest) = some (n, rest) := by
  have hmagnitude : ∀ {negative s}, magnitude? negative s = some (n, []) →
      magnitude? negative (s ++ rest) = some (n, rest) := by
    intro negative s hs
    rcases magnitude?_eq_some_iff.1 hs with ⟨hbegins, hafter⟩
    rw [magnitude?_eq_some_iff, takeWhile_append_stop hrest.digit, dropWhile_append_stop hrest.digit]
    exact ⟨hbegins, afterWhole?_append hafter hrest⟩
  cases s with
  | nil => cases h
  | cons c s =>
      rw [number?] at h
      rw [List.cons_append, number?]
      split
      case isTrue hminus =>
        rw [if_pos hminus] at h
        exact hmagnitude h
      case isFalse hminus =>
        rw [if_neg hminus] at h
        exact hmagnitude h

/-! ## What is left -/

theorem suffix_of_exponentTail? (h : exponentTail? negative significand exponent s = some (n, left)) :
    left <:+ s := by
  cases s with
  | nil =>
      cases (map_rest_eq_some_iff.1 h).2
      exact List.suffix_rfl
  | cons c s =>
      rw [exponentTail?_cons_eq_some_iff] at h
      split at h
      case isTrue =>
        rcases RecordFilter.Number.takeSign_spec s with ⟨sign, -, hs⟩
        have hsign : (takeSign s).2 <:+ s := ⟨sign, hs.symm⟩
        rw [← h.2.2]
        exact (List.dropWhile_suffix _).trans (hsign.trans (List.suffix_cons c s))
      case isFalse =>
        cases h.2
        exact List.suffix_rfl

theorem suffix_of_afterWhole? {unused : Text}
    (h : afterWhole? negative significand unused s = some (n, left)) : left <:+ s := by
  cases s with
  | nil =>
      cases (map_rest_eq_some_iff.1 h).2
      exact List.suffix_rfl
  | cons c more =>
      rw [afterWhole?] at h
      split at h
      case isTrue =>
        split at h
        case isTrue => cases h
        case isFalse =>
          exact (suffix_of_exponentTail? h).trans
            ((List.dropWhile_suffix _).trans (List.suffix_cons c more))
      case isFalse =>
        split at h
        case isTrue => exact suffix_of_exponentTail? h
        case isFalse =>
          cases (map_rest_eq_some_iff.1 h).2
          exact List.suffix_rfl

theorem suffix_of_number? (h : number? s = some (n, left)) : left <:+ s := by
  have hmagnitude : ∀ {negative s}, magnitude? negative s = some (n, left) → left <:+ s := by
    intro negative s hs
    exact (suffix_of_afterWhole? (magnitude?_eq_some_iff.1 hs).2).trans (List.dropWhile_suffix _)
  cases s with
  | nil => cases h
  | cons c s =>
      rw [number?] at h
      split at h
      case isTrue => exact (hmagnitude h).trans (List.suffix_cons c s)
      case isFalse => exact hmagnitude h

/-! ## Integers -/

/-- A number that is an integer of 64 bits, with or without sign, or one of certain floats. -/
def Number.Fits (real : Float → Prop) : Number → Prop
  | .integer n => -(2 ^ 63 : Int) ≤ n ∧ n < 2 ^ 64
  | .real x => real x

theorem le_ofDigitChars (digits : Text) (init : Nat) : init ≤ Nat.ofDigitChars 10 digits init := by
  rw [Nat.ofDigitChars_eq_ofDigitChars_zero]
  have hpow : 1 ≤ 10 ^ digits.length := Nat.pow_pos (by decide)
  have hmul : init ≤ 10 ^ digits.length * init := Nat.le_mul_of_pos_left init hpow
  omega

/-- Digits that a significand can hold are all taken. -/
theorem gather_eq {digits : Text} (h : Nat.ofDigitChars 10 digits significand < 2 ^ 64) :
    gather significand digits = (Nat.ofDigitChars 10 digits significand, []) := by
  induction digits generalizing significand with
  | nil => rfl
  | cons c rest ih =>
      rw [Nat.ofDigitChars_cons] at h ⊢
      have hnext : 10 * significand + (c.toNat - '0'.toNat) < Nat.pow 2 64 :=
        Nat.lt_of_le_of_lt (le_ofDigitChars rest _) h
      rw [gather]
      simp only [if_pos hnext]
      exact ih h

theorem gather_lt (digits : Text) (h : significand < 2 ^ 64) :
    (gather significand digits).1 < 2 ^ 64 := by
  induction digits generalizing significand with
  | nil => exact h
  | cons c rest ih =>
      rw [gather]
      split
      case isTrue hnext => exact ih hnext
      case isFalse => exact h

theorem head?_natText_ne_zero {n : Nat} (h : 0 < n) : (natText n).head? ≠ some '0' := by
  induction n using Nat.strongRecOn with
  | ind n ih =>
      rw [natText, Nat.toDigits_eq_if (by decide)]
      split
      case isTrue hsmall =>
        have hall : ∀ d : Fin 10, 0 < d.val → d.val.digitChar ≠ '0' := by decide
        intro hzero
        exact hall ⟨n, hsmall⟩ h (Option.some.inj hzero)
      case isFalse hlarge =>
        have hfront : (natText (n / 10)).head? ≠ some '0' := ih (n / 10) (by omega) (by omega)
        cases hdigits : natText (n / 10) with
        | nil => exact absurd hdigits Nat.toDigits_ne_nil
        | cons c rest =>
            rw [hdigits] at hfront
            rw [natText] at hdigits
            rw [hdigits]
            exact hfront

theorem beginsNumber_natText (n : Nat) : BeginsNumber (natText n) := by
  simp only [BeginsNumber, Bool.or_eq_true, Bool.and_eq_true, beq_iff_eq, bne_iff_ne, List.isEmpty_iff,
    not_or, not_and]
  refine ⟨Nat.toDigits_ne_nil, fun hzero => ?_⟩
  rcases Nat.eq_zero_or_pos n with rfl | hpos
  · simp [natText]
  · exact absurd hzero (head?_natText_ne_zero hpos)

theorem magnitude?_natText {m : Nat} (h : m < 2 ^ 64) (negative : Bool) :
    magnitude? negative (natText m) = (integer? negative m 0).map (·, []) := by
  have hdigits : ∀ c ∈ natText m, c.isDigit = true := by
    intro c hc
    exact RecordFilter.Number.isDigit_of_mem_natText hc
  have hvalue : Nat.ofDigitChars 10 (natText m) 0 = m := Nat.ofDigitChars_ten_toDigits
  have hgather : gather 0 (natText m) = (m, []) := by
    rw [gather_eq (by rwa [hvalue]), hvalue]
  have hwhole : (natText m).takeWhile Char.isDigit = natText m :=
    List.takeWhile_eq_self_iff.2 hdigits
  have hafter : (natText m).dropWhile Char.isDigit = [] := List.dropWhile_eq_nil_iff.2 hdigits
  simp only [magnitude?, hwhole, hafter, hgather, List.length_nil]
  exact if_neg (beginsNumber_natText m)

/-- An integer of 64 bits is read from its text. -/
theorem number?_intText {n : Int} {real : Float → Prop} (h : (Number.integer n).Fits real) :
    number? (intText n) = some (.integer n, []) := by
  obtain ⟨hlow, hhigh⟩ := h
  cases n with
  | ofNat m =>
      have hm : m < 2 ^ 64 := by
        have hcast : (m : Int) < ((2 ^ 64 : Nat) : Int) := hhigh
        exact Int.ofNat_lt.1 hcast
      have hfirst : ∀ c rest, natText m = c :: rest → c ≠ '-' := by
        intro c rest hc hminus
        have hmem : c ∈ natText m := by simp [hc]
        have hdigit : c.isDigit = true := RecordFilter.Number.isDigit_of_mem_natText hmem
        rw [hminus] at hdigit
        cases hdigit
      have hread : number? (natText m) = magnitude? false (natText m) := by
        cases hc : natText m with
        | nil => exact absurd hc Nat.toDigits_ne_nil
        | cons c rest => rw [number?, if_neg (hfirst c rest hc)]
      rw [intText, hread, magnitude?_natText hm]
      rfl
  | negSucc k =>
      have hk : k + 1 ≤ 2 ^ 63 := by
        have hcast : Int.negSucc k = -((k : Int) + 1) := Int.negSucc_eq k
        omega
      have hlarge : ¬(Nat.pow 2 63 < k + 1) := Nat.not_lt.2 hk
      rw [intText, number?, if_pos rfl, magnitude?_natText (Nat.lt_of_le_of_lt hk (by decide))]
      simp [integer?, hlarge, Int.negSucc_eq]

end Json
end RecordFilter
