import RecordFilter.Proofs.Text.Ascii
import RecordFilter.Number.Reading

/-!
# Shape — how a number is written

A text that reads as a number is a sign or none, and then a word, a mantissa, or a mantissa with an
exponent (`shape_of_read?`).  So it is made of few characters (`NumberShape.isNumberChar_of_mem`),
and a sign stands in it at the front or behind the mark of an exponent only.
-/

namespace RecordFilter
namespace Number

open Text

variable {s : Text} {c : Char}

/-- A digit or a point. -/
def inMantissa (c : Char) : Bool := c.isDigit || c == '.'

/-- The mark of an exponent. -/
def isExponentMark (c : Char) : Bool := c == 'e' || c == 'E'

/-- The letters of the words for infinity and NaN. -/
def wordLetters : Text := "infinityaINFINITYA".toList

/-- One sign or none. -/
def IsSign (s : Text) : Prop := s = [] ∨ s = ['+'] ∨ s = ['-']

/-- How a number without a sign is written. -/
inductive UnsignedShape : Text → Prop where
  | word {s : Text} : s ≠ [] → (∀ c ∈ s, c ∈ wordLetters) → UnsignedShape s
  | decimal {mantissa : Text} :
      mantissa ≠ [] → (∀ c ∈ mantissa, inMantissa c = true) → UnsignedShape mantissa
  | scientific {mantissa sign digits : Text} {mark : Char} :
      mantissa ≠ [] → (∀ c ∈ mantissa, inMantissa c = true) → isExponentMark mark = true →
      IsSign sign → digits ≠ [] → (∀ c ∈ digits, c.isDigit = true) →
      UnsignedShape (mantissa ++ mark :: (sign ++ digits))

/-- How a number is written. -/
def NumberShape (s : Text) : Prop := ∃ sign body, s = sign ++ body ∧ IsSign sign ∧ UnsignedShape body

/-! ## Reading gives the shape -/

theorem takeSign_spec (s : Text) : ∃ sign, IsSign sign ∧ s = sign ++ (takeSign s).2 := by
  cases s with
  | nil => exact ⟨[], Or.inl rfl, rfl⟩
  | cons c rest =>
      by_cases hminus : c = '-'
      · exact ⟨['-'], Or.inr (Or.inr rfl), by simp [takeSign, hminus]⟩
      · by_cases hplus : c = '+'
        · exact ⟨['+'], Or.inr (Or.inl rfl), by simp [takeSign, hplus]⟩
        · exact ⟨[], Or.inl rfl, by simp [takeSign, hminus, hplus]⟩

theorem exponent?_spec {e : Int} (h : exponent? s = some e) :
    ∃ sign digits, IsSign sign ∧ digits ≠ [] ∧ (∀ c ∈ digits, c.isDigit = true) ∧
      s = sign ++ digits := by
  rcases takeSign_spec s with ⟨sign, hsign, hs⟩
  have hdigits : ((takeSign s).2.isEmpty || !(takeSign s).2.all Char.isDigit) = false := by
    cases hcase : ((takeSign s).2.isEmpty || !(takeSign s).2.all Char.isDigit) with
    | false => rfl
    | true =>
        have hnone : exponent? s = none := if_pos hcase
        rw [hnone] at h
        cases h
  simp only [Bool.or_eq_false_iff, List.isEmpty_eq_false_iff, Bool.not_eq_false',
    List.all_eq_true] at hdigits
  exact ⟨sign, (takeSign s).2, hsign, hdigits.1, hdigits.2, hs⟩

theorem exponentPart?_spec {e : Int} (h : exponentPart? s = some e) :
    s = [] ∨ ∃ mark rest k, isExponentMark mark = true ∧ s = mark :: rest ∧
      exponent? rest = some k := by
  cases s with
  | nil => exact Or.inl rfl
  | cons c rest =>
      rw [exponentPart?] at h
      split at h
      case isTrue hmark => exact Or.inr ⟨c, rest, e, by simpa [isExponentMark] using hmark, rfl, h⟩
      case isFalse => cases h

theorem fractionPart_spec (s : Text) :
    ∃ point, (∀ c ∈ point, inMantissa c = true) ∧ s = point ++ (fractionPart s).2 ∧
      ((fractionPart s).1 ≠ [] → point ≠ []) := by
  cases s with
  | nil => exact ⟨[], by simp, rfl, by simp [fractionPart]⟩
  | cons c rest =>
      by_cases hc : c = '.'
      · refine ⟨'.' :: rest.takeWhile Char.isDigit, ?_, ?_, fun _ => List.cons_ne_nil _ _⟩
        · intro d hd
          rcases List.mem_cons.1 hd with rfl | hd
          · rfl
          · have hdigit := List.all_eq_true.1 List.all_takeWhile d hd
            simp [inMantissa, hdigit]
        · simp [fractionPart, hc]
      · exact ⟨[], by simp, by simp [fractionPart, hc], by simp [fractionPart, hc]⟩

theorem shape_of_decimal? {x : Float} (h : decimal? s = some x) : UnsignedShape s := by
  rcases fractionPart_spec (s.dropWhile Char.isDigit) with ⟨point, hpoint, hrest, hfraction⟩
  -- the digits, the point with its digits, and the exponent
  have hs : s = s.takeWhile Char.isDigit ++ point ++
      (fractionPart (s.dropWhile Char.isDigit)).2 := by
    rw [List.append_assoc, ← hrest, List.takeWhile_append_dropWhile]
  have hmantissa : ∀ c ∈ s.takeWhile Char.isDigit ++ point, inMantissa c = true := by
    intro c hc
    rcases List.mem_append.1 hc with hc | hc
    · have hdigit := List.all_eq_true.1 List.all_takeWhile c hc
      simp [inMantissa, hdigit]
    · exact hpoint c hc
  unfold decimal? at h
  simp only at h
  split at h
  case isTrue => cases h
  case isFalse hsome =>
    -- a number has a digit before the point or behind it
    have hne : s.takeWhile Char.isDigit ++ point ≠ [] := by
      intro hnil
      rcases List.append_eq_nil_iff.1 hnil with ⟨hwhole, hnone⟩
      apply hsome
      cases hfrac : (fractionPart (s.dropWhile Char.isDigit)).1 with
      | nil => simp [hwhole]
      | cons d more => exact absurd hnone (hfraction (by simp [hfrac]))
    rcases Option.map_eq_some_iff.1 h with ⟨e, he, -⟩
    rw [hs]
    rcases exponentPart?_spec he with hnil | ⟨mark, rest, k, hmark, hmarked, hk⟩
    · rw [hnil, List.append_nil]
      exact UnsignedShape.decimal hne hmantissa
    · rcases exponent?_spec hk with ⟨sign, digits, hsign, hdigits, hall, rfl⟩
      rw [hmarked]
      exact UnsignedShape.scientific hne hmantissa hmark hsign hdigits hall

theorem mem_wordLetters_of_toLower (h : c.toLower ∈ "infityan".toList) : c ∈ wordLetters := by
  by_cases hascii : c.toNat < 0x80
  · have hall : ∀ n : Fin 0x80, (!"infityan".toList.contains (Char.ofNat n).toLower ||
        wordLetters.contains (Char.ofNat n)) = true := by
      decide
    have hcase := of_ascii
      (p := fun c => !"infityan".toList.contains c.toLower || wordLetters.contains c) hall hascii
    have hlower : "infityan".toList.contains c.toLower = true := List.contains_iff_mem.2 h
    rw [hlower, Bool.not_true, Bool.false_or] at hcase
    exact List.contains_iff_mem.1 hcase
  · -- outside ASCII there is no lower case, and the letters are ASCII
    rw [toLower_of_not_ascii (Nat.not_lt.1 hascii)] at h
    have hall : ∀ d ∈ "infityan".toList, d ∈ wordLetters := by
      decide
    exact hall c h

theorem shape_of_word {word : Text} (hne : word ≠ [])
    (hword : ∀ c ∈ word, c.toLower ∈ "infityan".toList)
    (h : equalsIgnoringCase s word = true) : UnsignedShape s := by
  have heq : s.map Char.toLower = word.map Char.toLower := by
    simpa [equalsIgnoringCase] using h
  refine UnsignedShape.word ?_ ?_
  · rintro rfl
    exact hne (List.map_eq_nil_iff.1 heq.symm)
  · intro c hc
    have hmem : c.toLower ∈ word.map Char.toLower := heq ▸ List.mem_map_of_mem hc
    rcases List.mem_map.1 hmem with ⟨d, hd, hlower⟩
    exact mem_wordLetters_of_toLower (hlower ▸ hword d hd)

theorem shape_of_unsigned? {x : Float} (h : unsigned? s = some x) : UnsignedShape s := by
  unfold unsigned? at h
  split at h
  case isTrue hinf =>
    rcases Bool.or_eq_true_iff.1 hinf with hshort | hlong
    · exact shape_of_word (by decide) (by decide) hshort
    · exact shape_of_word (by decide) (by decide) hlong
  case isFalse =>
    split at h
    case isTrue hnan => exact shape_of_word (by decide) (by decide) hnan
    case isFalse => exact shape_of_decimal? h

theorem shape_of_read? {x : Float} (h : read? s = some x) : NumberShape s := by
  rcases takeSign_spec s with ⟨sign, hsign, hs⟩
  unfold read? at h
  rcases Option.map_eq_some_iff.1 h with ⟨y, hy, -⟩
  exact ⟨sign, (takeSign s).2, hs, hsign, shape_of_unsigned? hy⟩

/-! ## The characters of a number -/

/-- The characters that a number may have. -/
def isNumberChar (c : Char) : Bool :=
  c.isDigit || "+-.eE".toList.contains c || wordLetters.contains c

theorem isNumberChar_of_isDigit (h : c.isDigit = true) : isNumberChar c = true := by
  simp [isNumberChar, h]

theorem isNumberChar_of_inMantissa (h : inMantissa c = true) : isNumberChar c = true := by
  rcases Bool.or_eq_true_iff.1 h with hdigit | hpoint
  · exact isNumberChar_of_isDigit hdigit
  · rw [beq_iff_eq.1 hpoint]
    decide

theorem isNumberChar_of_isSign (hs : IsSign s) (hc : c ∈ s) : isNumberChar c = true := by
  rcases hs with rfl | rfl | rfl
  · cases hc
  · rw [List.mem_singleton.1 hc]
    decide
  · rw [List.mem_singleton.1 hc]
    decide

theorem UnsignedShape.isNumberChar_of_mem (h : UnsignedShape s) (hc : c ∈ s) :
    isNumberChar c = true := by
  cases h with
  | word _ hs => simp [isNumberChar, hs c hc]
  | decimal _ hs => exact isNumberChar_of_inMantissa (hs c hc)
  | scientific _ hmantissa hmark hsign _ hdigits =>
      rcases List.mem_append.1 hc with hc | hc
      · exact isNumberChar_of_inMantissa (hmantissa c hc)
      · rcases List.mem_cons.1 hc with rfl | hc
        · rcases Bool.or_eq_true_iff.1 hmark with he | he
          · rw [beq_iff_eq.1 he]
            decide
          · rw [beq_iff_eq.1 he]
            decide
        · rcases List.mem_append.1 hc with hc | hc
          · exact isNumberChar_of_isSign hsign hc
          · exact isNumberChar_of_isDigit (hdigits c hc)

theorem NumberShape.isNumberChar_of_mem (h : NumberShape s) (hc : c ∈ s) :
    isNumberChar c = true := by
  rcases h with ⟨sign, body, rfl, hsign, hbody⟩
  rcases List.mem_append.1 hc with hc | hc
  · exact isNumberChar_of_isSign hsign hc
  · exact hbody.isNumberChar_of_mem hc

theorem toNat_lt_of_isNumberChar (h : isNumberChar c = true) : c.toNat < 0x80 := by
  simp only [isNumberChar, Bool.or_eq_true] at h
  have hmarks : ∀ c ∈ "+-.eE".toList, c.toNat < 0x80 := by decide
  have hletters : ∀ c ∈ wordLetters, c.toNat < 0x80 := by decide
  rcases h with (hdigit | hmark) | hletter
  · exact toNat_lt_of_isDigit hdigit
  · exact hmarks c (List.contains_iff_mem.1 hmark)
  · exact hletters c (List.contains_iff_mem.1 hletter)

/-! ## Digits are a number -/

theorem decimal?_digits (hne : s ≠ []) (hs : ∀ c ∈ s, c.isDigit = true) :
    decimal? s = some (nearest (digitsValue s) 0) := by
  have htake : s.takeWhile Char.isDigit = s := by
    have happend : (s ++ []).takeWhile Char.isDigit = s ++ [].takeWhile Char.isDigit :=
      List.takeWhile_append_of_pos hs
    simpa using happend
  have hdrop : s.dropWhile Char.isDigit = [] := by
    have happend : (s ++ []).dropWhile Char.isDigit = [].dropWhile Char.isDigit :=
      List.dropWhile_append_of_pos hs
    simpa using happend
  simp [decimal?, htake, hdrop, fractionPart, exponentPart?, hne]

/-- No word for a number has a digit in it. -/
theorem not_word_of_digits {word : Text} (hne : s ≠ []) (hs : ∀ c ∈ s, c.isDigit = true)
    (hword : ∀ c ∈ word, c.toLower ∈ "infityan".toList) : equalsIgnoringCase s word = false := by
  cases heq : equalsIgnoringCase s word with
  | false => rfl
  | true =>
      have hmap : s.map Char.toLower = word.map Char.toLower := by
        simpa [equalsIgnoringCase] using heq
      rcases List.exists_mem_of_ne_nil s hne with ⟨c, hc⟩
      have hmem : c.toLower ∈ word.map Char.toLower := hmap ▸ List.mem_map_of_mem hc
      rcases List.mem_map.1 hmem with ⟨d, hd, hlower⟩
      have hletter := mem_wordLetters_of_toLower (hlower ▸ hword d hd)
      have hall : ∀ c ∈ wordLetters, c.isDigit = false := by decide
      have hdigit := hs c hc
      rw [hall c hletter] at hdigit
      cases hdigit

theorem read?_digits (hne : s ≠ []) (hs : ∀ c ∈ s, c.isDigit = true) :
    read? s = some (nearest (digitsValue s) 0) := by
  have hsign : takeSign s = (false, s) := by
    cases s with
    | nil => rfl
    | cons c rest =>
        have hdigit := hs c List.mem_cons_self
        have hminus : c ≠ '-' := by
          rintro rfl
          cases hdigit
        have hplus : c ≠ '+' := by
          rintro rfl
          cases hdigit
        simp [takeSign, hminus, hplus]
  have hunsigned : unsigned? s = some (nearest (digitsValue s) 0) := by
    rw [unsigned?, not_word_of_digits hne hs (by decide), not_word_of_digits hne hs (by decide),
      not_word_of_digits hne hs (by decide), decimal?_digits hne hs]
    rfl
  rw [read?, hsign]
  simp [hunsigned]

end Number
end RecordFilter
