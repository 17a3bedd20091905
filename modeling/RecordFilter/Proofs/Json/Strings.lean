import RecordFilter.Json.Printer
import RecordFilter.Json.Reader

/-!
# Strings — a string is read from its text

The printer escapes a character by a letter or by four digits in base sixteen, or leaves it as it is
(`escapedChar_cases`).  The reader undoes each of the three, so a string is read from its text whatever
follows (`scalar?_stringText`).
-/

namespace RecordFilter
namespace Json

variable {c d : Char} {s rest after : Text}

/-! ## One character -/

/-- A character is escaped by a letter, by its number, or not at all. -/
theorem escapedChar_cases (c : Char) :
    (∃ d, escapedChar c = ['\\', d] ∧ d ≠ 'u' ∧ simpleEscape? d = some c) ∨
      (escapedChar c = ['\\', 'u', '0', '0', Nat.digitChar (c.toNat / 16),
        Nat.digitChar (c.toNat % 16)] ∧ c.toNat < 0x20) ∨
      (escapedChar c = [c] ∧ c ≠ '"' ∧ c ≠ '\\' ∧ 0x20 ≤ c.toNat) := by
  unfold escapedChar
  split
  case isTrue hmark =>
    simp only [Bool.or_eq_true, decide_eq_true_eq] at hmark
    rcases hmark with rfl | rfl
    · exact Or.inl ⟨'"', rfl, by decide, rfl⟩
    · exact Or.inl ⟨'\\', rfl, by decide, rfl⟩
  case isFalse hmark =>
    simp only [Bool.or_eq_true, decide_eq_true_eq, not_or] at hmark
    split
    case isTrue h => exact Or.inl ⟨'b', rfl, by decide, h ▸ rfl⟩
    case isFalse =>
      split
      case isTrue h => exact Or.inl ⟨'t', rfl, by decide, h ▸ rfl⟩
      case isFalse =>
        split
        case isTrue h => exact Or.inl ⟨'n', rfl, by decide, h ▸ rfl⟩
        case isFalse =>
          split
          case isTrue h => exact Or.inl ⟨'f', rfl, by decide, h ▸ rfl⟩
          case isFalse =>
            split
            case isTrue h => exact Or.inl ⟨'r', rfl, by decide, h ▸ rfl⟩
            case isFalse =>
              split
              case isTrue hcontrol => exact Or.inr (Or.inl ⟨rfl, hcontrol⟩)
              case isFalse hplain =>
                exact Or.inr (Or.inr ⟨rfl, hmark.1, hmark.2, Nat.le_of_not_lt hplain⟩)

/-- A letter that stands for a character is no control character. -/
theorem le_toNat_of_simpleEscape? (h : simpleEscape? d = some c) : 0x20 ≤ d.toNat := by
  unfold simpleEscape? at h
  split at h
  all_goals first
    | decide
    | cases h

theorem hexDigit?_digitChar : ∀ n : Fin 16, Text.hexDigit? (Nat.digitChar n) = some n.val := by
  decide

/-- A control character is read from its number. -/
theorem escape?_number (hc : c.toNat < 0x20) (rest : Text) :
    escape? ('u' :: '0' :: '0' :: Nat.digitChar (c.toNat / 16) :: Nat.digitChar (c.toNat % 16) :: rest)
      = some (c, rest) := by
  have hhigh : Text.hexDigit? (Nat.digitChar (c.toNat / 16)) = some (c.toNat / 16) :=
    hexDigit?_digitChar ⟨c.toNat / 16, by omega⟩
  have hlow : Text.hexDigit? (Nat.digitChar (c.toNat % 16)) = some (c.toNat % 16) :=
    hexDigit?_digitChar ⟨c.toNat % 16, Nat.mod_lt _ (by decide)⟩
  have hzero : Text.hexDigit? '0' = some 0 := rfl
  have hunit : hexUnit? ('0' :: '0' :: Nat.digitChar (c.toNat / 16) :: Nat.digitChar (c.toNat % 16)
      :: rest) = some (c.toNat, rest) := by
    simp only [hexUnit?, Text.hexValue?, List.foldlM_cons, List.foldlM_nil, hzero, hhigh, hlow,
      Option.map_some, Option.bind_eq_bind, Option.bind_some, Option.pure_def]
    congr 2
    omega
  have hpair : ¬(0xD800 ≤ c.toNat && c.toNat ≤ 0xDBFF) = true := by
    simp only [Bool.and_eq_true, decide_eq_true_eq]
    omega
  have hhalf : ¬(0xDC00 ≤ c.toNat && c.toNat ≤ 0xDFFF) = true := by
    simp only [Bool.and_eq_true, decide_eq_true_eq]
    omega
  rw [escape?, if_pos rfl, unicodeEscape?, hunit]
  simp only [if_neg hpair, if_neg hhalf, Char.ofNat_toNat]

/-! ## Strings -/

theorem string?_escape (h : escape? rest = some (d, after)) :
    string? ('\\' :: rest) = (string? after).map fun (t, r) => (d :: t, r) := by
  rw [string?, if_neg (by decide), if_pos rfl]
  split
  case h_1 hnone =>
    rw [h] at hnone
    cases hnone
  case h_2 e more hsome =>
    rw [h] at hsome
    cases hsome
    rfl

theorem string?_plain (hquote : c ≠ '"') (hslash : c ≠ '\\') (hc : 0x20 ≤ c.toNat) (rest : Text) :
    string? (c :: rest) = (string? rest).map fun (t, r) => (c :: t, r) := by
  rw [string?, if_neg hquote, if_neg hslash, if_neg (Nat.not_lt.2 hc)]

theorem string?_escapedChar (c : Char) (rest : Text) :
    string? (escapedChar c ++ rest) = (string? rest).map fun (t, r) => (c :: t, r) := by
  rcases escapedChar_cases c with
    ⟨d, htext, hletter, hread⟩ | ⟨htext, hcontrol⟩ | ⟨htext, hquote, hslash, hc⟩
  · rw [htext]
    have hescape : escape? (d :: rest) = some (c, rest) := by
      rw [escape?, if_neg hletter, hread, Option.map_some]
    exact string?_escape hescape
  · rw [htext]
    exact string?_escape (escape?_number hcontrol rest)
  · rw [htext]
    exact string?_plain hquote hslash hc rest

/-- A string is read up to its closing quote. -/
theorem string?_flatMap_escapedChar (s rest : Text) :
    string? (s.flatMap escapedChar ++ '"' :: rest) = some (s, rest) := by
  induction s with
  | nil => rw [List.flatMap_nil, List.nil_append, string?, if_pos rfl]
  | cons c s ih => rw [List.flatMap_cons, List.append_assoc, string?_escapedChar, ih]; rfl

theorem scalar?_stringText (s rest : Text) :
    scalar? (stringText s ++ rest) = some (.string s, rest) := by
  rw [stringText, List.append_assoc]
  change (string? (s.flatMap escapedChar ++ '"' :: rest)).map _ = _
  rw [string?_flatMap_escapedChar, Option.map_some]

end Json
end RecordFilter
