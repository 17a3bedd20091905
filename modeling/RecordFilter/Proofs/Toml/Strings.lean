import RecordFilter.Toml.StringReader
import RecordFilter.Toml.Writer

/-!
# Strings — a string is read from its text

The writer chooses between short and long strings with and without escapes.  A basic string is read
whatever it holds, since each of its characters is written by an escape or stands for itself
(`basicChar_cases`); a long one ends at the quotes that the writer closes it with, even if the string
itself ends in quotes (`closing?_quotes`).  A literal string is read where the writer chooses it.  So
a string is read from its text, if no quote follows (`string?_stringText`).
-/

namespace RecordFilter
namespace Toml

variable {s rest after T : Text} {c d : Char} {long : Bool} {allowed run : Nat}

/-! ## Characters -/

/-- The reader of a string may not find a quote behind it. -/
def NoQuoteAhead (rest : Text) : Prop := ∀ c, rest.head? = some c → c ≠ '"' ∧ c ≠ '\''

/-- An escape: a backslash and what stands for the character `c`, which begins with no blank. -/
def Escapes (e : Text) (c : Char) : Prop :=
  (∃ d e', e = d :: e' ∧ isInlineBlank d = false ∧ d ≠ '\n' ∧ d ≠ '\r') ∧
    ∀ T, escape? (e ++ T) = some (c, T)

theorem escapes_letter (h : simpleEscape? d = some c) : Escapes [d] c := by
  have hletter : isInlineBlank d = false ∧ d ≠ '\n' ∧ d ≠ '\r' ∧ d ≠ 'u' ∧ d ≠ 'U' := by
    unfold simpleEscape? at h
    split at h
    all_goals first
      | decide
      | cases h
  rcases hletter with ⟨hblank, hfeed, hreturn, hu, hU⟩
  refine ⟨⟨d, [], rfl, hblank, hfeed, hreturn⟩, fun T => ?_⟩
  rw [List.singleton_append, escape?, if_neg hu, if_neg hU, h, Option.map_some]

/-- A character is read from its number, which needs two digits at most behind the zeros. -/
theorem exists_numberEscape (hc : c.toNat < 0x80) :
    ∃ e, numberEscape c.toNat = '\\' :: e ∧ Escapes e c := by
  -- few enough to look at each
  have hall : ∀ n : Fin 0x80, (numberEscape n).take 2 = ['\\', 'u'] ∧
      ((numberEscape n).drop 2).length = 4 ∧
      Text.hexValue? ((numberEscape n).drop 2) = some n.val := by
    decide +kernel
  rcases hall ⟨c.toNat, hc⟩ with ⟨hmark, hlength, hvalue⟩
  have hsplit := List.take_append_drop 2 (numberEscape c.toNat)
  generalize (numberEscape c.toNat).drop 2 = digits at hlength hvalue hsplit
  rw [hmark] at hsplit
  refine ⟨'u' :: digits, hsplit.symm, ⟨'u', digits, rfl, rfl, by decide, by decide⟩, fun T => ?_⟩
  have hvalid : c.toNat.isValidChar := c.valid
  have htake : (digits ++ T).take 4 = digits := List.take_left' hlength
  have hdrop : (digits ++ T).drop 4 = T := List.drop_left' hlength
  have hshort : ¬(digits ++ T).length < 4 := by
    rw [List.length_append]
    omega
  rw [List.cons_append, escape?, if_pos rfl, codePoint?, if_neg hshort, htake, hvalue, hdrop]
  simp only [character?, if_pos hvalid, Char.ofNat_toNat, Option.map_some]

/-- A character of a basic string, quotes aside, is written by an escape or stands for itself; line feeds
do so in long strings only. -/
theorem basicChar_cases (long : Bool) (hc : c ≠ '"') :
    (∃ e, basicChar long c = '\\' :: e ∧ Escapes e c) ∨
      (basicChar long c = ['\n'] ∧ c = '\n' ∧ long = true) ∨
      (basicChar long c = [c] ∧ isBasicChar c = true) := by
  unfold basicChar
  split
  case isTrue h =>
    subst h
    exact Or.inl ⟨['\\'], rfl, escapes_letter rfl⟩
  case isFalse hslash =>
    split
    case isTrue h =>
      subst h
      exact Or.inl ⟨['b'], rfl, escapes_letter rfl⟩
    case isFalse =>
      split
      case isTrue h =>
        subst h
        exact Or.inl ⟨['t'], rfl, escapes_letter rfl⟩
      case isFalse htab =>
        split
        case isTrue h =>
          simp only [Bool.and_eq_true, decide_eq_true_eq] at h
          rcases h with ⟨rfl, -⟩
          exact Or.inl ⟨['n'], rfl, escapes_letter rfl⟩
        case isFalse hfeed =>
          split
          case isTrue h =>
            subst h
            exact Or.inl ⟨['f'], rfl, escapes_letter rfl⟩
          case isFalse =>
            split
            case isTrue h =>
              subst h
              exact Or.inl ⟨['r'], rfl, escapes_letter rfl⟩
            case isFalse =>
              split
              case isTrue hcontrol =>
                have hsmall : c.toNat < 0x80 := by
                  simp only [Bool.and_eq_true, Bool.or_eq_true, decide_eq_true_eq] at hcontrol
                  rcases hcontrol with h | rfl
                  · omega
                  · decide
                exact Or.inl (exists_numberEscape hsmall)
              case isFalse hplain =>
                simp only [Bool.and_eq_true, Bool.or_eq_true, decide_eq_true_eq, not_or, not_and,
                  bne_iff_ne, ne_eq, Decidable.not_not] at hplain
                by_cases hn : c = '\n'
                · subst hn
                  refine Or.inr (Or.inl ⟨rfl, rfl, ?_⟩)
                  simpa using hfeed
                · refine Or.inr (Or.inr ⟨rfl, ?_⟩)
                  have hshown : 0x20 ≤ c.toNat := Nat.le_of_not_lt fun h => hn (hplain.1 h)
                  simp [isBasicChar, isShown, hshown, hplain.2, hc, hslash]

/-! ## Basic strings -/

theorem basicBody?_escape {e : Text} (h : Escapes e c) (T : Text) :
    basicBody? ('\\' :: e ++ T) = (basicBody? T).map fun (t, r) => (c :: t, r) := by
  have hescape := h.2 T
  rw [List.cons_append, basicBody?, if_neg (by decide), if_pos rfl]
  split
  case h_1 hnone =>
    rw [hescape] at hnone
    cases hnone
  case h_2 d after hsome =>
    rw [hescape] at hsome
    cases hsome
    rfl

theorem basicBody?_plain (h : isBasicChar c = true) (T : Text) :
    basicBody? (c :: T) = (basicBody? T).map fun (t, r) => (c :: t, r) := by
  have hclass : c ≠ '"' ∧ c ≠ '\\' := by
    constructor <;> rintro rfl <;> cases h
  rw [basicBody?, if_neg hclass.1, if_neg hclass.2, if_pos h]

/-- A basic string on one line is read up to its closing quote. -/
theorem basicBody?_basicInside (s rest : Text) :
    basicBody? (basicInside false 0 0 s ++ '"' :: rest) = some (s, rest) := by
  induction s with
  | nil =>
      rw [basicInside, List.nil_append, basicBody?, if_pos rfl]
  | cons c s ih =>
      rw [basicInside]
      split
      case isTrue hquote =>
        subst hquote
        rw [if_neg (by decide)]
        have hread := basicBody?_escape (escapes_letter (d := '"') rfl)
          (basicInside false 0 0 s ++ '"' :: rest)
        rw [ih] at hread
        exact hread
      case isFalse hquote =>
        rw [List.append_assoc]
        rcases basicChar_cases false hquote with ⟨e, htext, hescapes⟩ | ⟨-, -, hlong⟩ | ⟨htext, hplain⟩
        · rw [htext, basicBody?_escape hescapes, ih]
          rfl
        · cases hlong
        · rw [htext, List.singleton_append, basicBody?_plain hplain, ih]
          rfl

/-- What is written for a character that is no quote begins with none. -/
theorem exists_basicChar (long : Bool) (hc : c ≠ '"') :
    ∃ d t, basicChar long c = d :: t ∧ d ≠ '"' ∧ d ≠ '\r' ∧ (d = '\n' → c = '\n') := by
  rcases basicChar_cases long hc with ⟨e, htext, -⟩ | ⟨htext, rfl, -⟩ | ⟨htext, hplain⟩
  · exact ⟨'\\', e, htext, by decide, by decide, fun h => by cases h⟩
  · exact ⟨'\n', [], htext, by decide, by decide, fun _ => rfl⟩
  · refine ⟨c, [], htext, hc, ?_, fun h => h⟩
    rintro rfl
    cases hplain

theorem string?_basicText (s : Text) (hrest : NoQuoteAhead rest) :
    string? (basicText s ++ rest) = some (s, rest) := by
  have hread := basicBody?_basicInside s rest
  have htext : basicText s ++ rest = '"' :: (basicInside false 0 0 s ++ '"' :: rest) := by
    simp [basicText]
  -- two more quotes would open a long string
  have hshort : ∀ t, basicInside false 0 0 s ++ '"' :: rest ≠ '"' :: '"' :: t := by
    intro t heq
    cases s with
    | nil =>
        rw [basicInside, List.nil_append] at heq
        exact (hrest '"' (by rw [(List.cons.inj heq).2]; rfl)).1 rfl
    | cons c s =>
        rw [basicInside] at heq
        split at heq
        case isTrue => cases heq
        case isFalse hquote =>
          rcases exists_basicChar false hquote with ⟨d, t', hchar, hd, -, -⟩
          rw [hchar] at heq
          exact hd (List.cons.inj heq).1
  rw [htext, string?]
  · exact hread
  · exact hshort

/-! ## Literal strings -/

/-- Nothing in the string needs an escape, line feeds aside. -/
theorem isShown_of_not_needsEscape (h : needsEscape s = false) (hc : c ∈ s) :
    c = '\n' ∨ isShown c = true := by
  have hchar := List.any_eq_false.1 h c hc
  simp only [Bool.or_eq_true, Bool.and_eq_true, decide_eq_true_eq, bne_iff_ne, beq_iff_eq, not_or,
    not_and, Decidable.not_not, ne_eq] at hchar
  by_cases htab : c = '\t'
  · subst htab
    exact Or.inr rfl
  · by_cases hn : c = '\n'
    · exact Or.inl hn
    · have hshown : 0x20 ≤ c.toNat := Nat.le_of_not_lt fun h => hn (hchar.1 ⟨h, htab⟩)
      right
      simp [isShown, hshown, hchar.2]

theorem literalBody?_append (h : ∀ c ∈ s, isLiteralChar c = true) (rest : Text) :
    literalBody? (s ++ '\'' :: rest) = some (s, rest) := by
  induction s with
  | nil => rw [List.nil_append, literalBody?, if_pos rfl]
  | cons c s ih =>
      have hc := h c List.mem_cons_self
      have hquote : c ≠ '\'' := by
        rintro rfl
        cases hc
      rw [List.cons_append, literalBody?, if_neg hquote, if_pos hc,
        ih fun d hd => h d (List.mem_cons_of_mem _ hd)]
      rfl

theorem string?_literalText (h : ∀ c ∈ s, isLiteralChar c = true) (hrest : NoQuoteAhead rest) :
    string? (literalText s ++ rest) = some (s, rest) := by
  have htext : literalText s ++ rest = '\'' :: (s ++ '\'' :: rest) := by
    simp [literalText]
  have hshort : ∀ t, s ++ '\'' :: rest ≠ '\'' :: '\'' :: t := by
    intro t heq
    cases s with
    | nil => exact (hrest '\'' (by rw [(List.cons.inj heq).2]; rfl)).2 rfl
    | cons c s =>
        have hc := h c List.mem_cons_self
        rw [(List.cons.inj heq).1] at hc
        cases hc
  rw [htext, string?]
  · exact literalBody?_append h rest
  · exact hshort

/-! ## The end of a long string -/

variable {quote : Char} {n : Nat}

/-- A string may end in up to two quotes of its own. -/
theorem closing?_quotes (hn : n ≤ 2) (hrest : rest.head? ≠ some quote) :
    closing? quote (List.replicate n quote ++ ([quote, quote, quote] ++ rest)) =
      some (List.replicate n quote, rest) := by
  have hend : rest.takeWhile (· == quote) = [] := by
    cases rest with
    | nil => rfl
    | cons c rest =>
        have hc : c ≠ quote := fun h => hrest (h ▸ rfl)
        simp [hc]
  obtain rfl | rfl | rfl : n = 0 ∨ n = 1 ∨ n = 2 := by omega
  all_goals simp [closing?, List.isPrefixOf, hend]

/-- Up to two quotes before another character close nothing. -/
theorem closing?_eq_none (hn : n ≤ 2) (hd : d ≠ quote) (T : Text) :
    closing? quote (List.replicate n quote ++ d :: T) = none := by
  have hne : (quote == d) = false := by
    simpa using Ne.symm hd
  obtain rfl | rfl | rfl : n = 0 ∨ n = 1 ∨ n = 2 := by omega
  all_goals simp [closing?, List.isPrefixOf, hne]

/-! ## Long basic strings -/

theorem afterBreak?_of_ne (hfeed : c ≠ '\n') (hreturn : c ≠ '\r') (T : Text) :
    afterBreak? (c :: T) = none := by
  unfold afterBreak?
  split
  case h_1 heq => exact absurd (List.cons.inj heq).1 hfeed
  case h_2 heq => exact absurd (List.cons.inj heq).1 hreturn
  case h_3 => rfl

theorem longBasicBody?_closing {found : Text × Text} (h : closing? '"' T = some found) :
    longBasicBody? T = some found := by
  rw [longBasicBody?, h]

theorem longBasicBody?_break (T : Text) :
    longBasicBody? ('\n' :: T) = (longBasicBody? T).map fun (t, r) => ('\n' :: t, r) := by
  have hclosing : closing? '"' ('\n' :: T) = none := closing?_eq_none (Nat.zero_le 2) (by decide) T
  rw [longBasicBody?, hclosing]
  rfl

theorem longBasicBody?_escape {e : Text} (h : Escapes e c) (T : Text) :
    longBasicBody? ('\\' :: e ++ T) = (longBasicBody? T).map fun (t, r) => (c :: t, r) := by
  rcases h with ⟨⟨d, e', rfl, hblank, hfeed, hreturn⟩, hescape⟩
  have hclosing : closing? '"' ('\\' :: (d :: e' ++ T)) = none :=
    closing?_eq_none (Nat.zero_le 2) (by decide) _
  have hcontinuation : afterContinuation? (d :: e' ++ T) = none := by
    have hskip : skipInlineBlanks (d :: e' ++ T) = d :: e' ++ T := by
      simp [skipInlineBlanks, hblank]
    rw [afterContinuation?, hskip, List.cons_append, afterBreak?_of_ne hfeed hreturn]
    rfl
  rw [List.cons_append, longBasicBody?, hclosing]
  dsimp only
  split
  case h_1 hbreak => cases hbreak
  case h_2 =>
    rw [if_pos rfl]
    split
    case h_1 after hsome =>
      rw [hcontinuation] at hsome
      cases hsome
    case h_2 =>
      split
      case h_1 hnone =>
        rw [hescape T] at hnone
        cases hnone
      case h_2 d' after hsome =>
        rw [hescape T] at hsome
        cases hsome
        rfl

theorem longBasicBody?_plain (hclosing : closing? '"' (c :: T) = none)
    (h : c = '"' ∨ isBasicChar c = true) :
    longBasicBody? (c :: T) = (longBasicBody? T).map fun (t, r) => (c :: t, r) := by
  have hclass : c ≠ '\n' ∧ c ≠ '\r' ∧ c ≠ '\\' := by
    refine ⟨?_, ?_, ?_⟩ <;> rintro rfl <;> simp [isBasicChar, isShown] at h
  have hbreak : afterBreak? (c :: T) = none := afterBreak?_of_ne hclass.1 hclass.2.1 T
  rw [longBasicBody?, hclosing]
  dsimp only
  split
  case h_1 after hsome =>
    rw [hbreak] at hsome
    cases hsome
  case h_2 =>
    rw [if_neg hclass.2.2, if_pos (by simpa using h)]

/-- What is written of a string is up to two quotes, or begins with up to two and another character. -/
theorem basicInside_cases (hrun : run ≤ 2) (s : Text) :
    (∃ n, run + n ≤ 2 ∧ s = List.replicate n '"' ∧
      basicInside true 2 run s = List.replicate n '"') ∨
      ∃ n d T, run + n ≤ 2 ∧ d ≠ '"' ∧ basicInside true 2 run s = List.replicate n '"' ++ d :: T := by
  induction s generalizing run with
  | nil => exact Or.inl ⟨0, hrun, rfl, rfl⟩
  | cons c s ih =>
      rw [basicInside]
      split
      case isTrue hquote =>
        subst hquote
        split
        case isTrue hless =>
          rcases @ih (run + 1) hless with ⟨n, hn, rfl, htext⟩ | ⟨n, d, T, hn, hd, htext⟩
          · exact Or.inl ⟨n + 1, by omega, rfl, by rw [htext]; rfl⟩
          · exact Or.inr ⟨n + 1, d, T, by omega, hd, by rw [htext]; rfl⟩
        case isFalse => exact Or.inr ⟨0, '\\', _, hrun, by decide, rfl⟩
      case isFalse hquote =>
        rcases exists_basicChar true hquote with ⟨d, t, hchar, hd, -, -⟩
        exact Or.inr ⟨0, d, _, hrun, hd, by rw [hchar]; rfl⟩

/-- A long basic string is read up to its closing quotes, those at its own end included. -/
theorem longBasicBody?_basicInside (hrun : run ≤ 2) (s : Text) (hrest : rest.head? ≠ some '"') :
    longBasicBody? (basicInside true 2 run s ++ (['"', '"', '"'] ++ rest)) = some (s, rest) := by
  -- quotes that only the closing ones follow are read with them, and others are read one by one
  induction s generalizing run with
  | nil => exact longBasicBody?_closing (closing?_quotes (Nat.zero_le 2) hrest)
  | cons c s ih =>
      rcases basicInside_cases hrun (c :: s) with ⟨n, hn, hs, htext⟩ | ⟨n, d, T, hn, hd, htext⟩
      · rw [htext, hs]
        exact longBasicBody?_closing (closing?_quotes (by omega) hrest)
      · have hclosing : closing? '"' (basicInside true 2 run (c :: s) ++ (['"', '"', '"'] ++ rest)) =
            none := by
          rw [htext, List.append_assoc]
          exact closing?_eq_none (by omega) hd _
        rw [basicInside] at hclosing ⊢
        split
        case isTrue hquote =>
          subst hquote
          rw [if_pos rfl] at hclosing
          split
          case isTrue hless =>
            rw [if_pos hless] at hclosing
            rw [List.cons_append] at hclosing ⊢
            rw [longBasicBody?_plain hclosing (Or.inl rfl), ih hless]
            rfl
          case isFalse =>
            have hread := longBasicBody?_escape (escapes_letter (d := '"') rfl)
              (basicInside true 2 0 s ++ (['"', '"', '"'] ++ rest))
            rw [ih (Nat.zero_le 2)] at hread
            exact hread
        case isFalse hquote =>
          rw [if_neg hquote, List.append_assoc] at hclosing
          rw [List.append_assoc]
          rcases basicChar_cases true hquote with
            ⟨e, hchar, hescapes⟩ | ⟨hchar, rfl, -⟩ | ⟨hchar, hplain⟩
          · rw [hchar, longBasicBody?_escape hescapes, ih (Nat.zero_le 2)]
            rfl
          · rw [hchar, List.singleton_append, longBasicBody?_break, ih (Nat.zero_le 2)]
            rfl
          · rw [hchar, List.singleton_append] at hclosing ⊢
            rw [longBasicBody?_plain hclosing (Or.inr hplain), ih (Nat.zero_le 2)]
            rfl

/-- The line break in front of a long string is dropped, and it is written where one would be. -/
theorem dropBreak_leadingBreak (h : '\n' ∉ s → afterBreak? T = none) :
    dropBreak (leadingBreak s ++ T) = T := by
  rw [leadingBreak]
  split
  case isTrue => rfl
  case isFalse hfeed =>
    have hnone := h (by simpa using hfeed)
    rw [List.nil_append, dropBreak, hnone]
    rfl

theorem string?_longBasicText (s : Text) (hrest : NoQuoteAhead rest) :
    string? (longBasicText s ++ rest) = some (s, rest) := by
  have hquote : rest.head? ≠ some '"' := fun h => (hrest '"' h).1 rfl
  have htext : longBasicText s ++ rest = '"' :: '"' :: '"' ::
      (leadingBreak s ++ (basicInside true 2 0 s ++ (['"', '"', '"'] ++ rest))) := by
    simp [longBasicText]
  have hbreak : '\n' ∉ s →
      afterBreak? (basicInside true 2 0 s ++ (['"', '"', '"'] ++ rest)) = none := by
    intro hfeed
    cases s with
    | nil => rfl
    | cons c s =>
        rw [basicInside]
        split
        case isTrue => rfl
        case isFalse hc =>
          rcases exists_basicChar true hc with ⟨d, t, hchar, -, hreturn, hd⟩
          rw [hchar]
          refine afterBreak?_of_ne ?_ hreturn _
          intro heq
          exact hfeed (hd heq ▸ List.mem_cons_self)
  rw [htext, string?, dropBreak_leadingBreak hbreak, longBasicBody?_basicInside (Nat.zero_le 2) s hquote]

/-! ## Long literal strings -/

theorem longLiteralBody?_closing {found : Text × Text} (h : closing? '\'' T = some found) :
    longLiteralBody? T = some found := by
  rw [longLiteralBody?, h]

theorem longLiteralBody?_break (T : Text) :
    longLiteralBody? ('\n' :: T) = (longLiteralBody? T).map fun (t, r) => ('\n' :: t, r) := by
  have hclosing : closing? '\'' ('\n' :: T) = none := closing?_eq_none (Nat.zero_le 2) (by decide) T
  rw [longLiteralBody?, hclosing]
  rfl

theorem longLiteralBody?_plain (hclosing : closing? '\'' (c :: T) = none) (h : isShown c = true) :
    longLiteralBody? (c :: T) = (longLiteralBody? T).map fun (t, r) => (c :: t, r) := by
  have hclass : c ≠ '\n' ∧ c ≠ '\r' := by
    constructor <;> rintro rfl <;> cases h
  have hbreak : afterBreak? (c :: T) = none := afterBreak?_of_ne hclass.1 hclass.2 T
  rw [longLiteralBody?, hclosing]
  dsimp only
  split
  case h_1 after hsome =>
    rw [hbreak] at hsome
    cases hsome
  case h_2 =>
    refine if_pos ?_
    by_cases hc : c = '\''
    · simp [hc]
    · simp [isLiteralChar, h, hc]

theorem longestRunFrom_mono (quote : Char) {m n : Nat} (h : m ≤ n) (s : Text) :
    longestRunFrom quote m s ≤ longestRunFrom quote n s := by
  induction s generalizing m n with
  | nil => exact h
  | cons c s ih =>
      rw [longestRunFrom, longestRunFrom]
      split
      case isTrue => exact ih (Nat.add_le_add_right h 1)
      case isFalse => omega

/-- A string without three quotes in a row is up to two quotes, or begins with up to two and another
character. -/
theorem quotes_cases (h : longestRunFrom quote run s ≤ 2) :
    (∃ n, run + n ≤ 2 ∧ s = List.replicate n quote) ∨
      ∃ n d T, run + n ≤ 2 ∧ d ≠ quote ∧ s = List.replicate n quote ++ d :: T := by
  induction s generalizing run with
  | nil => exact Or.inl ⟨0, h, rfl⟩
  | cons c s ih =>
      rw [longestRunFrom] at h
      split at h
      case isTrue hquote =>
        subst hquote
        rcases ih h with ⟨n, hn, rfl⟩ | ⟨n, d, T, hn, hd, rfl⟩
        · exact Or.inl ⟨n + 1, by omega, rfl⟩
        · exact Or.inr ⟨n + 1, d, T, by omega, hd, rfl⟩
      case isFalse hquote => exact Or.inr ⟨0, c, s, by omega, hquote, rfl⟩

/-- A long literal string without three quotes in a row is read up to its closing quotes. -/
theorem longLiteralBody?_append (hchars : ∀ c ∈ s, c = '\n' ∨ isShown c = true)
    (hrun : longestRun '\'' s ≤ 2) (hrest : rest.head? ≠ some '\'') :
    longLiteralBody? (s ++ (['\'', '\'', '\''] ++ rest)) = some (s, rest) := by
  -- again quotes that only the closing ones follow are read with them
  induction s with
  | nil => exact longLiteralBody?_closing (closing?_quotes (Nat.zero_le 2) hrest)
  | cons c s ih =>
      rcases quotes_cases hrun with ⟨n, hn, hs⟩ | ⟨n, d, T, hn, hd, hs⟩
      · rw [hs]
        exact longLiteralBody?_closing (closing?_quotes (by omega) hrest)
      · have hclosing : closing? '\'' (c :: s ++ (['\'', '\'', '\''] ++ rest)) = none := by
          rw [hs, List.append_assoc]
          exact closing?_eq_none (by omega) hd _
        have hrun' : longestRun '\'' s ≤ 2 := by
          rw [longestRun, longestRunFrom] at hrun
          split at hrun
          case isTrue => exact Nat.le_trans (longestRunFrom_mono _ (Nat.zero_le 1) s) hrun
          case isFalse => exact Nat.le_trans (Nat.le_max_right _ _) hrun
        have hread := ih (fun d hd => hchars d (List.mem_cons_of_mem _ hd)) hrun'
        rw [List.cons_append] at hclosing ⊢
        rcases hchars c List.mem_cons_self with rfl | hshown
        · rw [longLiteralBody?_break, hread]
          rfl
        · rw [longLiteralBody?_plain hclosing hshown, hread]
          rfl

theorem string?_longLiteralText (h : needsEscape s = false) (hrun : longestRun '\'' s ≤ 2)
    (hrest : NoQuoteAhead rest) : string? (longLiteralText s ++ rest) = some (s, rest) := by
  have hquote : rest.head? ≠ some '\'' := fun h => (hrest '\'' h).2 rfl
  have hchars : ∀ c ∈ s, c = '\n' ∨ isShown c = true := fun c => isShown_of_not_needsEscape h
  have htext : longLiteralText s ++ rest = '\'' :: '\'' :: '\'' ::
      (leadingBreak s ++ (s ++ (['\'', '\'', '\''] ++ rest))) := by
    simp [longLiteralText]
  have hbreak : '\n' ∉ s → afterBreak? (s ++ (['\'', '\'', '\''] ++ rest)) = none := by
    intro hfeed
    cases s with
    | nil => rfl
    | cons c s =>
        have hc : c ≠ '\n' := fun heq => hfeed (heq ▸ List.mem_cons_self)
        refine afterBreak?_of_ne hc ?_ _
        rintro rfl
        have hshown := (hchars '\r' List.mem_cons_self).resolve_left hc
        cases hshown
  rw [htext, string?, dropBreak_leadingBreak hbreak, longLiteralBody?_append hchars hrun hquote]

/-! ## Strings -/

/-- A string is read from its text, if no quote follows. -/
theorem string?_stringText (s : Text) (hrest : NoQuoteAhead rest) :
    string? (stringText s ++ rest) = some (s, rest) := by
  -- the writer's choice matters for the literal forms only, which can hold less than the basic ones
  unfold stringText
  split
  case isTrue => exact string?_basicText s hrest
  case isFalse =>
    split
    case isTrue h =>
      simp only [Bool.and_eq_true, Bool.not_eq_true'] at h
      refine string?_literalText ?_ hrest
      intro c hc
      have hquote : c ≠ '\'' := by
        rintro rfl
        simp [hc] at h
      have hfeed : c ≠ '\n' := by
        rintro rfl
        simp [hc] at h
      have hshown := (isShown_of_not_needsEscape h.1.1 hc).resolve_left hfeed
      simp [isLiteralChar, hshown, hquote]
    case isFalse =>
      split
      case isTrue => exact string?_longBasicText s hrest
      case isFalse =>
        split
        case isTrue h =>
          simp only [Bool.and_eq_true, Bool.not_eq_true', decide_eq_true_eq] at h
          exact string?_longLiteralText h.1 h.2 hrest
        case isFalse =>
          split
          case isTrue => exact string?_longBasicText s hrest
          case isFalse => exact string?_basicText s hrest

end Toml
end RecordFilter
