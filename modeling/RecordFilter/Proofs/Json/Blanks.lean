import RecordFilter.Proofs.Json.RoundTrip

/-!
# Blanks — blanks around a text

Blanks behind a text are left over by every part of the reader, whether it reads something or not
(`LeavesBlanks`), and those in front of it are skipped.  So a value, and a record, is read from a text
with blanks around it exactly if it is read from the text alone (`read?_around`).
-/

namespace RecordFilter
namespace Json

open RecordFilter.Number (takeSign)
open Text (takeWhile_append_stop dropWhile_append_stop)

variable {α : Type} {c d : Char} {s t tail rest : Text} {depth : Nat}

/-! ## Blanks -/

/-- A text of blanks. -/
def Blanks (s : Text) : Prop := ∀ c ∈ s, isBlank c = true

theorem Blanks.nil : Blanks [] := fun _ hc => absurd hc List.not_mem_nil

theorem Blanks.of_cons (h : Blanks (c :: s)) : isBlank c = true ∧ Blanks s :=
  List.forall_mem_cons.1 h

theorem isBlank_iff : isBlank c = true ↔ c = ' ' ∨ c = '\t' ∨ c = '\n' ∨ c = '\r' := by
  simp [isBlank, or_assoc]

theorem ne_of_isBlank (hc : isBlank c = true) (hd : isBlank d = false) : c ≠ d := by
  rintro rfl
  rw [hd] at hc
  cases hc

theorem isDigit_of_isBlank (h : isBlank c = true) : c.isDigit = false := by
  rcases isBlank_iff.1 h with rfl | rfl | rfl | rfl <;> rfl

theorem Blanks.head_not_digit (h : Blanks tail) : ∀ c, tail.head? = some c → c.isDigit = false :=
  fun c hc => isDigit_of_isBlank (h c (List.mem_of_head? hc))

/-- A reader leaves blanks behind a text over. -/
def LeavesBlanks (read : Text → Option (α × Text)) : Prop :=
  ∀ tail, Blanks tail → ∀ s, read (s ++ tail) = (read s).map fun (a, rest) => (a, rest ++ tail)

theorem map_rest_append (o : Option α) (rest tail : Text) :
    o.map (·, rest ++ tail) = (o.map (·, rest)).map fun (a, rest) => (a, rest ++ tail) := by
  cases o <;> rfl

/-! ## Numbers -/

/-- A blank does not go on with a number. -/
theorem not_marks_of_isBlank (h : isBlank c = true) : c ≠ '.' ∧ ¬(c = 'e' || c = 'E') = true := by
  have he := ne_of_isBlank h (d := 'e') rfl
  have hE := ne_of_isBlank h (d := 'E') rfl
  exact ⟨ne_of_isBlank h rfl, by simp [he, hE]⟩

theorem takeSign_append_blanks (h : Blanks tail) (s : Text) :
    takeSign (s ++ tail) = ((takeSign s).1, (takeSign s).2 ++ tail) := by
  cases s with
  | cons c s => exact takeSign_append (List.cons_ne_nil c s) tail
  | nil =>
      cases tail with
      | nil => rfl
      | cons c rest =>
          have hminus := ne_of_isBlank h.of_cons.1 (d := '-') rfl
          have hplus := ne_of_isBlank h.of_cons.1 (d := '+') rfl
          simp [takeSign, hminus, hplus]

theorem leavesBlanks_exponentTail? (negative : Bool) (significand : Nat) (exponent : Int) :
    LeavesBlanks (exponentTail? negative significand exponent) := by
  intro tail h s
  cases s with
  | nil =>
      cases tail with
      | nil => exact map_rest_append _ [] []
      | cons c rest =>
          simp only [List.nil_append, exponentTail?, if_neg (not_marks_of_isBlank h.of_cons.1).2]
          exact map_rest_append _ [] (c :: rest)
  | cons c s =>
      simp only [exponentTail?, List.cons_append, takeSign_append_blanks h,
        takeWhile_append_stop h.head_not_digit, dropWhile_append_stop h.head_not_digit]
      split
      case isTrue =>
        split
        case isTrue => rfl
        case isFalse => exact map_rest_append _ _ tail
      case isFalse => exact map_rest_append _ (c :: s) tail

theorem leavesBlanks_magnitude? (negative : Bool) : LeavesBlanks (magnitude? negative) := by
  intro tail h s
  simp only [magnitude?, takeWhile_append_stop h.head_not_digit, dropWhile_append_stop h.head_not_digit]
  split
  case isTrue => rfl
  case isFalse =>
    cases s.dropWhile Char.isDigit with
    | nil =>
        cases tail with
        | nil => exact map_rest_append _ [] []
        | cons c rest =>
            have hmarks := not_marks_of_isBlank h.of_cons.1
            simp only [List.nil_append, if_neg hmarks.1, if_neg hmarks.2]
            exact map_rest_append _ [] (c :: rest)
    | cons c rest =>
        simp only [List.cons_append, takeWhile_append_stop h.head_not_digit,
          dropWhile_append_stop h.head_not_digit]
        split
        case isTrue =>
          split
          case isTrue => rfl
          case isFalse => exact leavesBlanks_exponentTail? _ _ _ tail h _
        case isFalse =>
          split
          case isTrue => exact leavesBlanks_exponentTail? _ _ _ tail h (c :: rest)
          case isFalse => exact map_rest_append _ (c :: rest) tail

theorem number?_blanks (h : Blanks s) : number? s = none := by
  cases s with
  | nil => rfl
  | cons c rest =>
      have hminus := ne_of_isBlank h.of_cons.1 (d := '-') rfl
      simp [number?, hminus, magnitude?, isDigit_of_isBlank h.of_cons.1]

theorem leavesBlanks_number? : LeavesBlanks number? := by
  intro tail h s
  cases s with
  | nil => rw [List.nil_append, number?_blanks h, number?_blanks .nil, Option.map_none]
  | cons c s =>
      rw [List.cons_append, number?, number?]
      split
      case isTrue => exact leavesBlanks_magnitude? true tail h s
      case isFalse => exact leavesBlanks_magnitude? false tail h (c :: s)

/-! ## Strings -/

theorem hexDigit?_of_isBlank (h : isBlank c = true) : Text.hexDigit? c = none := by
  rcases isBlank_iff.1 h with rfl | rfl | rfl | rfl <;> rfl

/-- Digits with a blank among them are no number. -/
theorem hexValue?_of_mem (hc : isBlank c = true) (h : c ∈ s) : Text.hexValue? s = none := by
  have hnone : ∀ n, s.foldlM (fun n c => (Text.hexDigit? c).map (16 * n + ·)) n = none := by
    induction s with
    | nil => exact absurd h List.not_mem_nil
    | cons d s ih =>
        intro n
        rw [List.foldlM_cons]
        rcases List.mem_cons.1 h with rfl | hmem
        · rw [hexDigit?_of_isBlank hc]
          rfl
        · cases Text.hexDigit? d with
          | none => rfl
          | some digit => exact ih hmem _
  exact hnone 0

theorem hexUnit?_of_mem (hc : isBlank c = true) (h : c ∈ s.take 4) : hexUnit? s = none := by
  unfold hexUnit?
  split
  case h_1 a b d e rest => rw [hexValue?_of_mem hc (by simpa using h), Option.map_none]
  case h_2 => rfl

theorem leavesBlanks_hexUnit? : LeavesBlanks hexUnit? := by
  intro tail h s
  by_cases hlength : 4 ≤ s.length
  · match s, hlength with
    | a :: b :: c :: d :: rest, _ => exact map_rest_append _ rest tail
  · -- a blank would be among the four digits
    have hshort : ∀ s : Text, s.length < 4 → hexUnit? s = none := by
      intro s hs
      unfold hexUnit?
      split
      case h_1 =>
        simp only [List.length_cons] at hs
        omega
      case h_2 => rfl
    rw [hshort s (by omega), Option.map_none]
    cases tail with
    | nil => exact hshort _ (by simpa using hlength)
    | cons c rest =>
        refine hexUnit?_of_mem h.of_cons.1 ?_
        have htake : (s ++ c :: rest).take 4 = s ++ (c :: rest).take (4 - s.length) := by
          rw [List.take_append, List.take_of_length_le (by omega)]
        have hpos : 4 - s.length = (3 - s.length) + 1 := by omega
        rw [htake, hpos, List.take_succ_cons]
        simp

theorem lowSurrogate?_eq_none (h : ∀ rest, s ≠ '\\' :: 'u' :: rest) : lowSurrogate? s = none := by
  unfold lowSurrogate?
  split
  case h_1 rest => exact absurd rfl (h rest)
  case h_2 => rfl

theorem leavesBlanks_lowSurrogate? : LeavesBlanks lowSurrogate? := by
  intro tail h s
  by_cases hescape : ∃ rest, s = '\\' :: 'u' :: rest
  · rcases hescape with ⟨rest, rfl⟩
    change (hexUnit? (rest ++ tail)).filter _ = ((hexUnit? rest).filter _).map _
    rw [leavesBlanks_hexUnit? tail h, Option.filter_map]
    rfl
  · -- with blanks behind it a text begins no escape that it does not begin alone
    have hnone : lowSurrogate? (s ++ tail) = none := by
      refine lowSurrogate?_eq_none fun rest heq => ?_
      match s, heq with
      | [], heq =>
          rw [List.nil_append] at heq
          subst heq
          exact ne_of_isBlank h.of_cons.1 (d := '\\') rfl rfl
      | [a], heq =>
          have htail : tail = 'u' :: rest := (List.cons.inj heq).2
          subst htail
          exact ne_of_isBlank h.of_cons.1 (d := 'u') rfl rfl
      | a :: b :: s, heq =>
          rcases List.cons.inj heq with ⟨rfl, hrest⟩
          rcases List.cons.inj hrest with ⟨rfl, -⟩
          exact hescape ⟨s, rfl⟩
    rw [hnone, lowSurrogate?_eq_none fun rest heq => hescape ⟨rest, heq⟩, Option.map_none]

theorem leavesBlanks_unicodeEscape? : LeavesBlanks unicodeEscape? := by
  intro tail h s
  rw [unicodeEscape?, unicodeEscape?, leavesBlanks_hexUnit? tail h]
  cases hexUnit? s with
  | none => rfl
  | some read =>
      simp only [Option.map_some, leavesBlanks_lowSurrogate? tail h]
      split
      case isTrue => simp [Function.comp_def]
      case isFalse =>
        split
        case isTrue => rfl
        case isFalse => rfl

theorem leavesBlanks_escape? : LeavesBlanks escape? := by
  intro tail h s
  cases s with
  | nil =>
      cases tail with
      | nil => rfl
      | cons c rest =>
          have hletter := ne_of_isBlank h.of_cons.1 (d := 'u') rfl
          have hnone : simpleEscape? c = none := by
            rcases isBlank_iff.1 h.of_cons.1 with rfl | rfl | rfl | rfl <;> rfl
          simp [escape?, hletter, hnone]
  | cons c s =>
      rw [List.cons_append, escape?, escape?]
      split
      case isTrue => exact leavesBlanks_unicodeEscape? tail h s
      case isFalse => exact map_rest_append _ s tail

theorem string?_blanks (h : Blanks s) : string? s = none := by
  induction s with
  | nil => rw [string?]
  | cons c s ih =>
      have hquote := ne_of_isBlank h.of_cons.1 (d := '"') rfl
      have hslash := ne_of_isBlank h.of_cons.1 (d := '\\') rfl
      rw [string?, if_neg hquote, if_neg hslash, ih h.of_cons.2]
      split <;> rfl

theorem string?_escape_none (h : escape? s = none) : string? ('\\' :: s) = none := by
  rw [string?, if_neg (by decide), if_pos rfl]
  split
  case h_1 => rfl
  case h_2 e more hsome =>
    rw [h] at hsome
    cases hsome

theorem leavesBlanks_string? : LeavesBlanks string? := by
  intro tail h s
  fun_induction string? s with
  | case1 => rw [List.nil_append, string?_blanks h, Option.map_none]
  | case2 rest => rw [List.cons_append, string?, if_pos rfl, Option.map_some]
  | case3 rest hescape _ =>
      have hnone : escape? (rest ++ tail) = none := by
        rw [leavesBlanks_escape? tail h, hescape, Option.map_none]
      rw [List.cons_append, string?_escape_none hnone, Option.map_none]
  | case4 rest d after hescape _ ih =>
      have hsome : escape? (rest ++ tail) = some (d, after ++ tail) := by
        rw [leavesBlanks_escape? tail h, hescape, Option.map_some]
      rw [List.cons_append, string?_escape hsome, ih]
      simp [Function.comp_def]
  | case5 c rest hquote hslash hcontrol =>
      rw [List.cons_append, string?, if_neg hquote, if_neg hslash, if_pos hcontrol, Option.map_none]
  | case6 c rest hquote hslash hplain ih =>
      rw [List.cons_append, string?_plain hquote hslash (Nat.le_of_not_lt hplain), ih]
      simp [Function.comp_def]

/-! ## Scalars -/

/-- A word without blanks is found at the front of a text, or it is not there with blanks behind the
text either. -/
theorem prefix_append_blanks_iff {word : Text} (hword : ∀ c ∈ word, isBlank c = false)
    (h : Blanks tail) (s : Text) : word <+: s ++ tail ↔ word <+: s := by
  refine ⟨fun hprefix => ?_, fun hprefix => hprefix.trans (List.prefix_append s tail)⟩
  rcases List.prefix_or_prefix_of_prefix hprefix (List.prefix_append s tail) with hs | ⟨more, rfl⟩
  · exact hs
  · cases more with
    | nil => rw [List.append_nil]
    | cons c more =>
        have hmem : c ∈ tail := ((List.prefix_append_right_inj s).1 hprefix).subset List.mem_cons_self
        have hblank := hword c (by simp)
        rw [h c hmem] at hblank
        cases hblank

theorem leavesBlanks_word? (word : Text) (hword : ∀ c ∈ word, isBlank c = false) (v : Value) :
    LeavesBlanks (word? word v) := by
  intro tail h s
  have hiff := prefix_append_blanks_iff hword h s
  simp only [word?, List.isPrefixOf_iff_prefix]
  by_cases hprefix : word <+: s
  · rw [if_pos (hiff.2 hprefix), if_pos hprefix, List.drop_append_of_le_length hprefix.length_le,
      Option.map_some]
  · rw [if_neg fun hp => hprefix (hiff.1 hp), if_neg hprefix, Option.map_none]

theorem scalar?_blanks (h : Blanks s) : scalar? s = none := by
  unfold scalar?
  split
  case h_1 => exact absurd rfl (ne_of_isBlank h.of_cons.1 (d := '"') rfl)
  case h_2 => exact absurd rfl (ne_of_isBlank h.of_cons.1 (d := 'n') rfl)
  case h_3 => exact absurd rfl (ne_of_isBlank h.of_cons.1 (d := 't') rfl)
  case h_4 => exact absurd rfl (ne_of_isBlank h.of_cons.1 (d := 'f') rfl)
  case h_5 => rw [number?_blanks h, Option.map_none]

theorem leavesBlanks_scalar? : LeavesBlanks scalar? := by
  intro tail h s
  cases s with
  | nil => rw [List.nil_append, scalar?_blanks h, scalar?_blanks .nil, Option.map_none]
  | cons c s =>
      rw [List.cons_append]
      by_cases hquote : c = '"'
      · subst hquote
        change (string? (s ++ tail)).map _ = ((string? s).map _).map _
        rw [leavesBlanks_string? tail h]
        simp [Function.comp_def]
      · by_cases hn : c = 'n'
        · subst hn
          exact leavesBlanks_word? ['n', 'u', 'l', 'l'] (by simp [isBlank]) .null tail h ('n' :: s)
        · by_cases ht : c = 't'
          · subst ht
            exact leavesBlanks_word? ['t', 'r', 'u', 'e'] (by simp [isBlank]) (.boolean true) tail h
              ('t' :: s)
          · by_cases hf : c = 'f'
            · subst hf
              exact leavesBlanks_word? ['f', 'a', 'l', 's', 'e'] (by simp [isBlank]) (.boolean false) tail h
                ('f' :: s)
            · rw [scalar?_of_ne hquote hn ht hf, scalar?_of_ne hquote hn ht hf, ← List.cons_append,
                leavesBlanks_number? tail h]
              simp [Function.comp_def]

/-! ## Blanks before a text -/

theorem skipBlanks_append (h : Blanks tail) (s : Text) :
    skipBlanks (s ++ tail) = if skipBlanks s = [] then [] else skipBlanks s ++ tail := by
  induction s with
  | nil =>
      have htail : skipBlanks tail = [] := List.dropWhile_eq_nil_iff.2 h
      rw [List.nil_append, htail]
      rfl
  | cons c s ih =>
      cases hc : isBlank c with
      | true =>
          have hskip : ∀ s, skipBlanks (c :: s) = skipBlanks s := by
            intro s
            rw [skipBlanks, List.dropWhile_cons, hc]
            rfl
          rw [List.cons_append, hskip, hskip, ih]
      | false => rw [List.cons_append, skipBlanks_cons hc, skipBlanks_cons hc]; rfl

theorem skipBlanks_blanks_append (h : Blanks t) (s : Text) : skipBlanks (t ++ s) = skipBlanks s := by
  induction t with
  | nil => rfl
  | cons c t ih =>
      rw [List.cons_append, skipBlanks, List.dropWhile_cons, h.of_cons.1]
      exact ih h.of_cons.2

/-! ## Arrays and objects -/

section Containers

variable {item : Text → Option (Value × Text)}

theorem length_append_lt_iff : (t ++ tail).length < (s ++ tail).length ↔ t.length < s.length := by
  simp

theorem leavesBlanks_items? (hitem : LeavesBlanks item) : LeavesBlanks (items? item) := by
  intro tail h s
  -- each comma leaves a shorter text
  induction hlength : s.length using Nat.strongRecOn generalizing s with
  | ind length ih =>
      subst hlength
      rw [items?, items?, hitem tail h]
      cases item s with
      | none => rfl
      | some read =>
          rcases read with ⟨v, rest⟩
          simp only [Option.map_some, skipBlanks_append h]
          cases hrest : skipBlanks rest with
          | nil => rfl
          | cons c more =>
              rw [if_neg (List.cons_ne_nil c more), List.cons_append]
              by_cases hclose : c = ']'
              · subst hclose
                rfl
              · by_cases hcomma : c = ','
                · subst hcomma
                  simp only [length_append_lt_iff]
                  split
                  case isTrue hless =>
                    rw [ih more.length hless more rfl]
                    simp [Function.comp_def]
                  case isFalse => rfl
                · simp [hclose, hcomma]

theorem items?_nil (hnil : item [] = none) : items? item [] = none := by
  rw [items?, hnil]

theorem leavesBlanks_array? (hitem : LeavesBlanks item) (hnil : item [] = none) :
    LeavesBlanks (array? item) := by
  intro tail h s
  rw [array?, array?, skipBlanks_append h]
  cases hs : skipBlanks s with
  | nil =>
      simp [items?_nil hnil]
  | cons c rest =>
      rw [if_neg (List.cons_ne_nil c rest), List.cons_append]
      by_cases hclose : c = ']'
      · subst hclose
        rfl
      · have hitems := leavesBlanks_items? hitem tail h (c :: rest)
        rw [List.cons_append] at hitems
        simp [hclose, hitems, Function.comp_def]

theorem member?_blanks_append (h : Blanks t) (s : Text) :
    member? item (t ++ s) = member? item s := by
  rw [member?, member?, skipBlanks_blanks_append h]

theorem leavesBlanks_member? (hitem : LeavesBlanks item) : LeavesBlanks (member? item) := by
  intro tail h s
  rw [member?, member?, skipBlanks_append h]
  cases hs : skipBlanks s with
  | nil => rfl
  | cons c body =>
      rw [if_neg (List.cons_ne_nil c body), List.cons_append]
      by_cases hquote : c = '"'
      · subst hquote
        simp only [leavesBlanks_string? tail h]
        cases string? body with
        | none => rfl
        | some read =>
            rcases read with ⟨key, rest⟩
            simp only [Option.map_some, Option.bind_eq_bind, Option.bind_some, skipBlanks_append h]
            cases hrest : skipBlanks rest with
            | nil => rfl
            | cons c more =>
                rw [if_neg (List.cons_ne_nil c more), List.cons_append]
                by_cases hcolon : c = ':'
                · subst hcolon
                  simp only [hitem tail h]
                  cases item more <;> rfl
                · simp [hcolon]
      · simp [hquote]

theorem leavesBlanks_members? (hitem : LeavesBlanks item) (found : Members) :
    LeavesBlanks (members? item found) := by
  intro tail h s
  induction hlength : s.length using Nat.strongRecOn generalizing s found with
  | ind length ih =>
      subst hlength
      rw [members?, members?, leavesBlanks_member? hitem tail h]
      cases member? item s with
      | none => rfl
      | some read =>
          rcases read with ⟨⟨key, v⟩, rest⟩
          simp only [Option.map_some, skipBlanks_append h]
          cases hrest : skipBlanks rest with
          | nil => rfl
          | cons c more =>
              rw [if_neg (List.cons_ne_nil c more), List.cons_append]
              by_cases hclose : c = '\x7d'
              · subst hclose
                rfl
              · by_cases hcomma : c = ','
                · subst hcomma
                  simp only [length_append_lt_iff]
                  split
                  case isTrue hless => exact ih more.length hless _ more rfl
                  case isFalse => rfl
                · simp [hclose, hcomma]

theorem leavesBlanks_object? (hitem : LeavesBlanks item) : LeavesBlanks (object? item) := by
  intro tail h s
  rw [object?, object?, skipBlanks_append h]
  cases hs : skipBlanks s with
  | nil => simp [members?, member?, skipBlanks]
  | cons c rest =>
      rw [if_neg (List.cons_ne_nil c rest), List.cons_append]
      by_cases hclose : c = '\x7d'
      · subst hclose
        rfl
      · have hmembers := leavesBlanks_members? hitem [] tail h (c :: rest)
        rw [List.cons_append] at hmembers
        simp [hclose, hmembers, Function.comp_def]

end Containers

/-! ## Values -/

theorem value?_blanks (h : Blanks s) (depth : Nat) : value? depth s = none := by
  have hskip : skipBlanks s = [] := List.dropWhile_eq_nil_iff.2 h
  cases depth with
  | zero => rw [value?, hskip, scalar?_blanks .nil]
  | succ depth =>
      rw [value?, hskip]
      exact scalar?_blanks .nil

theorem leavesBlanks_value? (depth : Nat) : LeavesBlanks (value? depth) := by
  induction depth with
  | zero =>
      intro tail h s
      rw [value?, value?, skipBlanks_append h]
      split
      case isTrue hs => rw [hs, scalar?_blanks .nil, Option.map_none]
      case isFalse => exact leavesBlanks_scalar? tail h _
  | succ depth ih =>
      intro tail h s
      rw [value?, value?, skipBlanks_append h]
      cases hs : skipBlanks s with
      | nil => exact scalar?_blanks .nil
      | cons c rest =>
          rw [if_neg (List.cons_ne_nil c rest), List.cons_append]
          by_cases hbracket : c = '['
          · subst hbracket
            exact leavesBlanks_array? ih (value?_blanks .nil depth) tail h rest
          · by_cases hbrace : c = '\x7b'
            · subst hbrace
              exact leavesBlanks_object? ih tail h rest
            · have hscalar := leavesBlanks_scalar? tail h (c :: rest)
              rw [List.cons_append] at hscalar
              simpa [hbracket, hbrace] using hscalar

theorem value?_blanks_append (h : Blanks t) (depth : Nat) (s : Text) :
    value? depth (t ++ s) = value? depth s := by
  cases depth with
  | zero => rw [value?, value?, skipBlanks_blanks_append h]
  | succ depth => rw [value?, value?, skipBlanks_blanks_append h]

/-- Blanks around a text do not count. -/
theorem read?_around (ht : Blanks t) (htail : Blanks tail) (s : Text) :
    read? (t ++ s ++ tail) = read? s := by
  rw [read?, read?, List.append_assoc, value?_blanks_append ht, leavesBlanks_value? depthLimit tail htail]
  cases value? depthLimit s with
  | none => rfl
  | some read =>
      rcases read with ⟨v, rest⟩
      have hempty : (skipBlanks (rest ++ tail)).isEmpty = (skipBlanks rest).isEmpty := by
        rw [skipBlanks_append htail]
        split
        case isTrue hrest => rw [hrest]
        case isFalse hrest =>
          cases hkept : skipBlanks rest with
          | nil => exact absurd hkept hrest
          | cons c more => rfl
      simp only [Option.map_some, hempty]

end Json

/-- A record is read from a text with blanks around it as from the text alone. -/
theorem Record.read_around {s t tail : Text} (ht : Json.Blanks t) (htail : Json.Blanks tail) :
    Record.read (t ++ s ++ tail) = Record.read s := by
  rw [Record.read, Record.read, Json.read?_around ht htail]

end RecordFilter
