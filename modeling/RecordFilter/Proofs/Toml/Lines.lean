import RecordFilter.Proofs.Text.Spans
import RecordFilter.Proofs.Toml.Strings
import RecordFilter.Toml.Reader

/-!
# Lines — the statements that written lines make

`Says t sts` says that the text `t` makes the statements `sts` in front of any other text, so that texts
and their statements are put together in the same way (`Says.append`).  A written line makes the one
statement that it was written for (`says_entryLine`, `says_headerLine`), if the text of its value denotes
that value (`Denotes`).
-/

namespace RecordFilter
namespace Toml

open Text (takeWhile_append_of_all dropWhile_append_of_all)

variable {s t u key name rest value T : Text} {c : Char} {v : Value} {depth : Nat}

/-! ## Blanks, comments and line breaks -/

/-- A character that no blank, comment or line break begins with. -/
def isMark (c : Char) : Bool := !(isInlineBlank c || c == '#' || c == '\n' || c == '\r')

theorem isInlineBlank_of_isMark (h : isMark c = true) : isInlineBlank c = false := by
  simp only [isMark, Bool.not_eq_true', Bool.or_eq_false_iff] at h
  exact h.1.1.1

theorem skipInlineBlanks_cons (h : isInlineBlank c = false) (T : Text) :
    skipInlineBlanks (c :: T) = c :: T := by
  simp [skipInlineBlanks, h]

theorem afterBreak?_skipComment (h : isMark c = true) (T : Text) :
    skipComment (c :: T) = c :: T ∧ afterBreak? (c :: T) = none := by
  simp only [isMark, Bool.not_eq_true', Bool.or_eq_false_iff, beq_eq_false_iff_ne] at h
  refine ⟨?_, afterBreak?_of_ne h.1.2 h.2 T⟩
  unfold skipComment
  split
  case h_1 heq => exact absurd (List.cons.inj heq).1 h.1.1.2
  case h_2 => rfl

theorem skipTrivia_mark (h : isMark c = true) (T : Text) : skipTrivia (c :: T) = c :: T := by
  rcases afterBreak?_skipComment h T with ⟨hcomment, hbreak⟩
  rw [skipTrivia, skipInlineBlanks_cons (isInlineBlank_of_isMark h), hcomment]
  split
  case h_1 after hsome =>
    rw [hbreak] at hsome
    cases hsome
  case h_2 => rfl

theorem skipTrivia_break (T : Text) : skipTrivia ('\n' :: T) = skipTrivia T := by
  rw [skipTrivia]
  split
  case h_1 after hsome =>
    have hafter : afterBreak? ('\n' :: T) = some after := hsome
    cases hafter
    rfl
  case h_2 hnone => cases hnone

theorem skipTrivia_space (T : Text) : skipTrivia (' ' :: T) = skipTrivia T := by
  have hskip : skipInlineBlanks (' ' :: T) = skipInlineBlanks T := rfl
  rw [skipTrivia, skipTrivia, hskip]

/-- A line that begins with a mark is not blank. -/
theorem lineEnd?_mark (h : isMark c = true) (T : Text) : lineEnd? (c :: T) = none := by
  rcases afterBreak?_skipComment h T with ⟨hcomment, hbreak⟩
  rw [lineEnd?, skipInlineBlanks_cons (isInlineBlank_of_isMark h), hcomment]
  exact hbreak

theorem lineEnd?_break (T : Text) : lineEnd? ('\n' :: T) = some T := rfl

/-! ## Values -/

/-- The text of a value begins with a mark, and the value is read from it, if no quote follows. -/
structure Denotes (t : Text) (v : Value) : Prop where
  begins : ∃ c T, t = c :: T ∧ isMark c = true
  reads : ∀ depth rest, NoQuoteAhead rest → value? (depth + 1) (t ++ rest) = some (v, rest)

/-- A string begins with a quote. -/
theorem exists_stringText (s : Text) : ∃ c T, stringText s = c :: T ∧ (c = '"' ∨ c = '\'') := by
  unfold stringText
  repeat' split
  all_goals first
    | exact ⟨'"', _, rfl, Or.inl rfl⟩
    | exact ⟨'\'', _, rfl, Or.inr rfl⟩

theorem value?_stringText (depth : Nat) (s : Text) (hrest : NoQuoteAhead rest) :
    value? depth (stringText s ++ rest) = some (.string s, rest) := by
  have hsimple : simple? (stringText s ++ rest) = some (.string s, rest) := by
    rw [simple?, string?_stringText s hrest]
  cases depth with
  | zero => exact hsimple
  | succ depth =>
      rcases exists_stringText s with ⟨c, T, htext, hc⟩
      rw [value?]
      · exact hsimple
      · intro T' heq
        rw [htext] at heq
        rcases hc with rfl | rfl <;> cases heq
      · intro T' heq
        rw [htext] at heq
        rcases hc with rfl | rfl <;> cases heq

theorem denotes_stringText (s : Text) : Denotes (stringText s) (.string s) := by
  refine ⟨?_, fun depth rest hrest => value?_stringText _ s hrest⟩
  rcases exists_stringText s with ⟨c, T, htext, hc⟩
  refine ⟨c, T, htext, ?_⟩
  rcases hc with rfl | rfl <;> rfl

theorem denotes_booleanText (b : Bool) : Denotes (booleanText b) (.boolean b) := by
  cases b with
  | false => exact ⟨⟨'f', _, rfl, rfl⟩, fun _ _ _ => rfl⟩
  | true => exact ⟨⟨'t', _, rfl, rfl⟩, fun _ _ _ => rfl⟩

/-! ## Lists of strings -/

/-- The lines of a list's items. -/
def itemLines (items : List Text) : Text :=
  items.flatMap fun s => [' ', ' ', ' ', ' '] ++ stringText s ++ [',', '\n']

theorem skipTrivia_stringText (s T : Text) : skipTrivia (stringText s ++ T) = stringText s ++ T := by
  rcases (denotes_stringText s).begins with ⟨c, T', htext, hc⟩
  rw [htext, List.cons_append, skipTrivia_mark hc]

theorem skipTrivia_itemLine (s T : Text) :
    skipTrivia ('\n' :: ([' ', ' ', ' ', ' '] ++ stringText s ++ T)) = stringText s ++ T := by
  rw [skipTrivia_break]
  simp only [List.cons_append, List.nil_append, skipTrivia_space, skipTrivia_stringText]

theorem items?_closing (item : Text → Option (Value × Text)) (h : skipTrivia s = ']' :: rest) :
    items? item s = some ([], rest) := by
  rw [items?, h]
  rfl

/-- An item is read from its text, behind which the list ends or goes on. -/
theorem items?_string (hskip : skipTrivia t = stringText s ++ T) (hT : NoQuoteAhead T) :
    items? (value? depth) t =
      match skipTrivia T with
      | ']' :: after => some ([.string s], after)
      | ',' :: more =>
          if more.length < t.length then
            (items? (value? depth) more).map fun (vs, r) => (.string s :: vs, r)
          else none
      | _ => none := by
  rcases exists_stringText s with ⟨c, T', htext, hc⟩
  -- a quote does not close the list
  have hopen : ∀ after, stringText s ++ T ≠ ']' :: after := by
    intro after heq
    rw [htext] at heq
    rcases hc with rfl | rfl <;> cases heq
  rw [items?, hskip]
  split
  case h_1 after heq => exact absurd heq (hopen after)
  case h_2 =>
    rewrite [value?_stringText depth s hT]
    rfl

/-- The items of a list are read from their lines. -/
theorem items?_itemLines (items : List Text) (rest : Text) :
    items? (value? depth) ('\n' :: (itemLines items ++ ']' :: rest)) =
      some (items.map .string, rest) := by
  induction items with
  | nil =>
      refine items?_closing _ ?_
      rw [skipTrivia_break]
      exact skipTrivia_mark rfl rest
  | cons s items ih =>
      have htext : '\n' :: (itemLines (s :: items) ++ ']' :: rest) =
          '\n' :: ([' ', ' ', ' ', ' '] ++ stringText s ++
            (',' :: '\n' :: (itemLines items ++ ']' :: rest))) := by
        simp [itemLines]
      have hnext : NoQuoteAhead (',' :: '\n' :: (itemLines items ++ ']' :: rest)) := by
        rintro c ⟨⟩
        decide
      rw [htext, items?_string (skipTrivia_itemLine s _) hnext, skipTrivia_mark rfl]
      simp only [ih, Option.map_some, List.map_cons]
      rw [if_pos]
      simp only [List.length_cons, List.length_append]
      omega

theorem denotes_stringsText (items : List Text) :
    Denotes (stringsText items) (.array (items.map .string)) := by
  have harray : ∀ {t : Text} {depth : Nat} {vs : List Value} {rest : Text},
      items? (value? depth) t = some (vs, rest) →
      value? (depth + 1) ('[' :: t) = some (.array vs, rest) := by
    intro t depth vs rest h
    rw [value?, h]
    rfl
  match items with
  | [] =>
      refine ⟨⟨'[', _, rfl, rfl⟩, fun depth rest _ => harray (items?_closing _ ?_)⟩
      exact skipTrivia_mark rfl rest
  | [s] =>
      refine ⟨⟨'[', _, rfl, rfl⟩, fun depth rest _ => ?_⟩
      have htext : stringsText [s] ++ rest = '[' :: (stringText s ++ ']' :: rest) := by
        simp [stringsText]
      have hnext : NoQuoteAhead (']' :: rest) := by
        rintro c ⟨⟩
        decide
      rw [htext]
      apply harray
      rw [items?_string (skipTrivia_stringText s _) hnext, skipTrivia_mark rfl]
      rfl
  | s₁ :: s₂ :: items =>
      refine ⟨⟨'[', _, rfl, rfl⟩, fun depth rest _ => ?_⟩
      have htext : stringsText (s₁ :: s₂ :: items) ++ rest =
          '[' :: '\n' :: (itemLines (s₁ :: s₂ :: items) ++ ']' :: rest) := by
        simp [stringsText, itemLines]
      rw [htext]
      exact harray (items?_itemLines _ rest)

/-! ## Keys -/

/-- A key that is written without quotes. -/
def IsBareKey (key : Text) : Prop := key ≠ [] ∧ ∀ c ∈ key, isBareKeyChar c = true

instance (key : Text) : Decidable (IsBareKey key) := inferInstanceAs (Decidable (_ ∧ _))

theorem isMark_of_isBareKeyChar (h : isBareKeyChar c = true) :
    isMark c = true ∧ c ≠ '"' ∧ c ≠ '\'' ∧ c ≠ '[' := by
  have hclass : ∀ d ∈ " \t#\n\r\"'[".toList, isBareKeyChar d = false := by decide
  have hne : ∀ d ∈ " \t#\n\r\"'[".toList, c ≠ d := by
    rintro d hd rfl
    rw [hclass c hd] at h
    cases h
  refine ⟨?_, hne '"' (by decide), hne '\'' (by decide), hne '[' (by decide)⟩
  simp [isMark, isInlineBlank, hne ' ' (by decide), hne '\t' (by decide), hne '#' (by decide),
    hne '\n' (by decide), hne '\r' (by decide)]

theorem IsBareKey.begins (h : IsBareKey key) :
    ∃ c T, key = c :: T ∧ isMark c = true ∧ c ≠ '"' ∧ c ≠ '\'' ∧ c ≠ '[' := by
  rcases h with ⟨hne, hchars⟩
  cases key with
  | nil => exact absurd rfl hne
  | cons c T => exact ⟨c, T, rfl, isMark_of_isBareKeyChar (hchars c List.mem_cons_self)⟩

/-- A key is read up to the blanks behind it. -/
theorem key?_append (h : IsBareKey key) (hrest : ∀ c, rest.head? = some c → isBareKeyChar c = false)
    (hpoint : (skipInlineBlanks rest).head? ≠ some '.') :
    key? (key ++ rest) = some (⟨[], key⟩, skipInlineBlanks rest) := by
  rcases h.begins with ⟨c, T, hkey, hmark, hquote, happostrophe, -⟩
  have hempty : key.isEmpty = false := List.isEmpty_eq_false_iff.2 h.1
  have hskip : skipInlineBlanks (key ++ rest) = key ++ rest := by
    rw [hkey, List.cons_append, skipInlineBlanks_cons (isInlineBlank_of_isMark hmark)]
  -- a key that begins with no quote is read up to the first character that no bare key has
  have hpart : keyPart? (key ++ rest) = some (key, rest) := by
    rw [keyPart?]
    · simp only [takeWhile_append_of_all h.2 hrest, dropWhile_append_of_all h.2 hrest, hempty]
      rfl
    · intro T' heq
      rw [hkey] at heq
      exact hquote (List.cons.inj heq).1
    · intro T' heq
      rw [hkey] at heq
      exact happostrophe (List.cons.inj heq).1
  have hparts : keyParts? (key ++ rest) = some ([key], skipInlineBlanks rest) := by
    rw [keyParts?, hskip, hpart]
    dsimp only
    split
    case h_1 more heq =>
      rw [heq] at hpoint
      exact absurd rfl hpoint
    case h_2 => rfl
  rw [key?, hparts]
  rfl

/-! ## Lines -/

/-- In front of any text, `t` makes the statements `sts`. -/
def Says (t : Text) (sts : List Statement) : Prop :=
  ∀ rest, statements? (t ++ rest) = (statements? rest).map (sts ++ ·)

theorem says_nil : Says [] [] := by
  intro rest
  simp

theorem Says.append {sts sts' : List Statement} (ht : Says t sts) (hu : Says u sts') :
    Says (t ++ u) (sts ++ sts') := by
  intro rest
  rw [List.append_assoc, ht, hu, Option.map_map]
  congr 1
  funext more
  simp

/-- What a text says is what its statements are. -/
theorem Says.statements?_eq {sts : List Statement} (h : Says t sts) : statements? t = some sts := by
  have hend := h []
  rw [List.append_nil] at hend
  rw [hend, statements?]
  simp

/-- A line that is read up to the end says what it holds. -/
theorem says_of_line? {st : Option Statement} (hne : t ≠ [])
    (h : ∀ rest, line? (t ++ rest) = some (st, rest)) : Says t st.toList := by
  intro rest
  have hempty : (t ++ rest).isEmpty = false := by
    simp [hne]
  -- the reader goes on only with what is shorter
  have hshorter : rest.length < (t ++ rest).length := by
    rw [List.length_append]
    have := List.length_pos_iff.2 hne
    omega
  rw [statements?, hempty, h rest]
  exact if_pos hshorter

theorem says_break : Says ['\n'] [] := by
  have hline : ∀ rest, line? (['\n'] ++ rest) = some (none, rest) := fun _ => rfl
  exact says_of_line? (List.cons_ne_nil _ _) hline

/-- A line that begins with a mark is its statement and nothing but the end of the line. -/
theorem line?_statement {st : Statement} (hbegins : ∃ c T, s = c :: T ∧ isMark c = true)
    (h : Toml.statement? s = some (st, '\n' :: rest)) : line? s = some (some st, rest) := by
  rcases hbegins with ⟨c, T, rfl, hmark⟩
  rw [line?, lineEnd?_mark hmark, skipInlineBlanks_cons (isInlineBlank_of_isMark hmark)]
  simp only [h, Option.bind_eq_bind, Option.bind_some, lineEnd?_break]
  rfl

theorem says_headerLine (hname : IsBareKey name) : Says (headerLine name) [.table ⟨[], name⟩] := by
  rcases hname.begins with ⟨c, T, heq, -, -, -, hopen⟩
  have hline : ∀ rest, line? (headerLine name ++ rest) = some (some (.table ⟨[], name⟩), rest) := by
    intro rest
    have htext : headerLine name ++ rest = '[' :: (name ++ ']' :: '\n' :: rest) := by
      simp [headerLine]
    have hkey : key? (name ++ ']' :: '\n' :: rest) = some (⟨[], name⟩, ']' :: '\n' :: rest) := by
      refine key?_append hname ?_ ?_
      · rintro c ⟨⟩
        rfl
      · intro hpoint
        cases hpoint
    have hheader : header? (name ++ ']' :: '\n' :: rest) =
        some (.table ⟨[], name⟩, '\n' :: rest) := by
      rw [header?]
      · simp only [hkey, Option.bind_eq_bind, Option.bind_some]
        rfl
      · intro T' heq'
        rw [heq] at heq'
        exact hopen (List.cons.inj heq').1
    rw [htext]
    exact line?_statement ⟨'[', _, rfl, rfl⟩ hheader
  exact says_of_line? (List.cons_ne_nil _ _) hline

/-- A value is read from its text behind a key. -/
theorem pair?_append (hkey : IsBareKey key) (hvalue : Denotes value v) (depth : Nat) (rest : Text) :
    pair? (value? (depth + 1)) (key ++ ' ' :: '=' :: ' ' :: (value ++ '\n' :: rest)) =
      some ((⟨[], key⟩, v), '\n' :: rest) := by
  rcases hvalue.begins with ⟨d, T, hd, hmark⟩
  have hkey' : key? (key ++ ' ' :: '=' :: ' ' :: (value ++ '\n' :: rest)) =
      some (⟨[], key⟩, '=' :: ' ' :: (value ++ '\n' :: rest)) := by
    refine key?_append hkey ?_ ?_
    · rintro c ⟨⟩
      rfl
    · intro hpoint
      cases hpoint
  have hnext : NoQuoteAhead ('\n' :: rest) := by
    rintro c ⟨⟩
    decide
  have hequals : afterChar? '=' ('=' :: ' ' :: (value ++ '\n' :: rest)) =
      some (' ' :: (value ++ '\n' :: rest)) := rfl
  have hskip : skipInlineBlanks (' ' :: (value ++ '\n' :: rest)) = value ++ '\n' :: rest := by
    rw [hd, List.cons_append]
    exact skipInlineBlanks_cons (isInlineBlank_of_isMark hmark) _
  have hread := hvalue.reads depth ('\n' :: rest) hnext
  simp only [pair?, hkey', hequals, hskip, hread, Option.bind_eq_bind, Option.bind_some]
  rfl

theorem says_entryLine (hkey : IsBareKey key) (hvalue : Denotes value v) :
    Says (entryLine key value) [.entry ⟨[], key⟩ v] := by
  rcases hkey.begins with ⟨c, T, hc, hmark, -, -, hopen⟩
  have hline : ∀ rest, line? (entryLine key value ++ rest) = some (some (.entry ⟨[], key⟩ v), rest) := by
    intro rest
    have htext : entryLine key value ++ rest =
        key ++ ' ' :: '=' :: ' ' :: (value ++ '\n' :: rest) := by
      simp [entryLine]
    have hpair := pair?_append hkey hvalue 78 rest
    have hstatement : Toml.statement? (entryLine key value ++ rest) =
        some (.entry ⟨[], key⟩ v, '\n' :: rest) := by
      rw [htext, Toml.statement?]
      -- arrays may nest as deep as the limit of recursion, and one level is left at least
      · rw [show recursionLimit - 1 = 78 + 1 from rfl, hpair]
        rfl
      · intro T' heq
        rw [hc] at heq
        exact hopen (List.cons.inj heq).1
    refine line?_statement ⟨c, T ++ ' ' :: '=' :: ' ' :: (value ++ '\n' :: rest), ?_, hmark⟩ hstatement
    rw [htext, hc, List.cons_append]
  refine says_of_line? ?_ hline
  simp [entryLine]

end Toml
end RecordFilter
