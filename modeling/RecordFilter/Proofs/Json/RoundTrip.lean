import RecordFilter.Proofs.Json.Fitting
import RecordFilter.Proofs.Json.Strings

/-!
# RoundTrip — a value is read from its text

The text of a value that fits is read as that value, whatever follows that does not go on with a
number (`Value.Fits.readBy`).  The text of a float is the one part for which this is assumed, as `ReadsBack`.
-/

namespace RecordFilter
namespace Json

open Text (Before)

variable {s t rest left : Text} {n : Number} {c : Char} {depth : Nat} {v : Value}

/-! ## First characters -/

/-- A character that a number begins with. -/
def BeginsDigits (c : Char) : Prop := c = '-' ∨ c.isDigit = true

theorem BeginsDigits.ne (h : BeginsDigits c) {d : Char} (hminus : d ≠ '-')
    (hdigit : d.isDigit = false) : c ≠ d := by
  rintro rfl
  rcases h with rfl | h
  · exact hminus rfl
  · rw [h] at hdigit
    cases hdigit

theorem BeginsDigits.not_blank (h : BeginsDigits c) : isBlank c = false := by
  simp only [isBlank, Bool.or_eq_false_iff, beq_eq_false_iff_ne]
  exact ⟨⟨⟨h.ne (by decide) rfl, h.ne (by decide) rfl⟩, h.ne (by decide) rfl⟩, h.ne (by decide) rfl⟩

theorem begins_of_number? (h : number? (c :: s) = some (n, left)) : BeginsDigits c := by
  rw [number?] at h
  split at h
  case isTrue hminus => exact Or.inl hminus
  case isFalse =>
    have hbegins := (magnitude?_eq_some_iff.1 h).1
    rw [List.takeWhile_cons] at hbegins
    split at hbegins
    case isTrue hdigit => exact Or.inr hdigit
    case isFalse => exact absurd rfl hbegins

/-- What begins like no string and no word is a number or no scalar. -/
theorem scalar?_of_ne (hquote : c ≠ '"') (hn : c ≠ 'n') (ht : c ≠ 't') (hf : c ≠ 'f') (s : Text) :
    scalar? (c :: s) = (number? (c :: s)).map fun (n, r) => (.number n, r) := by
  unfold scalar?
  split
  case h_1 heq => exact absurd (List.cons.inj heq).1 hquote
  case h_2 heq => exact absurd (List.cons.inj heq).1 hn
  case h_3 heq => exact absurd (List.cons.inj heq).1 ht
  case h_4 heq => exact absurd (List.cons.inj heq).1 hf
  case h_5 => rfl

theorem scalar?_of_begins (h : BeginsDigits c) (s : Text) :
    scalar? (c :: s) = (number? (c :: s)).map fun (n, r) => (.number n, r) :=
  scalar?_of_ne (h.ne (by decide) (by decide)) (h.ne (by decide) (by decide))
    (h.ne (by decide) (by decide)) (h.ne (by decide) (by decide)) s

/-- A text that begins with a character that is no blank. -/
theorem skipBlanks_cons (h : isBlank c = false) (s : Text) : skipBlanks (c :: s) = c :: s := by
  rw [skipBlanks, List.dropWhile_cons, h]
  rfl

/-- Behind any character but a blank and an opening bracket stands a scalar. -/
theorem value?_of_scalar (hblank : isBlank c = false) (hbracket : c ≠ '[') (hbrace : c ≠ '\x7b')
    (depth : Nat) (s : Text) : value? depth (c :: s) = scalar? (c :: s) := by
  cases depth with
  | zero => rw [value?, skipBlanks_cons hblank]
  | succ depth =>
      rw [value?, skipBlanks_cons hblank]
      split
      case h_1 heq => exact absurd (List.cons.inj heq).1 hbracket
      case h_2 heq => exact absurd (List.cons.inj heq).1 hbrace
      case h_3 => rfl

/-! ## Floats that read back -/

/-- The text of a float is read as that float. -/
def ReadsBack (x : Float) : Prop :=
  read? (RecordFilter.Number.floatText x) = some (.number (.real x))

theorem number?_of_scalar? (h : scalar? s = some (.number n, rest)) :
    number? s = some (n, rest) := by
  unfold scalar? at h
  have hword : ∀ {word w}, word? word w s = some (.number n, rest) → w = .number n := by
    intro word w hread
    rw [word?] at hread
    split at hread
    case isTrue => exact (Prod.mk.inj (Option.some.inj hread)).1
    case isFalse => cases hread
  split at h
  case h_1 =>
    rcases Option.map_eq_some_iff.1 h with ⟨⟨t, r⟩, -, heq⟩
    cases heq
  case h_2 => cases hword h
  case h_3 => cases hword h
  case h_4 => cases hword h
  case h_5 =>
    rcases Option.map_eq_some_iff.1 h with ⟨⟨m, r⟩, hm, heq⟩
    cases heq
    exact hm

/-- In a text without blanks and brackets a number is the whole text. -/
theorem number?_of_read? (hchars : ∀ c ∈ s, RecordFilter.Number.isNumberChar c = true)
    (h : read? s = some (.number n)) : number? s = some (n, []) := by
  have hne : ∀ {d}, RecordFilter.Number.isNumberChar d = false → ∀ c ∈ s, c ≠ d := by
    rintro d hd c hc rfl
    rw [hchars c hc] at hd
    cases hd
  have hblank : ∀ c ∈ s, isBlank c = false := by
    intro c hc
    simp only [isBlank, Bool.or_eq_false_iff, beq_eq_false_iff_ne]
    exact ⟨⟨⟨hne rfl c hc, hne rfl c hc⟩, hne rfl c hc⟩, hne rfl c hc⟩
  cases s with
  | nil => cases h
  | cons c t =>
      rw [read?, value?_of_scalar (hblank c List.mem_cons_self) (hne rfl c List.mem_cons_self)
        (hne rfl c List.mem_cons_self)] at h
      split at h
      case h_2 => cases h
      case h_1 v rest hscalar =>
        split at h
        case isFalse => cases h
        case isTrue hend =>
          cases h
          have hnumber := number?_of_scalar? hscalar
          cases rest with
          | nil => exact hnumber
          | cons d more =>
              -- a rest would begin with a character of the text, which is no blank
              have hd : d ∈ c :: t := (suffix_of_number? hnumber).mem List.mem_cons_self
              rw [skipBlanks_cons (hblank d hd)] at hend
              cases hend

/-- A float that reads back does so by the reader of numbers, and nothing is left. -/
theorem readsBack_iff {x : Float} :
    ReadsBack x ↔ number? (RecordFilter.Number.floatText x) = some (.real x, []) := by
  constructor
  · intro h
    exact number?_of_read? (RecordFilter.Number.isNumberChar_of_mem_floatText x) h
  · intro h
    unfold ReadsBack
    cases htext : RecordFilter.Number.floatText x with
    | nil =>
        rw [htext] at h
        cases h
    | cons c t =>
        rw [htext] at h
        have hc := begins_of_number? h
        rw [read?, value?_of_scalar hc.not_blank (hc.ne (by decide) rfl) (hc.ne (by decide) rfl),
          scalar?_of_begins hc, h]
        rfl

/-- The text of a number that fits is read as that number. -/
theorem number?_text (h : n.Fits ReadsBack) : number? n.text = some (n, []) := by
  cases n with
  | integer n => exact number?_intText h
  | real x => exact readsBack_iff.1 h

/-! ## Arrays -/

/-- A value's text is read whatever follows it that goes on with no number. -/
def ReadBy (item : Text → Option (Value × Text)) (v : Value) : Prop :=
  ∀ rest, Stops rest → item (v.text ++ rest) = some (v, rest)

variable {item : Text → Option (Value × Text)}

theorem items?_close {after : Text} (hitem : item s = some (v, ']' :: after)) :
    items? item s = some ([v], after) := by
  rw [items?, hitem]
  rfl

theorem items?_comma {more : Text} {items : List Value} (hitem : item s = some (v, ',' :: more))
    (hless : more.length < s.length) (hmore : items? item more = some (items, rest)) :
    items? item s = some (v :: items, rest) := by
  rw [items?, hitem]
  change (if more.length < s.length then (items? item more).map _ else none) = _
  rw [if_pos hless, hmore]
  rfl

theorem items?_itemsText {items : List Value} (h : ∀ v ∈ items, ReadBy item v) (hne : items ≠ [])
    (rest : Text) : items? item (itemsText items ++ ']' :: rest) = some (items, rest) := by
  induction items with
  | nil => exact absurd rfl hne
  | cons v items ih =>
      rcases List.forall_mem_cons.1 h with ⟨hv, hitems⟩
      cases items with
      | nil =>
          rw [itemsText]
          exact items?_close (hv _ (stops_cons rfl rest))
      | cons w items =>
          rw [itemsText, List.append_assoc, List.cons_append]
          refine items?_comma (hv _ (stops_cons rfl _)) ?_ (ih hitems (List.cons_ne_nil w items))
          simp only [List.length_append, List.length_cons]
          omega

/-! ## Objects -/

/-- Behind a key and its colon the value of a member is read. -/
theorem member?_key {key more : Text} (h : item more = some (v, rest)) :
    member? item ('"' :: (key.flatMap escapedChar ++ '"' :: ':' :: more)) = some ((key, v), rest) := by
  rw [member?, skipBlanks_cons rfl]
  change ((string? (key.flatMap escapedChar ++ '"' :: ':' :: more)).bind _) = _
  rw [string?_flatMap_escapedChar]
  change ((item more).bind _) = _
  rw [h]
  rfl

theorem member?_memberText {m : Text × Value} (h : ReadBy item m.2) (hrest : Stops rest) :
    member? item (memberText m ++ rest) = some (m, rest) := by
  obtain ⟨key, v⟩ := m
  have htext : memberText (key, v) ++ rest =
      '"' :: (key.flatMap escapedChar ++ '"' :: ':' :: (v.text ++ rest)) := by
    simp [memberText, stringText]
  rw [htext, member?_key (h rest hrest)]

theorem members?_close {found : Members} {m : Text × Value} {after : Text}
    (hm : member? item s = some (m, rest)) (hrest : skipBlanks rest = '\x7d' :: after) :
    members? item found s = some (found.insert m.1 m.2, after) := by
  rw [members?, hm]
  simp only [hrest]

theorem members?_comma {found : Members} {m : Text × Value} {more : Text}
    (hm : member? item s = some (m, ',' :: more)) (hless : more.length < s.length) :
    members? item found s = members? item (found.insert m.1 m.2) more := by
  rw [members?, hm]
  exact if_pos hless

/-- The members that are read are put in one after the other. -/
theorem members?_membersText {ms : Members} (h : ∀ m ∈ ms, ReadBy item m.2) (hne : ms ≠ [])
    (found : Members) (rest : Text) :
    members? item found (membersText ms ++ '\x7d' :: rest) =
      some (Members.insertAll ms found, rest) := by
  induction ms generalizing found with
  | nil => exact absurd rfl hne
  | cons m ms ih =>
      rcases List.forall_mem_cons.1 h with ⟨hm, hms⟩
      cases ms with
      | nil =>
          rw [membersText]
          exact members?_close (member?_memberText hm (stops_cons rfl rest)) (skipBlanks_cons rfl rest)
      | cons n ms =>
          rw [membersText, List.append_assoc, List.cons_append]
          have hmore := ih hms (List.cons_ne_nil n ms) (found.insert m.1 m.2)
          rw [members?_comma (member?_memberText hm (stops_cons rfl _)) ?_, hmore]
          · rfl
          · simp only [List.length_append, List.length_cons]
            omega

/-! ## Values -/

theorem Number.text_begins (h : n.Fits ReadsBack) : ∃ c t, n.text = c :: t ∧ BeginsDigits c := by
  have hread := number?_text h
  cases htext : n.text with
  | nil =>
      rw [htext] at hread
      cases hread
  | cons c t =>
      rw [htext] at hread
      exact ⟨c, t, rfl, begins_of_number? hread⟩

/-- No value begins with a blank or a closing bracket. -/
theorem Value.Fits.text_begins (h : v.Fits ReadsBack depth) :
    ∃ c t, v.text = c :: t ∧ isBlank c = false ∧ c ≠ ']' := by
  cases h with
  | null => exact ⟨'n', _, by rw [Value.text], rfl, by decide⟩
  | boolean b =>
      cases b with
      | true => exact ⟨'t', _, by rw [Value.text]; rfl, rfl, by decide⟩
      | false => exact ⟨'f', _, by rw [Value.text]; rfl, rfl, by decide⟩
  | string s => exact ⟨'"', _, by rw [Value.text]; rfl, rfl, by decide⟩
  | array hitems => exact ⟨'[', _, by rw [Value.text]; rfl, rfl, by decide⟩
  | object hkeys hms => exact ⟨'\x7b', _, by rw [Value.text]; rfl, rfl, by decide⟩
  | number hn =>
      rcases Number.text_begins hn with ⟨c, t, htext, hc⟩
      exact ⟨c, t, by rw [Value.text, htext], hc.not_blank, hc.ne (by decide) rfl⟩

theorem array?_itemsText {items : List Value} (h : ∀ v ∈ items, ReadBy item v)
    (hfits : ∀ v ∈ items, v.Fits ReadsBack depth) (rest : Text) :
    array? item (itemsText items ++ ']' :: rest) = some (.array items, rest) := by
  cases items with
  | nil =>
      rw [itemsText, List.nil_append, array?, skipBlanks_cons rfl]
      rfl
  | cons v items =>
      have hread := items?_itemsText h (List.cons_ne_nil v items) rest
      rcases (hfits v List.mem_cons_self).text_begins with ⟨c, t, htext, hblank, hbracket⟩
      obtain ⟨more, hmore⟩ : ∃ more, itemsText (v :: items) ++ ']' :: rest = c :: more := by
        cases items with
        | nil => exact ⟨_, by rw [itemsText, htext]; rfl⟩
        | cons w items => exact ⟨_, by rw [itemsText, htext]; rfl⟩
      rw [hmore] at hread ⊢
      rw [array?, skipBlanks_cons hblank]
      split
      case h_1 heq => exact absurd (List.cons.inj heq).1 hbracket
      case h_2 => rw [hread]; rfl

/-- Behind its opening brace an object goes on with its members, where these begin with a quote. -/
theorem object?_of_members? {ms : Members} {more : Text} (hs : skipBlanks s = '"' :: more)
    (h : members? item [] ('"' :: more) = some (ms, rest)) :
    object? item s = some (.object ms, rest) := by
  rw [object?, hs]
  split
  case h_1 heq => cases heq
  case h_2 => rw [h]; rfl

theorem object?_membersText {ms : Members} (hkeys : ms.Increasing)
    (h : ∀ m ∈ ms, ReadBy item m.2) (rest : Text) :
    object? item (membersText ms ++ '\x7d' :: rest) = some (.object ms, rest) := by
  cases ms with
  | nil =>
      rw [membersText, List.nil_append, object?, skipBlanks_cons rfl]
      rfl
  | cons m ms =>
      have hread := members?_membersText h (List.cons_ne_nil m ms) [] rest
      rw [Members.insertAll_eq_append hkeys, List.nil_append] at hread
      obtain ⟨more, hmore⟩ : ∃ more, membersText (m :: ms) ++ '\x7d' :: rest = '"' :: more := by
        obtain ⟨key, v⟩ := m
        cases ms with
        | nil => exact ⟨_, by rw [membersText, memberText]; rfl⟩
        | cons n ms => exact ⟨_, by rw [membersText, memberText]; rfl⟩
      rw [hmore] at hread ⊢
      exact object?_of_members? (skipBlanks_cons rfl more) hread

/-- A scalar is read at any depth. -/
theorem readBy_of_scalar? (htext : v.text = c :: t) (hblank : isBlank c = false)
    (hbracket : c ≠ '[') (hbrace : c ≠ '\x7b')
    (h : ∀ rest, Stops rest → scalar? (v.text ++ rest) = some (v, rest)) :
    ReadBy (value? depth) v := by
  intro rest hrest
  have hscalar := h rest hrest
  rw [htext, List.cons_append] at hscalar ⊢
  rw [value?_of_scalar hblank hbracket hbrace, hscalar]

/-- A value that fits is read from its text. -/
theorem Value.Fits.readBy (h : v.Fits ReadsBack depth) : ReadBy (value? depth) v := by
  -- items and members fit one level less, where the reader of items reads them
  induction h with
  | null =>
      refine readBy_of_scalar? (by rw [Value.text]) rfl (by decide) (by decide) ?_
      intro rest hrest
      rw [Value.text]
      rfl
  | boolean b =>
      cases b with
      | true =>
          refine readBy_of_scalar? (by rw [Value.text]; rfl) rfl (by decide) (by decide) ?_
          intro rest hrest
          rw [Value.text]
          rfl
      | false =>
          refine readBy_of_scalar? (by rw [Value.text]; rfl) rfl (by decide) (by decide) ?_
          intro rest hrest
          rw [Value.text]
          rfl
  | string s =>
      refine readBy_of_scalar? (by rw [Value.text]; rfl) rfl (by decide) (by decide) ?_
      intro rest hrest
      rw [Value.text]
      exact scalar?_stringText s rest
  | @number depth n hn =>
      rcases Number.text_begins hn with ⟨c, t, htext, hc⟩
      refine readBy_of_scalar? (by rw [Value.text, htext]) hc.not_blank (hc.ne (by decide) rfl)
        (hc.ne (by decide) rfl) ?_
      intro rest hrest
      have hread := number?_append (number?_text hn) hrest
      rw [Value.text]
      rw [htext, List.cons_append] at hread ⊢
      rw [scalar?_of_begins hc, hread]
      rfl
  | @array depth items hitems ih =>
      intro rest hrest
      have htext : (Value.array items).text ++ rest = '[' :: (itemsText items ++ ']' :: rest) := by
        rw [Value.text]
        simp
      rw [htext, value?, skipBlanks_cons rfl]
      exact array?_itemsText ih hitems rest
  | @object depth ms hkeys hms ih =>
      intro rest hrest
      have htext : (Value.object ms).text ++ rest =
          '\x7b' :: (membersText ms ++ '\x7d' :: rest) := by
        rw [Value.text]
        simp
      rw [htext, value?, skipBlanks_cons rfl]
      exact object?_membersText hkeys ih rest

theorem read?_text (h : v.Fits ReadsBack depthLimit) : read? v.text = some v := by
  have hread := h.readBy [] stops_nil
  rw [List.append_nil] at hread
  rw [read?, hread]
  rfl

end Json

/-- A record whose fields fit is read from its text. -/
theorem Record.read_text {r : Record}
    (h : (Json.Value.object r.fields).Fits Json.ReadsBack Json.depthLimit) :
    Record.read r.text = .ok r := by
  rw [Record.read, Record.text, Json.read?_text h]

end RecordFilter
