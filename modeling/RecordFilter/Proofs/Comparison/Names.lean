import RecordFilter.Proofs.Arithmetic.Operands

/-!
# Names — the names of a schema, and where a text mentions them

Names are words: ASCII letters, digits and underscores (`Schema.HasWordNames`), with a letter in front
if they are identifiers (`Schema.HasIdentifierNames`).  A text that is one word mentions that word and no
other (`mentions_word_iff`), and blanks at the ends of a text hide none of its words (`mentions_trim`).
-/

namespace RecordFilter

/-- The names of a schema are made of ASCII letters, digits and underscores. -/
def Schema.HasWordNames (schema : Schema) : Prop :=
  ∀ name ∈ schema.numeric :: schema.allowed, ∀ c ∈ name, (c.isAlphanum || c == '_') = true

instance (schema : Schema) : Decidable schema.HasWordNames :=
  inferInstanceAs (Decidable (∀ name ∈ schema.numeric :: schema.allowed, ∀ c ∈ name, _))

theorem Schema.hasWordNames_default : Schema.default.HasWordNames := by decide

theorem Schema.HasWordNames.not_mem {schema : Schema} (h : schema.HasWordNames) {c : Char}
    (hc : (c.isAlphanum || c == '_') = false) : c ∉ schema.numeric ∧ ∀ name ∈ schema.allowed, c ∉ name := by
  have hall : ∀ name ∈ schema.numeric :: schema.allowed, c ∉ name := by
    intro name hname hmem
    rw [h name hname c hmem] at hc
    cases hc
  exact ⟨hall _ List.mem_cons_self, fun name hname => hall name (List.mem_cons_of_mem _ hname)⟩

theorem Schema.HasWordNames.blank_not_mem {schema : Schema} (h : schema.HasWordNames) {c : Char}
    (hc : Text.isBlank c = true) : ∀ name ∈ schema.allowed, c ∉ name := by
  have hword : (c.isAlphanum || c == '_') = false := by
    cases hcase : c.isAlphanum || c == '_' with
    | false => rfl
    | true =>
        have hblank := Arithmetic.isBlank_of_isOperandChar (c := c)
          (by simp [Arithmetic.isOperandChar, hcase])
        rw [hc] at hblank
        cases hblank
  exact (h.not_mem hword).2

/-- The names of a schema are identifiers. -/
def Schema.HasIdentifierNames (schema : Schema) : Prop :=
  ∀ name ∈ schema.numeric :: schema.allowed, Arithmetic.IsIdentifier name

instance (schema : Schema) : Decidable schema.HasIdentifierNames :=
  inferInstanceAs (Decidable (∀ name ∈ schema.numeric :: schema.allowed, Arithmetic.IsIdentifier name))

/-- A schema without a problem lists its numeric field. -/
theorem Schema.numeric_mem_of_problem? {schema : Schema} (h : schema.problem? = none) :
    schema.numeric ∈ schema.allowed := by
  unfold Schema.problem? at h
  split at h
  case isTrue => cases h
  case isFalse =>
    split at h
    case h_1 => cases h
    case h_2 =>
      split at h
      case isTrue hallowed => exact List.contains_iff_mem.1 hallowed
      case isFalse => cases h

namespace Expression

open Text

variable {s w : Text} {c : Char}

/-! ## Texts without quotes -/

theorem maskQuotes_of_no_quotes (h : ∀ c ∈ s, c ≠ '\'' ∧ c ≠ '"') : maskQuotes s = s := by
  have hmask : ∀ q : Scan, q.zone = .plain → mask Scan.quotes q s = s := by
    induction s with
    | nil => exact fun q _ => rfl
    | cons c s ih =>
        intro q hq
        have hc := h c List.mem_cons_self
        have hvisible : q.quotes c = false := by
          simp [Scan.quotes, hq, hc.1, hc.2]
        have hzone : (q.advance c).zone = .plain := by
          have hrun := Scan.zone_run_of_no_quotes (s := [c]) (by simpa using hc) hq
          exact hrun
        have hrest := ih (fun d hd => h d (List.mem_cons_of_mem _ hd)) (q.advance c) hzone
        rw [mask, hvisible, hrest]
        rfl
  exact hmask .start rfl

theorem mentions_of_no_quotes (h : ∀ c ∈ s, c ≠ '\'' ∧ c ≠ '"') :
    mentions w s = true ↔ ∃ i, i ∈ wordOffsets w s := by
  rw [mentions_iff, maskQuotes_of_no_quotes h, ne_eq, List.eq_nil_iff_forall_not_mem]
  simp

/-- What a text mentions stands in it. -/
theorem mem_maskQuotes_of_mentions (h : mentions w s = true) (hc : c ∈ w) : c ∈ maskQuotes s := by
  have hw : w ≠ [] := List.ne_nil_of_mem hc
  rcases List.exists_mem_of_ne_nil _ (mentions_iff.1 h) with ⟨i, hi⟩
  rcases (mem_wordOffsets_iff hw).1 hi with ⟨p, q, hmask, -⟩
  rw [hmask]
  exact List.mem_append_left _ (List.mem_append_right _ hc)

/-! ## Words -/

/-- A text of ASCII letters, digits and underscores. -/
def IsWord (s : Text) : Prop := ∀ c ∈ s, (c.isAlphanum || c == '_') = true

theorem isWord_of_isIdentifier (h : Arithmetic.IsIdentifier s) : IsWord s := by
  rcases h with ⟨d, rest, rfl, hd, hrest⟩
  intro c hc
  rcases List.mem_cons.1 hc with rfl | hc
  · simp [Char.isAlphanum, hd]
  · exact hrest c hc

theorem IsWord.inert (h : IsWord s) (hc : c ∈ s) : isInert c = true ∧ isBlank c = false :=
  Arithmetic.isInert_of_leaf (Or.inl (by simp [Arithmetic.isOperandChar, h c hc]))

theorem IsWord.settled (h : IsWord s) : Settled s := Settled.of_inert fun _ hc => (h.inert hc).1

theorem IsWord.trim (h : IsWord s) : trim s = s :=
  trim_eq_self (fun _ hc => (h.inert (List.mem_of_mem_head? hc)).2)
    (fun _ hc => (h.inert (List.mem_of_getLast? hc)).2)

theorem IsWord.not_allBlank (h : IsWord s) (hne : s ≠ []) : allBlank s = false := by
  cases hblank : allBlank s with
  | false => rfl
  | true =>
      have hnil := trim_of_allBlank hblank
      rw [h.trim] at hnil
      exact absurd hnil hne

theorem IsWord.unwrap (h : IsWord s) : unwrap s = s := by
  have hunwrapped : Unwrapped s := by
    rintro inner rfl
    exact absurd (h.inert List.mem_cons_self).1 (by decide)
  rw [unwrap_of_unwrapped (by rwa [h.trim]), h.trim]

theorem IsWord.no_quotes (h : IsWord s) : ∀ c ∈ s, c ≠ '\'' ∧ c ≠ '"' := by
  intro c hc
  have hinert := (h.inert hc).1
  constructor <;> rintro rfl <;> cases hinert

theorem mentions_nil (s : Text) : mentions [] s = false := rfl

/-- A word is the only word in it. -/
theorem mentions_word_iff (hs : IsWord s) (hw : w ≠ []) : mentions w s = true ↔ w = s := by
  have hword : ∀ c ∈ s, isWordChar c = true := by
    intro c hc
    have := hs c hc
    simp only [isWordChar, this, Bool.true_or]
  rw [mentions_of_no_quotes hs.no_quotes]
  constructor
  · rintro ⟨i, hi⟩
    -- what stands beside the word would be a character that continues it
    rcases (mem_wordOffsets_iff hw).1 hi with ⟨p, q, rfl, -, hbefore, hafter⟩
    have hp : p = [] := by
      rcases List.eq_nil_or_concat p with rfl | ⟨front, c, rfl⟩
      · rfl
      · have hc := hword c (by simp)
        simp [hc] at hbefore
    have hq : q = [] := by
      cases q with
      | nil => rfl
      | cons c q =>
          have hc := hword c (by simp)
          simp [hc] at hafter
    rw [hp, hq]
    simp
  · rintro rfl
    exact ⟨0, (mem_wordOffsets_iff hw).2 ⟨[], [], by simp, rfl, rfl, rfl⟩⟩

/-- A word cannot reach over characters that are neither of a word nor quotes or parentheses. -/
theorem mentions_gap_iff {a g : Text} (ha : Settled a) (hw : IsWord w) (hne : g ≠ [])
    (hgap : ∀ c ∈ g, isInert c = true ∧ isWordChar c = false) (b : Text) :
    mentions w (a ++ g ++ b) = true ↔ mentions w a = true ∨ mentions w b = true := by
  by_cases hnil : w = []
  · simp [hnil, mentions_nil]
  · have hinert : ∀ c ∈ g, isInert c = true := fun c hc => (hgap c hc).1
    have hmask : maskQuotes (a ++ g ++ b) = maskQuotes a ++ g ++ maskQuotes b := by
      have hvisible : ∀ c, isInert c = true → Scan.start.quotes c = false :=
        fun c hc => quotes_inert hc rfl
      rw [maskQuotes, mask_append, mask_append, Scan.run_append, ha.run, Scan.run_inert hinert,
        mask_of_visible hinert hvisible, maskQuotes, maskQuotes]
    have hseparates : Separates w g := by
      intro c hc
      refine ⟨fun hmem => ?_, (hgap c hc).2⟩
      have hword : isWordChar c = true := by
        simp only [isWordChar, hw c hmem, Bool.true_or]
      rw [(hgap c hc).2] at hword
      cases hword
    rw [mentions_iff, mentions_iff, mentions_iff, hmask, wordOffsets_append_gap hnil hseparates hne,
      ne_eq, List.append_eq_nil_iff, List.map_eq_nil_iff, Decidable.not_and_iff_not_or_not]

/-! ## Blanks at the ends -/

theorem ne_nil_of_mentions (h : mentions w s = true) : w ≠ [] := by
  rintro rfl
  cases h

/-- Trimming may show a name at an end and hides none. -/
theorem mentions_trimStart (hw : IsWord w) (hs : mentions w s = true) :
    mentions w (trimStart s) = true := by
  rcases exists_trimStart s with ⟨p, hp, heq⟩
  -- the blanks that are trimmed away are no literal and hold no part of the name
  have hmask : maskQuotes s = p ++ maskQuotes (trimStart s) := by
    have hvisible : ∀ c, isInert c = true → Scan.start.quotes c = false :=
      fun c hc => quotes_inert hc rfl
    calc
      maskQuotes s = maskQuotes (p ++ trimStart s) := congrArg _ heq
      _ = p ++ maskQuotes (trimStart s) := by
        rw [maskQuotes, mask_append, Scan.run_blank hp, mask_of_visible (isInert_of_allBlank hp) hvisible,
          maskQuotes]
  have hsep : ∀ c ∈ p, c ∉ w := by
    intro c hc hmem
    have hblank := (hw.inert hmem).2
    rw [allBlank_iff.1 hp c hc] at hblank
    cases hblank
  rcases List.exists_mem_of_ne_nil _ (mentions_iff.1 hs) with ⟨i, hi⟩
  rw [hmask] at hi
  rcases mem_wordOffsets_of_append_right (ne_nil_of_mentions hs) hsep hi with ⟨j, hj, -⟩
  exact mentions_iff.2 (List.ne_nil_of_mem hj)

theorem mentions_trimEnd (hw : IsWord w) (hs : mentions w s = true) :
    mentions w (trimEnd s) = true := by
  rcases exists_trimEnd s with ⟨q, hq, heq⟩
  -- of the blanks behind the text the mask shows blanks or nothing
  have hmask : maskQuotes s = maskQuotes (trimEnd s) ++ mask Scan.quotes (Scan.start.run (trimEnd s)) q := by
    calc
      maskQuotes s = maskQuotes (trimEnd s ++ q) := congrArg _ heq
      _ = _ := by rw [maskQuotes, mask_append, maskQuotes]
  have hsep : ∀ c ∈ mask Scan.quotes (Scan.start.run (trimEnd s)) q, c ∉ w := by
    intro c hc hmem
    rcases mem_mask hc with rfl | hcq
    · have hword := hw _ hmem
      cases hword
    · have hblank := (hw.inert hmem).2
      rw [allBlank_iff.1 hq c hcq] at hblank
      cases hblank
  rcases List.exists_mem_of_ne_nil _ (mentions_iff.1 hs) with ⟨i, hi⟩
  rw [hmask] at hi
  exact mentions_iff.2
    (List.ne_nil_of_mem (mem_wordOffsets_of_append_left (ne_nil_of_mentions hs) hsep hi))

theorem mentions_trim (hw : IsWord w) (hs : mentions w s = true) : mentions w (trim s) = true :=
  mentions_trimEnd hw (mentions_trimStart hw hs)

end Expression

theorem Schema.HasIdentifierNames.hasWordNames {schema : Schema} (h : schema.HasIdentifierNames) :
    schema.HasWordNames :=
  fun name hname => Expression.isWord_of_isIdentifier (h name hname)

end RecordFilter
