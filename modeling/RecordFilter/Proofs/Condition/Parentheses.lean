import RecordFilter.Proofs.Comparison.Fields
import RecordFilter.Proofs.Comparison.Operands
import RecordFilter.Proofs.Condition.Connectives
import RecordFilter.Proofs.Expression.Parentheses

/-!
# Parentheses — what is read between any number of them

What any of the three readers accepts ends outside literals: the quotes in it are those of whole
literals (`quoteClosed_of_read`).  So parentheses around it are tidied away, and it is read as the same
tree between any number of opening and any number of closing ones (`read_enclose`).
-/

namespace RecordFilter

open Text Expression Scan

variable {schema : Schema} {s front other : Text}

/-! ## Arithmetic -/

namespace Arithmetic

variable {tree : Arithmetic}

theorem quoteClosed_of_read (hnames : schema.HasWordNames) (h : read schema s = .ok tree) :
    QuoteClosed s := by
  have hnumeric := IsWord.no_quotes (hnames schema.numeric List.mem_cons_self)
  exact zone_run_of_no_quotes (not_quote_of_reads hnumeric (read_sound h)) rfl

end Arithmetic

/-! ## Comparisons -/

namespace Comparison

variable {comparison : Comparison} {operands : Operands}

/-- A bare field has no quotes, and beside it stands one literal. -/
theorem Paired.quoteClosed (hnames : schema.HasWordNames) (h : Paired schema front other operands) :
    QuoteClosed front ∧ QuoteClosed other := by
  cases h with
  | numeric _ ha hb =>
      exact ⟨Arithmetic.quoteClosed_of_read hnames ha, Arithmetic.quoteClosed_of_read hnames hb⟩
  | @text x _ hallowed hliteral =>
      have hfield := IsWord.no_quotes (hnames _ (List.mem_cons_of_mem _ hallowed))
      refine ⟨quoteClosed_of_unwrap (zone_run_of_no_quotes hfield rfl), ?_⟩
      rw [hliteral]
      exact (settled_literal x).quoteClosed

theorem quoteClosed_of_read (hnames : schema.HasWordNames) (h : read schema s = .ok comparison) :
    QuoteClosed s := by
  rcases exists_sides_of_read h with ⟨a, b, htidy, hraw, -, -, -, -, -, hpaired⟩
  have hsides : QuoteClosed a ∧ QuoteClosed b := by
    rcases hpaired.quoteClosed hnames with ⟨hfront, hother⟩
    cases hswapped : comparison.swapped with
    | false =>
        rw [hswapped] at hfront hother
        exact ⟨quoteClosed_of_trim hfront, quoteClosed_of_trim hother⟩
    | true =>
        rw [hswapped] at hfront hother
        exact ⟨quoteClosed_of_trim hother, quoteClosed_of_trim hfront⟩
  have hsymbol : QuoteClosed comparison.written.symbol :=
    quoteClosed_inert (isInert_of_mem_symbol comparison.written)
  apply quoteClosed_of_tidy htidy
  rw [hraw]
  exact (hsides.1.append hsymbol).append hsides.2

end Comparison

/-! ## Conditions -/

namespace Condition

variable {tree : Condition} {rest : Text}

theorem eq_of_negated? (h : negated? s = some rest) : s = notKeyword ++ rest := by
  unfold negated? at h
  split at h
  case isTrue hpre =>
    rcases List.isPrefixOf_iff_prefix.1 hpre with ⟨t, rfl⟩
    rw [List.drop_left] at h
    dsimp only at h
    split at h
    case isTrue => cases h
    case isFalse =>
      cases h
      rfl
  case isFalse => cases h

theorem properPart_of_negated? (h : negated? s = some rest) : ProperPart rest s := by
  rw [eq_of_negated? h]
  exact (properPart_sides (by decide) [] rest).2

theorem eq_truthWord_of_truthOf? {b : Bool} (h : truthOf? s = some b) : s = truthWord b := by
  unfold truthOf? at h
  split at h
  case isTrue hword =>
    cases h
    exact hword
  case isFalse =>
    split at h
    case isTrue hword =>
      cases h
      exact hword
    case isFalse => cases h

theorem quoteClosed_of_truthOf? {b : Bool} (h : truthOf? s = some b) : QuoteClosed s := by
  rw [eq_truthWord_of_truthOf? h]
  cases b <;> decide

theorem quoteClosed_of_reads (hnames : schema.HasWordNames) (h : Reads schema s tree) :
    QuoteClosed s := by
  -- a text is tidied to a word, or to pieces that are read and the word that joins them
  induction h with
  | truth htidy _ htruth => exact quoteClosed_of_tidy htidy (quoteClosed_of_truthOf? htruth)
  | @binary _ _ _ _ op _ _ htidy _ _ hsplit _ _ _ _ iha ihb =>
      have hkeyword : QuoteClosed op.keyword := quoteClosed_inert (isInert_of_mem_keyword op)
      apply quoteClosed_of_tidy htidy
      rw [(split?_eq_some hsplit).1]
      exact (iha.append hkeyword).append ihb
  | negation htidy _ _ _ hneg _ _ ih =>
      have hnot : QuoteClosed notKeyword := by decide
      apply quoteClosed_of_tidy htidy
      rw [eq_of_negated? hneg]
      exact hnot.append ih
  | comparison htidy _ _ _ _ hc =>
      exact quoteClosed_of_tidy htidy (Comparison.quoteClosed_of_read hnames hc)

/-- A text that one of the readers accepts is read as the same tree between any number of opening and
any number of closing parentheses, whether they match or not and whatever it needed itself. -/
theorem read_enclose (hnames : schema.HasWordNames) (s : Text) (opens closes : Nat) :
    (∀ tree, read schema s = .ok tree → read schema (enclose opens closes s) = .ok tree) ∧
      (∀ comparison, Comparison.read schema s = .ok comparison →
        Comparison.read schema (enclose opens closes s) = .ok comparison) ∧
      ∀ tree, Arithmetic.read schema s = .ok tree →
        Arithmetic.read schema (enclose opens closes s) = .ok tree := by
  refine ⟨?_, ?_, ?_⟩
  · intro tree h
    have hreads := read_sound h
    rcases exists_tidy_of_read h with ⟨raw, htidy, -⟩
    have henclosed := tidy_enclose (quoteClosed_of_reads hnames hreads) htidy opens closes
    exact read_complete (hreads.of_tidy_eq (htidy.trans henclosed.symm))
  · intro comparison h
    rcases Comparison.read_eq_ok_iff.1 h with ⟨raw, -, -, -, -, htidy, -⟩
    have henclosed := tidy_enclose (Comparison.quoteClosed_of_read hnames h) htidy opens closes
    exact Comparison.read_of_tidy_eq h htidy henclosed
  · intro tree h
    have hreads := Arithmetic.read_sound h
    rcases Arithmetic.exists_tidy_of_read h with ⟨raw, htidy, -⟩
    have henclosed := tidy_enclose (Arithmetic.quoteClosed_of_read hnames h) htidy opens closes
    exact Arithmetic.read_complete (hreads.of_tidy_eq (htidy.trans henclosed.symm))

/-- A parenthesis in a literal closes none of those around the comparison. -/
theorem read_enclosed_parenthesis :
    read .default "((thing = ')')".toList =
        .ok (.comparison ⟨"thing = ')'".toList, .eq, false, .text "thing".toList ")".toList⟩) ∧
      Comparison.read .default "((thing = ')')".toList =
        .ok ⟨"thing = ')'".toList, .eq, false, .text "thing".toList ")".toList⟩ := by
  have hcomparison : Comparison.read .default "thing = ')'".toList =
      .ok ⟨"thing = ')'".toList, .eq, false, .text "thing".toList ")".toList⟩ := by
    have hread := Comparison.read_text_field (f := "thing".toList) Schema.hasWordNames_default
      (by decide) (by decide) (by decide) .eq ")".toList
    rw [if_neg (by decide)] at hread
    exact hread
  have htrim : trim "thing = ')'".toList = "thing = ')'".toList := by decide
  have htidy : tidy "thing = ')'".toList = .ok "thing = ')'".toList := by
    have hunwrapped : Unwrapped (trim "thing = ')'".toList) := by
      rw [htrim]
      rintro inner ⟨⟩
    rw [tidy_of_unwrapped (by decide) hunwrapped, htrim]
  have hcondition := read_complete
    (Reads.comparison htidy (by decide) (by decide) (by decide) (by decide) hcomparison)
  have henclosed := read_enclose Schema.hasWordNames_default "thing = ')'".toList 2 1
  refine ⟨?_, ?_⟩
  · exact henclosed.1 _ hcondition
  · exact henclosed.2.1 _ hcomparison

end Condition
end RecordFilter
