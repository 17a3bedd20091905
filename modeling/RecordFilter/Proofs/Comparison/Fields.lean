import RecordFilter.Proofs.Comparison.Literals
import RecordFilter.Proofs.Comparison.Sides

/-!
# Fields — a field beside a literal or a number

A field on the left of a relation is read with what stands on the right of it, unless the check for
unknown names counts more than three characters (`read_relate_field`).  Of a literal it counts the
quotes, so a literal with enough quotes in it is refused (`read_encoded_literal`).
-/

namespace RecordFilter
namespace Comparison

open Text Expression

variable {schema : Schema} {b f n s : Text}

/-! ## Relations between texts -/

/-- What a relation says of two texts in the order of code points. -/
def Relation.Relates : Relation → Text → Text → Prop
  | .eq, s, t => s = t
  | .ne, s, t => s ≠ t
  | .lt, s, t => Before s t
  | .gt, s, t => Before t s
  | .le, s, t => Before s t ∨ s = t
  | .ge, s, t => Before t s ∨ s = t

theorem Relation.holdsOf_order_iff (r : Relation) (s t : Text) :
    r.holdsOf (order s t) = true ↔ r.Relates s t := by
  have heq : order s t = .eq ↔ s = t := order_eq_iff
  have hlt : order s t = .lt ↔ Before s t := order_eq_lt_iff
  have hgt : order s t = .gt ↔ Before t s := order_eq_gt_iff
  cases r <;> simp only [Relates, ne_eq, ← heq, ← hlt, ← hgt] <;> cases order s t <;> decide

/-! ## A literal as a side -/

theorem trim_literal (x : Text) : trim (Quoted.literal x) = Quoted.literal x := by
  rw [← fill_nil, trim_fill]
  rfl

theorem allBlank_literal (x : Text) : allBlank (Quoted.literal x) = false := by
  rw [← fill_nil, allBlank_fill]

theorem unrelated_literal (x : Text) : Unrelated (Quoted.literal x) := by
  intro c hc hmem
  rw [maskGroups, mask_literal encloses_of_quotes rfl] at hmem
  rw [List.eq_of_mem_replicate hmem] at hc
  exact absurd hc (by decide)

/-- The check counts each quote in the text of a literal, and one more. -/
theorem length_residue_literal (hnames : schema.HasWordNames) (x : Text) :
    (residue schema (atDepthZero .start (Quoted.literal x))).length = x.count '\'' + 1 := by
  have hquote : ∀ name ∈ schema.allowed, '\'' ∉ name := (hnames.not_mem (by decide)).2
  have hcounts : counts '\'' = true := by decide
  have hnil : outsideQuotes false [] = [] := rfl
  rw [atDepthZero_literal, ← fill_nil, residue_fill hquote List.not_mem_nil, withoutAll_nil, hnil,
    List.nil_append, List.append_nil, List.filter_replicate, if_pos hcounts, List.length_replicate]

/-! ## A field on the left -/

theorem unrelated_word (h : IsWord s) : Unrelated s := by
  have hclass : ∀ c ∈ "<=>".toList, (c.isAlphanum || c == '_') = false := by decide
  apply unrelated_of_not_mem
  intro c hc hmem
  have hword := h c hmem
  rw [hclass c hc] at hword
  cases hword

/-- A word before a relation is mentioned, whatever stands behind the relation. -/
theorem mentions_relate_left (hf : IsWord f) (hne : f ≠ []) (r : Relation) (b : Text) :
    mentions f (relate r f b) = true :=
  (mentions_relate_iff hf.settled hf r b).2 (Or.inl ((mentions_word_iff hf hne).2 rfl))

theorem namesField_of_mentions (hf : f ∈ schema.allowed) (h : mentions f s = true) :
    namesField schema s = true :=
  List.any_eq_true.2 ⟨f, hf, h⟩

/-- The reader on a field and what stands behind a relation. -/
theorem read_relate_field (hnames : schema.HasWordNames) (hf : f ∈ schema.allowed) (hne : f ≠ [])
    (hb : Settled b) (htrim : trim b = b) (hbne : allBlank b = false) (hnb : Unrelated b)
    (r : Relation) :
    read schema (relate r f b) =
      if 3 < (residue schema f).length + r.symbol.length +
          (residue schema (atDepthZero .start b)).length then
        .error ⟨.unknownNames schema.allowed, relate r f b⟩
      else
        (do
          let operands ← readOperands schema (relate r f b) f b
          .ok ⟨relate r f b, r, false, operands⟩) := by
  have hword : IsWord f := hnames f (List.mem_cons_of_mem _ hf)
  have hfne := hword.not_allBlank hne
  have hzero : atDepthZero .start f = f := atDepthZero_inert fun _ hc => (hword.inert hc).1
  have hclosed : Closed schema f :=
    closed_of_no_quotes (hnames.blank_not_mem rfl) fun c hc => (hword.no_quotes c hc).1
  -- neither end has a blank, so the whole is as it is tidied
  have hraw : trim (relate r f b) = relate r f b := by
    rw [trim_relate hfne hbne, trimStart_of_trim hword.trim, trimEnd_of_trim htrim]
  have hcount : hasUnknownName schema (atDepthZero .start (trim (relate r f b))) =
      decide (3 < (residue schema f).length + r.symbol.length +
        (residue schema (atDepthZero .start b)).length) := by
    rw [hasUnknownName, residue_relate hnames hword.settled (by rwa [hzero]), hzero,
      List.length_append, List.length_append]
  have hleft : f.isEmpty = false := List.isEmpty_eq_false_iff.2 hne
  have hright : b.isEmpty = false := by
    cases b with
    | nil => cases hbne
    | cons c b => rfl
  have hself : mentions f f = true := (mentions_word_iff hword hne).2 rfl
  rw [read_relate_of_sides schema hword.settled hb (unrelated_word hword) hnb, hcount, hraw,
    namesField_of_mentions hf (mentions_relate_left hword hne r b), hword.trim, htrim, readSides,
    hleft, hright, namesField_of_mentions hf hself]
  simp

/-! ## A text field -/

theorem readOperands_text (hword : IsWord f) (hf : f ∈ schema.allowed) (hnumeric : f ≠ schema.numeric)
    (raw x : Text) :
    readOperands schema raw f (Quoted.literal x) = .ok (.text f x) := by
  have hmentions : mentions schema.numeric f = false := by
    by_cases hempty : schema.numeric = []
    · rw [hempty, mentions_nil]
    · rw [← Bool.not_eq_true, mentions_word_iff hword hempty]
      exact fun heq => hnumeric heq.symm
  have hallowed : schema.isAllowed f = true := List.contains_iff_mem.2 hf
  rw [readOperands, hmentions, hword.unwrap, hallowed, readLiteral_eq_ok_iff.2 rfl]
  rfl

/-- The reader on a text field and a literal. -/
theorem read_text_field (hnames : schema.HasWordNames) (hf : f ∈ schema.allowed) (hne : f ≠ [])
    (hnumeric : f ≠ schema.numeric) (r : Relation) (x : Text) :
    read schema (relate r f (Quoted.literal x)) =
      if 3 < (residue schema f).length + r.symbol.length + (x.count '\'' + 1) then
        .error ⟨.unknownNames schema.allowed, relate r f (Quoted.literal x)⟩
      else .ok ⟨relate r f (Quoted.literal x), r, false, .text f x⟩ := by
  have hword : IsWord f := hnames f (List.mem_cons_of_mem _ hf)
  rw [read_relate_field hnames hf hne (settled_literal x) (trim_literal x) (allBlank_literal x)
    (unrelated_literal x), length_residue_literal hnames, readOperands_text hword hf hnumeric]
  rfl

/-- A text field of the default schema beside the encoded form of a text `x` is read as a comparison
with `x`, which relates the text in that field of a record to `x`, unless the relation and the quotes
of `x` are more than two characters. -/
theorem read_encoded_literal (hf : f ∈ Schema.default.allowed) (hnumeric : f ≠ Schema.default.numeric)
    (r : Relation) (x : Text) :
    read .default (relate r f (Quoted.literal x)) =
        (if 3 < r.symbol.length + (x.count '\'' + 1) then
          .error ⟨.unknownNames Schema.default.allowed, relate r f (Quoted.literal x)⟩
        else .ok ⟨relate r f (Quoted.literal x), r, false, .text f x⟩) ∧
      ∀ (record : Record) (s : Text), record.get? f = some (.string s) →
        ∃ b, holds record ⟨relate r f (Quoted.literal x), r, false, .text f x⟩ = .ok b ∧
          (b = true ↔ r.Relates s x) := by
  refine ⟨?_, ?_⟩
  · have hknown : ∀ f ∈ Schema.default.allowed, f ≠ [] ∧ residue .default f = [] := by decide
    rcases hknown f hf with ⟨hne, hresidue⟩
    rw [read_text_field Schema.hasWordNames_default hf hne hnumeric, hresidue, List.length_nil,
      Nat.zero_add]
  · intro record s hfield
    refine ⟨r.holdsOf (order s x), ?_, r.holdsOf_order_iff s x⟩
    simp only [holds, Record.textOf, hfield, Json.Value.scalarText?, effective]
    rfl

/-- One quote beside a relation of one character is let through. -/
theorem read_one_quote :
    read .default "thing = 'it''s'".toList =
        .ok ⟨"thing = 'it''s'".toList, .eq, false, .text "thing".toList "it's".toList⟩ ∧
      ∃ b, holds ⟨[("thing".toList, .string "it's".toList)]⟩
          ⟨"thing = 'it''s'".toList, .eq, false, .text "thing".toList "it's".toList⟩ = .ok b ∧
        (b = true ↔ Relation.eq.Relates "it's".toList "it's".toList) := by
  have hthing := read_encoded_literal (f := "thing".toList) (by decide) (by decide) .eq "it's".toList
  refine ⟨?_, ?_⟩
  · have hread := hthing.1
    rw [if_neg (by decide)] at hread
    exact hread
  · exact hthing.2 ⟨[("thing".toList, .string "it's".toList)]⟩ "it's".toList rfl

/-- One quote beside a relation of two characters is refused for an unknown name. -/
theorem read_one_quote_unequal :
    "thing".toList ∈ Schema.default.allowed ∧ "thing".toList ≠ Schema.default.numeric ∧
      Quoted.literal "it's".toList = "'it''s'".toList ∧
      read .default "thing <> 'it''s'".toList =
        .error ⟨.unknownNames Schema.default.allowed, "thing <> 'it''s'".toList⟩ := by
  refine ⟨by decide, by decide, by decide, ?_⟩
  have hread := read_text_field (f := "thing".toList) Schema.hasWordNames_default (by decide)
    (by decide) (by decide) .ne "it's".toList
  rw [if_pos (by decide)] at hread
  exact hread

/-! ## The numeric field -/

theorem isWord_of_digits (hn : ∀ c ∈ n, c.isDigit = true) : IsWord n := by
  intro c hc
  simp [Char.isAlphanum, hn c hc]

/-- No name is made of digits alone. -/
theorem exists_mem_not_mem_digits (hf : Arithmetic.IsIdentifier f)
    (hn : ∀ c ∈ n, c.isDigit = true) : ∃ c ∈ f, c ∉ n := by
  rcases hf with ⟨d, rest, rfl, hd, -⟩
  refine ⟨d, List.mem_cons_self, fun hmem => ?_⟩
  have hletter := Arithmetic.not_inMantissa_of_isAlpha hd
  rw [Number.inMantissa, hn d hmem] at hletter
  cases hletter

/-- The check counts nothing in a number of digits. -/
theorem residue_digits (hnames : schema.HasIdentifierNames) (hn : ∀ c ∈ n, c.isDigit = true) :
    residue schema n = [] := by
  have hkept : withoutAll schema.allowed n = n := by
    refine withoutAll_of_forall fun name hname => ?_
    rcases exists_mem_not_mem_digits (hnames name (List.mem_cons_of_mem _ hname)) hn with
      ⟨c, hc, hcn⟩
    exact without_eq_self hc hcn
  have hquotes : ∀ c ∈ n, c ≠ '\'' := fun c hc => ((isWord_of_digits hn).no_quotes c hc).1
  rw [residue_eq, hkept, outsideQuotes_of_no_quotes hquotes, List.filter_eq_nil_iff]
  intro c hc
  simp [counts, hn c hc]

/-- The reader on the numeric field and a number of digits. -/
theorem read_numeric_field (hnames : schema.HasIdentifierNames) (hf : schema.numeric ∈ schema.allowed)
    (hne : n ≠ []) (hn : ∀ c ∈ n, c.isDigit = true) (r : Relation) :
    read schema (relate r schema.numeric n) =
      if 3 < (residue schema schema.numeric).length + r.symbol.length then
        .error ⟨.unknownNames schema.allowed, relate r schema.numeric n⟩
      else
        .ok ⟨relate r schema.numeric n, r, false, .numeric (.field schema.numeric)
          (.number n (Number.nearest (Number.digitsValue n) 0))⟩ := by
  have hname : Arithmetic.IsIdentifier schema.numeric := hnames _ List.mem_cons_self
  have hnameNe : schema.numeric ≠ [] := (Arithmetic.plain_identifier hname).ne_nil
  have hword : IsWord n := isWord_of_digits hn
  have hzero : atDepthZero .start n = n := atDepthZero_inert fun _ hc => (hword.inert hc).1
  have hother : ∀ name ∈ schema.numeric :: schema.allowed, n ≠ name := by
    rintro name hmem rfl
    rcases exists_mem_not_mem_digits (hnames n hmem) hn with ⟨c, hc, hcn⟩
    exact hcn hc
  have hleft := Arithmetic.read_numeric hname
  have hright : Arithmetic.read schema n =
      .ok (.number n (Number.nearest (Number.digitsValue n) 0)) := by
    refine Arithmetic.read_number (Number.read?_digits hne hn) ?_ (hother _ List.mem_cons_self)
    exact fun hmem => hother n (List.mem_cons_of_mem _ hmem) rfl
  have hnamed : mentions schema.numeric schema.numeric = true :=
    (mentions_word_iff (isWord_of_isIdentifier hname) hnameNe).2 rfl
  rw [read_relate_field hnames.hasWordNames hf hnameNe hword.settled hword.trim
    (hword.not_allBlank hne) (unrelated_word hword), hzero, residue_digits hnames hn,
    List.length_nil, Nat.add_zero, readOperands, if_pos hnamed, hleft, hright]
  rfl

end Comparison
end RecordFilter
