import RecordFilter.Proofs.Arithmetic.Printing
import RecordFilter.Proofs.Comparison.Fields
import RecordFilter.Proofs.Comparison.Operands
import RecordFilter.Proofs.Condition.Reading

/-!
# Printing — a tree is known from its canonical text

`bare` leaves out of a tree the texts of its operations and the side on which a field was written.  What
is left is what the canonical text shows: trees that were read under one schema have the same text
exactly if they are the same without those (`text_eq_iff_bare_eq`), and then they mean the same.

The printed trees of arithmetic, comparisons and conditions are forms (`form`), so the text determines
the form; and the form determines the bare tree, because the words of the three syntaxes differ.
-/

namespace RecordFilter

open Text Expression

variable {schema : Schema} {s t : Text}

/-! ## Comparisons -/

namespace Comparison

variable {c d : Comparison} {operands operands' : Operands} {r r' : Relation}

/-- The sides without the texts of their operations. -/
def Operands.bare : Operands → Operands
  | .numeric left right => .numeric left.bare right.bare
  | .text field literal => .text field literal

/-- The comparison without its text, as if it had been written with the field on the left. -/
def bare (c : Comparison) : Comparison := ⟨[], c.effective, false, c.operands.bare⟩

/-- The sides around a relation as a form. -/
def Operands.form (relation : Text) : Operands → Form
  | .numeric left right => .binary left.form relation right.form
  | .text field literal => .binary (.word field) relation (.quoted literal)

/-- The canonical text as a form. -/
def form (c : Comparison) : Form := c.operands.form c.effective.symbol

theorem text_form (c : Comparison) : c.form.text = c.text := by
  obtain ⟨raw, written, swapped, operands⟩ := c
  cases operands with
  | numeric left right =>
      simp [form, Operands.form, Form.text, text, Operands.render, Arithmetic.text_form]
  | text field literal => simp [form, Operands.form, Form.text, text, Operands.render]

theorem form_bare (c : Comparison) : c.bare.form = c.form := by
  obtain ⟨raw, written, swapped, operands⟩ := c
  cases operands with
  | numeric left right =>
      simp only [bare, form, Operands.bare, Operands.form, Arithmetic.form_bare]
      rfl
  | text field literal => rfl

theorem complexity_bare (c : Comparison) : c.bare.complexity = c.complexity := by
  obtain ⟨raw, written, swapped, operands⟩ := c
  cases operands with
  | numeric left right => simp only [bare, complexity, Operands.bare, Arithmetic.complexity_bare]
  | text field literal => rfl

theorem holds_bare (record : Record) (c : Comparison) : c.bare.holds record = c.holds record := by
  obtain ⟨raw, written, swapped, operands⟩ := c
  cases operands with
  | numeric left right =>
      simp only [bare, holds, Operands.bare, Arithmetic.value_bare]
      rfl
  | text field literal => rfl

/-- The two kinds of sides that are read. -/
inductive ReadSides (schema : Schema) : Operands → Prop where
  | numeric {s t : Text} {a b : Arithmetic} :
      Arithmetic.Reads schema s a → Arithmetic.Reads schema t b → ReadSides schema (.numeric a b)
  | text {field x : Text} : field ∈ schema.allowed → ReadSides schema (.text field x)

theorem readSides_of_read (h : read schema s = .ok c) : ReadSides schema c.operands := by
  rcases exists_sides_of_read h with ⟨a, b, -, -, -, -, -, -, -, hpaired⟩
  generalize c.operands = operands at hpaired ⊢
  cases hpaired with
  | numeric _ ha hb => exact .numeric (Arithmetic.read_sound ha) (Arithmetic.read_sound hb)
  | text _ hallowed _ => exact .text hallowed

theorem isToken_symbol (r : Relation) : Form.IsToken r.symbol := by
  cases r <;> exact ⟨List.cons_ne_nil _ _, by decide⟩

theorem isToken_of_mem_allowed (hnames : schema.HasIdentifierNames) {field : Text}
    (h : field ∈ schema.allowed) : Form.IsToken field := by
  have hname := hnames field (List.mem_cons_of_mem _ h)
  refine ⟨(Arithmetic.plain_identifier hname).ne_nil, fun c hc => ?_⟩
  have hinert := (Expression.isWord_of_isIdentifier hname).inert hc
  refine ⟨?_, ?_, ?_, ?_⟩ <;> rintro rfl <;> exact absurd hinert (by decide)

theorem Operands.fits_form (hnames : schema.HasIdentifierNames) (h : ReadSides schema operands)
    (r : Relation) : (operands.form r.symbol).Fits := by
  cases h with
  | numeric ha hb =>
      have hname : Arithmetic.IsIdentifier schema.numeric := hnames _ List.mem_cons_self
      exact ⟨Arithmetic.fits_form hname ha, isToken_symbol r, Arithmetic.fits_form hname hb⟩
  | text hfield => exact ⟨isToken_of_mem_allowed hnames hfield, isToken_symbol r, trivial⟩

theorem symbol_inj (h : r.symbol = r'.symbol) : r = r' := by
  revert h
  cases r <;> cases r' <;> decide

theorem Operands.bare_eq_of_form_eq (hc : ReadSides schema operands) (hd : ReadSides schema operands')
    (h : operands.form r.symbol = operands'.form r'.symbol) :
    r = r' ∧ operands.bare = operands'.bare := by
  cases hc with
  | numeric ha hb =>
      cases hd with
      | numeric ha' hb' =>
          rcases Form.binary.inj h with ⟨hleft, hr, hright⟩
          refine ⟨symbol_inj hr, ?_⟩
          rw [bare, bare, Arithmetic.bare_eq_of_form_eq ha ha' hleft,
            Arithmetic.bare_eq_of_form_eq hb hb' hright]
      | text =>
          rcases Form.binary.inj h with ⟨-, -, hright⟩
          exact absurd hright (Arithmetic.form_ne_quoted _ _)
  | text =>
      cases hd with
      | numeric ha' hb' =>
          rcases Form.binary.inj h with ⟨-, -, hright⟩
          exact absurd hright.symm (Arithmetic.form_ne_quoted _ _)
      | text =>
          rcases Form.binary.inj h with ⟨hleft, hr, hright⟩
          cases hleft
          cases hright
          exact ⟨symbol_inj hr, rfl⟩

theorem bare_eq_of_form_eq (hc : ReadSides schema c.operands) (hd : ReadSides schema d.operands)
    (h : c.form = d.form) : c.bare = d.bare := by
  rcases Operands.bare_eq_of_form_eq hc hd h with ⟨hr, hoperands⟩
  rw [bare, bare, hr, hoperands]

end Comparison

/-! ## Conditions -/

namespace Condition

variable {a b c : Condition}

/-- The condition without the texts of its nodes, with every field on the left of its comparison. -/
def bare : Condition → Condition
  | .truth v => .truth v
  | .comparison c => .comparison c.bare
  | .negation child _ => .negation child.bare []
  | .binary op left right _ => .binary op left.bare right.bare []

/-- The canonical text as a form. -/
def form : Condition → Form
  | .truth v => .word (truthWord v)
  | .comparison c => c.form
  | .negation child _ => .unary notKeyword child.form
  | .binary op left right _ => .binary left.form op.keyword right.form

theorem text_form (c : Condition) : c.form.text = c.text := by
  induction c with
  | truth v => rfl
  | comparison c => exact c.text_form
  | negation child raw ih => simp [form, Form.text, text, ih]
  | binary op left right raw ihl ihr => simp [form, Form.text, text, ihl, ihr]

theorem form_bare (c : Condition) : c.bare.form = c.form := by
  induction c with
  | truth v => rfl
  | comparison c => exact c.form_bare
  | negation child raw ih => rw [bare, form, form, ih]
  | binary op left right raw ihl ihr => rw [bare, form, form, ihl, ihr]

theorem complexity_bare (c : Condition) : c.bare.complexity = c.complexity := by
  induction c with
  | truth v => rfl
  | comparison c => exact c.complexity_bare
  | negation child raw ih => rw [bare, complexity, complexity, ih]
  | binary op left right raw ihl ihr => rw [bare, complexity, complexity, ihl, ihr]

theorem evaluate_bare (record : Record) (c : Condition) :
    c.bare.evaluate record = c.evaluate record := by
  induction c with
  | truth v => rfl
  | comparison c => exact c.holds_bare record
  | negation child raw ih => rw [bare, evaluate, evaluate, ih]
  | binary op left right raw ihl ihr => rw [bare, evaluate, evaluate, ihl, ihr]

theorem fits_form (hnames : schema.HasIdentifierNames) (h : Reads schema s c) : c.form.Fits := by
  have htoken : ∀ w : Text, w ≠ [] → (∀ c ∈ w, c.isUpper = true) → Form.IsToken w := by
    intro w hne hupper
    refine ⟨hne, fun c hc => ?_⟩
    have hc := hupper c hc
    refine ⟨?_, ?_, ?_, ?_⟩ <;> rintro rfl <;> cases hc
  induction h with
  | @truth _ _ v _ _ _ => exact htoken _ (by cases v <;> decide) (by cases v <;> decide)
  | @binary _ _ _ _ op _ _ _ _ _ _ _ _ _ _ ihl ihr =>
      exact ⟨ihl, htoken _ (by cases op <;> decide) (by cases op <;> decide), ihr⟩
  | negation _ _ _ _ _ _ _ ih => exact ⟨htoken _ (by decide) (by decide), ih⟩
  | comparison _ _ _ _ _ hc => exact Comparison.Operands.fits_form hnames (Comparison.readSides_of_read hc) _

/-- The word between the sides of a comparison is no connective. -/
theorem form_comparison_ne (c : Comparison) (f g : Form) :
    (∀ v, c.form ≠ .word (truthWord v)) ∧ c.form ≠ .unary notKeyword f ∧
      ∀ op : Connective, c.form ≠ .binary f op.keyword g := by
  have hword : ∀ (r : Comparison.Relation) (op : Connective), r.symbol ≠ op.keyword := by
    intro r op
    cases r <;> cases op <;> decide
  obtain ⟨raw, written, swapped, operands⟩ := c
  cases operands with
  | numeric left right =>
      refine ⟨fun v h => ?_, fun h => ?_, fun op h => ?_⟩
      · cases h
      · cases h
      · exact hword _ op (Form.binary.inj h).2.1
  | text field literal =>
      refine ⟨fun v h => ?_, fun h => ?_, fun op h => ?_⟩
      · cases h
      · cases h
      · exact hword _ op (Form.binary.inj h).2.1

theorem truthWord_inj {v w : Bool} (h : truthWord v = truthWord w) : v = w := by
  revert h
  cases v <;> cases w <;> decide

theorem keyword_inj {op op' : Connective} (h : op.keyword = op'.keyword) : op = op' := by
  revert h
  cases op <;> cases op' <;> decide

theorem bare_eq_of_form_eq (ha : Reads schema s a) (hb : Reads schema t b) (h : a.form = b.form) :
    a.bare = b.bare := by
  induction ha generalizing t b with
  | truth =>
      cases hb with
      | truth => rw [truthWord_inj (Form.word.inj h)]
      | binary => cases h
      | negation => cases h
      | comparison => exact absurd h.symm ((form_comparison_ne _ (.word []) (.word [])).1 _)
  | binary _ _ _ _ _ _ _ _ ihl ihr =>
      cases hb with
      | truth => cases h
      | binary _ _ _ _ _ _ hl hr =>
          rcases Form.binary.inj h with ⟨hleft, hop, hright⟩
          rw [bare, bare, keyword_inj hop, ihl hl hleft, ihr hr hright]
      | negation => cases h
      | comparison => exact absurd h.symm ((form_comparison_ne _ _ _).2.2 _)
  | negation _ _ _ _ _ _ _ ih =>
      cases hb with
      | truth => cases h
      | binary => cases h
      | negation _ _ _ _ _ _ hchild => rw [bare, bare, ih hchild (Form.unary.inj h).2]
      | comparison => exact absurd h.symm ((form_comparison_ne _ _ (.word [])).2.1)
  | comparison _ _ _ _ _ hc =>
      cases hb with
      | truth => exact absurd h ((form_comparison_ne _ (.word []) (.word [])).1 _)
      | binary => exact absurd h ((form_comparison_ne _ _ _).2.2 _)
      | negation => exact absurd h ((form_comparison_ne _ _ (.word [])).2.1)
      | comparison _ _ _ _ _ hd =>
          rw [bare, bare, Comparison.bare_eq_of_form_eq (Comparison.readSides_of_read hc)
            (Comparison.readSides_of_read hd) h]

/-- A comparison that begins with no parenthesis, with no connective to split at and no NOT before it. -/
theorem read_of_comparison {comparison : Comparison} (htrim : trim s = s) (hbalanced : Balanced s)
    (hfirst : s.head? ≠ some '(') (hplain : truthOf? s = none ∧ split? s = none ∧ negated? s = none)
    (h : Comparison.read schema s = .ok comparison) :
    read schema s = .ok (.comparison comparison) := by
  have hunwrapped : Unwrapped (trim s) := by
    rw [htrim]
    rintro inner rfl
    exact absurd rfl hfirst
  have htidy := tidy_of_unwrapped hbalanced hunwrapped
  have hne : trim s ≠ [] := by
    rcases Comparison.read_eq_ok_iff.1 h with ⟨raw, -, -, -, -, hraw, hne, -⟩
    rw [htidy] at hraw
    cases hraw
    exact hne
  rw [htrim] at htidy hne
  exact read_complete (Reads.comparison htidy hne hplain.1 hplain.2.1 hplain.2.2 h)

/-- Two conditions that were read have the same canonical text exactly if they are the same tree but
for the texts of the nodes and the sides on which fields were written.  Then they are equally complex
and have the same value or failure on every record. -/
theorem text_eq_iff_bare_eq (hnames : schema.HasIdentifierNames) (ha : read schema s = .ok a)
    (hb : read schema t = .ok b) :
    (a.text = b.text ↔ a.bare = b.bare) ∧
      (a.text = b.text →
        a.complexity = b.complexity ∧ ∀ record, a.evaluate record = b.evaluate record) := by
  have hreads := read_sound ha
  have hreads' := read_sound hb
  have hiff : a.text = b.text ↔ a.bare = b.bare := by
    constructor
    · intro htext
      have hforms : a.form.text = b.form.text := by
        rw [text_form, text_form, htext]
      exact bare_eq_of_form_eq hreads hreads'
        (Form.text_inj (fits_form hnames hreads) (fits_form hnames hreads') hforms)
    · intro hbare
      rw [← text_form, ← text_form, ← form_bare, ← form_bare b, hbare]
  refine ⟨hiff, fun htext => ?_⟩
  have hbare := hiff.1 htext
  refine ⟨?_, fun record => ?_⟩
  · rw [← complexity_bare a, ← complexity_bare b, hbare]
  · rw [← evaluate_bare record a, ← evaluate_bare record b, hbare]

/-- A literal that looks like the end of one condition and the beginning of another, on either side of
its field. -/
theorem text_eq_of_exchanged_sides :
    ∃ a b, read .default "thing = 'x'') AND (y'".toList = .ok a ∧
      read .default "'x'') AND (y' = thing".toList = .ok b ∧ a ≠ b ∧
      a.text = "(thing = 'x'') AND (y')".toList ∧ a.text = b.text ∧ a.bare = b.bare ∧
      a.complexity = b.complexity ∧ ∀ record, a.evaluate record = b.evaluate record := by
  have hleft := Comparison.read_text_field (f := "thing".toList) Schema.hasWordNames_default
    (by decide) (by decide) (by decide) .eq "x') AND (y".toList
  rw [if_neg (by decide)] at hleft
  have hright : Comparison.read .default "'x'') AND (y' = thing".toList =
      .ok ⟨"'x'') AND (y' = thing".toList, .eq, true, .text "thing".toList "x') AND (y".toList⟩ := by
    have hword : IsWord "thing".toList := by
      unfold IsWord
      decide
    have hnamed : Comparison.namesField .default "'x'') AND (y'".toList = false := by decide
    have hoperands : Comparison.readOperands .default "'x'') AND (y' = thing".toList "thing".toList
        (Quoted.literal "x') AND (y".toList) = .ok (.text "thing".toList "x') AND (y".toList) :=
      Comparison.readOperands_text hword (by decide) (by decide) _ _
    have hread := Comparison.read_relate_of_sides .default
      (settled_literal "x') AND (y".toList) hword.settled
      (Comparison.unrelated_literal _) (Comparison.unrelated_word hword) .eq
    rw [if_neg (by decide), if_neg (by decide)] at hread
    calc
      Comparison.read .default "'x'') AND (y' = thing".toList
          = Comparison.readSides .default "'x'') AND (y' = thing".toList .eq "'x'') AND (y'".toList
              "thing".toList := hread
      _ = (Comparison.readOperands .default "'x'') AND (y' = thing".toList "thing".toList
            (Quoted.literal "x') AND (y".toList)).map (⟨"'x'') AND (y' = thing".toList, .eq, true, ·⟩) := by
          rw [Comparison.readSides, hnamed]
          rfl
      _ = .ok ⟨_, .eq, true, .text "thing".toList "x') AND (y".toList⟩ := by
          rw [hoperands]
          rfl
  have ha := read_of_comparison (by decide) (by decide) (by decide) (by decide) hleft
  have hb := read_of_comparison (by decide) (by decide) (by decide) (by decide) hright
  have hiff := text_eq_iff_bare_eq (by decide) ha hb
  exact ⟨_, _, ha, hb, by decide, by decide, by decide, hiff.1.1 (by decide), hiff.2 (by decide)⟩

end Condition
end RecordFilter
