import RecordFilter.Proofs.Arithmetic.Precedence
import RecordFilter.Proofs.Text.Forms

/-!
# Printing — arithmetic from its canonical text

`bare` leaves out of an expression the texts of its operations.  What is left is the tree of operators
and its leaves, with their texts and kinds.  The canonical text is a form (`form`), and expressions that
were read are the same but for those texts if they have the same form (`bare_eq_of_form_eq`).

The canonical text of an expression that was read is an operand, and it is read as the same expression
again (`read_text_of_read`).  Its own parentheses hide every operator but one on each level, and the
sign and the exponent of a number stay what they are, because a leaf is printed as it was written.
-/

namespace RecordFilter

open Text Expression

variable {schema : Schema} {s t x y : Text}

namespace Arithmetic

variable {a b tree : Arithmetic} {l : Link Operator}

/-- The expression without the texts of its operations. -/
def bare : Arithmetic → Arithmetic
  | .binary op left right _ => .binary op left.bare right.bare []
  | leaf => leaf

/-- The canonical text as a form. -/
def form : Arithmetic → Form
  | .binary op left right _ => .binary left.form [op.symbol] right.form
  | leaf => .word leaf.raw

theorem text_form (a : Arithmetic) : a.form.text = a.text := by
  induction a with
  | number raw x => rfl
  | field name => rfl
  | binary op left right raw ihl ihr => simp [form, Form.text, text, ihl, ihr]

theorem form_bare (a : Arithmetic) : a.bare.form = a.form := by
  induction a with
  | number raw x => rfl
  | field name => rfl
  | binary op left right raw ihl ihr => rw [bare, form, form, ihl, ihr]

theorem complexity_bare (a : Arithmetic) : a.bare.complexity = a.complexity := by
  induction a with
  | number raw x => rfl
  | field name => rfl
  | binary op left right raw ihl ihr => rw [bare, complexity, complexity, ihl, ihr]

theorem value_bare (record : Record) (a : Arithmetic) : a.bare.value record = a.value record := by
  induction a with
  | number raw x => rfl
  | field name => rfl
  | binary op left right raw ihl ihr => rw [bare, value, value, ihl, ihr]

/-- The characters of fields and numbers make tokens. -/
theorem isToken_of_readLeaf (hname : IsIdentifier schema.numeric) (h : readLeaf schema s = .ok a)
    (hne : s ≠ []) : Form.IsToken s := by
  refine ⟨hne, fun c hc => ?_⟩
  have hchar : isOperandChar c = true ∨ Number.isNumberChar c = true :=
    (mem_of_readLeaf h hc).imp_left fun hmem => isOperandChar_of_mem_identifier hname hmem.1
  have hleaf := isInert_of_leaf hchar
  refine ⟨?_, ?_, ?_, ?_⟩ <;> rintro rfl <;> exact absurd hleaf (by decide)

/-- A leaf is known from its text. -/
theorem leaf_of_readLeaf (h : readLeaf schema s = .ok a) : a.form = .word s ∧ a.bare = a := by
  rcases readLeaf_cases h with rfl | ⟨x, rfl⟩
  · exact ⟨rfl, rfl⟩
  · exact ⟨rfl, rfl⟩

theorem fits_form (hname : IsIdentifier schema.numeric) (h : Reads schema s a) : a.form.Fits := by
  induction h with
  | leaf _ hne _ hleaf =>
      rw [(leaf_of_readLeaf hleaf).1]
      exact isToken_of_readLeaf hname hleaf hne
  | @binary _ _ _ _ op _ _ _ _ _ _ _ _ _ ihl ihr =>
      have hsymbol : Form.IsToken [op.symbol] := by
        cases op <;> exact ⟨List.cons_ne_nil _ _, by decide⟩
      exact ⟨ihl, hsymbol, ihr⟩

/-- Operators have symbols of their own. -/
theorem symbol_inj {op op' : Operator} (h : op.symbol = op'.symbol) : op = op' := by
  have hof := congrArg Operator.ofSymbol? h
  rw [Operator.ofSymbol?_symbol, Operator.ofSymbol?_symbol] at hof
  exact Option.some.inj hof

theorem bare_eq_of_form_eq (ha : Reads schema s a) (hb : Reads schema t b) (h : a.form = b.form) :
    a.bare = b.bare := by
  induction ha generalizing t b with
  | leaf _ _ _ hleaf =>
      rw [(leaf_of_readLeaf hleaf).1] at h
      cases hb with
      | leaf _ _ _ hleaf' =>
          rw [(leaf_of_readLeaf hleaf').1] at h
          cases h
          rw [hleaf] at hleaf'
          cases hleaf'
          rfl
      | binary => cases h
  | binary _ _ _ _ _ _ _ ihl ihr =>
      cases hb with
      | leaf _ _ _ hleaf' =>
          rw [(leaf_of_readLeaf hleaf').1] at h
          cases h
      | binary _ _ _ _ _ hl hr =>
          rcases Form.binary.inj h with ⟨hleft, hop, hright⟩
          rw [bare, bare, symbol_inj (List.cons.inj hop).1, ihl hl hleft, ihr hr hright]

theorem form_ne_quoted (a : Arithmetic) (x : Text) : a.form ≠ .quoted x := by
  cases a <;> rintro ⟨⟩

/-! ## Reading the canonical text -/

theorem text_of_bare_eq (h : b.bare = a.bare) : b.text = a.text := by
  rw [← text_form, ← text_form, ← form_bare, ← form_bare a, h]

/-- Two operands around an operator are one operation. -/
theorem read_link (hname : IsIdentifier schema.numeric) (hx : IsOperand schema x)
    (hy : IsOperand schema y) (hgap : GapsFit l y) (ha : read schema x = .ok a)
    (hb : read schema y = .ok b) :
    Settled (x ++ l.before ++ l.op.symbol :: (l.after ++ y)) ∧
      read schema (x ++ l.before ++ l.op.symbol :: (l.after ++ y)) =
        .ok (.binary l.op a b (x ++ l.before ++ l.op.symbol :: (l.after ++ y))) := by
  have hsingle : ∀ {z : Text}, IsOperand schema z → Fits schema ⟨z, []⟩ := by
    intro z hz
    refine ⟨?_, fun link hlink => by cases hlink⟩
    intro i hi
    exact List.mem_singleton.1 hi ▸ hz
  have hfits : Fits schema ⟨x, [] ++ (l, y) :: []⟩ :=
    fits_append_iff.2 ⟨hsingle hx, hgap, hsingle hy⟩
  have hroot : Chain.IsRoot dialect.tiers [] l.op [] := by
    cases l.op <;> simp [Chain.IsRoot, dialect, tiers, Operator.tier]
  have htext : dialect.write ⟨x, [] ++ (l, y) :: []⟩ =
      x ++ l.before ++ l.op.symbol :: (l.after ++ y) := by
    rw [write_append, write_single, write_single]
  have hread := splitsAtRoot hname x [] l y [] hfits hroot
    (fun i hi => (hfits.1 i hi).read hname) a b (by rwa [write_single]) (by rwa [write_single])
  have hsettled := settled_write hname hfits
  rw [trim_write hname hfits] at hread
  rw [htext] at hread hsettled
  exact ⟨hsettled, hread⟩

/-- The blanks that are printed around an operator may stand before any operand. -/
theorem gapsFit_space (op : Operator) (y : Text) : GapsFit ⟨[' '], op, [' ']⟩ y := by
  refine ⟨rfl, rfl, fun _ _ _ d hd => ?_⟩
  rw [List.mem_singleton.1 hd]
  rfl

/-- The canonical text of an expression that was read is an operand, and it is read as the same
expression. -/
theorem isOperand_text (hname : IsIdentifier schema.numeric) (h : Reads schema s a) :
    IsOperand schema a.text ∧ ∃ b, read schema a.text = .ok b ∧ b.bare = a.bare := by
  induction h with
  | @leaf s raw a htidy hne hsplit hleaf =>
      have htext : a.text = raw := by
        rw [← text_form, (leaf_of_readLeaf hleaf).1]
        rfl
      have hread := read_complete (Reads.leaf (tidy_of_tidy htidy) hne hsplit hleaf)
      rw [htext]
      exact ⟨isOperand_of_readLeaf hleaf, a, hread, rfl⟩
  | @binary s raw x y op a b htidy hne hsplit hblank hblank' hx hy ihx ihy =>
      rcases ihx with ⟨hleft, a', ha', habare⟩
      rcases ihy with ⟨hright, b', hb', hbbare⟩
      rcases read_link hname hleft hright (gapsFit_space op b.text) ha' hb' with ⟨hsettled, hread⟩
      -- the parentheses that are printed around the operation make it one operand
      have htext : (binary op a b raw).text =
          '(' :: (a.text ++ [' '] ++ op.symbol :: ([' '] ++ b.text)) ++ [')'] := by
        simp [text]
      rw [htext]
      refine ⟨IsOperand.group hsettled.balanced hread, _, (read_group schema hsettled).2 hread, ?_⟩
      rw [bare, bare, habare, hbbare]

/-- The canonical text of an expression is read as an expression with the same operators over the same
leaves.  It is as complex, it has the same canonical text, and it has the same value or failure on every
record. -/
theorem read_text_of_read (schema : Schema) (hname : IsIdentifier schema.numeric)
    (h : read schema s = .ok a) :
    ∃ b, read schema a.text = .ok b ∧ b.bare = a.bare ∧ b.complexity = a.complexity ∧
      b.text = a.text ∧ ∀ record, b.value record = a.value record := by
  rcases isOperand_text hname (read_sound h) with ⟨-, b, hread, hbare⟩
  refine ⟨b, hread, hbare, ?_, text_of_bare_eq hbare, fun record => ?_⟩
  · rw [← complexity_bare b, hbare, complexity_bare]
  · rw [← value_bare record b, hbare, value_bare]

/-- Numbers with signs and exponents on both sides of the operators. -/
theorem read_text_of_signed_numbers :
    ∃ x a b, read .default "(-1e+5*result) - -1e+5".toList = .ok a ∧
      a = .binary .sub
        (.binary .mul (.number "-1e+5".toList x) (.field "result".toList) "-1e+5*result".toList)
        (.number "-1e+5".toList x) "(-1e+5*result) - -1e+5".toList ∧
      read .default "((-1e+5 * result) - -1e+5)".toList = .ok b ∧ b.bare = a.bare ∧
      b.complexity = 2 ∧ b.text = "((-1e+5 * result) - -1e+5)".toList ∧
      ∀ record, b.value record = a.value record := by
  have hname : IsIdentifier Schema.default.numeric := ⟨'r', "esult".toList, rfl, rfl, by decide⟩
  rcases (⟨_, rfl⟩ : ∃ x, Number.read? "-1e+5".toList = some x) with ⟨x, hx⟩
  have hnumber : read .default "-1e+5".toList = .ok (.number "-1e+5".toList x) :=
    read_number hx (by decide) (by decide)
  have hoperand : IsOperand .default "-1e+5".toList := IsOperand.number hx (by decide)
  have hproduct := read_link hname hoperand IsOperand.field
    (l := ⟨[], .mul, []⟩) ⟨rfl, rfl, fun _ _ _ _ hd => by cases hd⟩ hnumber (read_numeric hname)
  have hgroup := (read_group .default hproduct.1).2 hproduct.2
  have hread := (read_link hname (IsOperand.group hproduct.1.balanced hproduct.2) hoperand
    (gapsFit_space .sub _) hgroup hnumber).2
  rcases read_text_of_read .default hname hread with ⟨b, hagain, hbare, hcomplexity, htext, hvalue⟩
  exact ⟨x, _, b, hread, rfl, hagain, hbare, hcomplexity, htext, hvalue⟩

end Arithmetic
end RecordFilter
