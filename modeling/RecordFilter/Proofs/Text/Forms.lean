import RecordFilter.Proofs.Text.Quoting

/-!
# Forms — written trees with parentheses around every operation

A form is a word, a quoted literal, or an operation on forms, which is written between parentheses.  The
front of a text determines the form that it begins with, where a space or a closing parenthesis follows
(`Form.text_append_inj`).  So a form is determined by its text (`Form.text_inj`), whatever its literals
hold.
-/

namespace RecordFilter
namespace Text

/-- A written tree: a word, a literal, a word before a form, or a word between two forms. -/
inductive Form where
  | word (w : Text)
  | quoted (s : Text)
  | unary (w : Text) (f : Form)
  | binary (f : Form) (w : Text) (g : Form)
  deriving DecidableEq, Repr

namespace Form

/-- The text of a form, with parentheses around each operation. -/
def text : Form → Text
  | .word w => w
  | .quoted s => Quoted.literal s
  | .unary w f => '(' :: w ++ ' ' :: f.text ++ [')']
  | .binary f w g => '(' :: f.text ++ ' ' :: w ++ ' ' :: g.text ++ [')']

/-- A word that neither a space nor a parenthesis cuts, and that begins no literal. -/
structure IsToken (w : Text) : Prop where
  ne_nil : w ≠ []
  plain : ∀ c ∈ w, c ≠ ' ' ∧ c ≠ '(' ∧ c ≠ ')' ∧ c ≠ '\''

/-- All words in a form are tokens. -/
def Fits : Form → Prop
  | .word w => IsToken w
  | .quoted _ => True
  | .unary w f => IsToken w ∧ f.Fits
  | .binary f w g => f.Fits ∧ IsToken w ∧ g.Fits

/-- What may follow a form: the space before the next word, or the end of the operation it is in. -/
def Ends (c : Char) : Prop := c = ' ' ∨ c = ')'

variable {f g : Form} {w v r t : Text} {c d : Char}

theorem Ends.ne_quote (h : Ends c) (r : Text) : (c :: r).head? ≠ some '\'' := by
  rcases h with rfl | rfl <;> rintro ⟨⟩

theorem IsToken.not_ends (h : IsToken w) (hc : c ∈ w) : ¬Ends c := by
  rintro (rfl | rfl)
  · exact (h.plain _ hc).1 rfl
  · exact (h.plain _ hc).2.2.1 rfl

/-! ## Words -/

/-- Two texts without ends in them, each before an end. -/
theorem append_end_inj (hw : ∀ e ∈ w, ¬Ends e) (hv : ∀ e ∈ v, ¬Ends e) (hc : Ends c) (hd : Ends d)
    (h : w ++ c :: r = v ++ d :: t) : w = v ∧ c = d ∧ r = t := by
  induction w generalizing v with
  | nil =>
      cases v with
      | nil =>
          rcases List.cons.inj h with ⟨rfl, rfl⟩
          exact ⟨rfl, rfl, rfl⟩
      | cons e v =>
          rcases List.cons.inj h with ⟨rfl, -⟩
          exact absurd hc (hv _ List.mem_cons_self)
  | cons e w ih =>
      cases v with
      | nil =>
          rcases List.cons.inj h with ⟨rfl, -⟩
          exact absurd hd (hw _ List.mem_cons_self)
      | cons e' v =>
          rcases List.cons.inj h with ⟨rfl, htail⟩
          have hrest := ih (fun x hx => hw x (List.mem_cons_of_mem _ hx))
            (fun x hx => hv x (List.mem_cons_of_mem _ hx)) htail
          exact ⟨by rw [hrest.1], hrest.2⟩

/-- A token before an end is the form that the text begins with. -/
theorem eq_word_of_append (hw : IsToken w) (hg : g.Fits) (hc : Ends c) (hd : Ends d)
    (h : w ++ c :: r = g.text ++ d :: t) : g = .word w ∧ c = d ∧ r = t := by
  -- no token begins as a literal or an operation does
  have hhead : ∀ (e : Char) (u : Text), e = '(' ∨ e = '\'' → w ++ c :: r ≠ e :: u := by
    intro e u he heq
    cases w with
    | nil => exact hw.ne_nil rfl
    | cons b w =>
        have hplain := hw.plain b List.mem_cons_self
        rw [(List.cons.inj heq).1] at hplain
        rcases he with rfl | rfl
        · exact hplain.2.1 rfl
        · exact hplain.2.2.2 rfl
  cases g with
  | word v =>
      rcases append_end_inj (fun _ he => hw.not_ends he) (fun _ he => IsToken.not_ends hg he) hc hd h with
        ⟨rfl, hrest⟩
      exact ⟨rfl, hrest⟩
  | quoted s => exact absurd h (hhead _ _ (Or.inr rfl))
  | unary v g => exact absurd h (hhead _ _ (Or.inl rfl))
  | binary g v g' => exact absurd h (hhead _ _ (Or.inl rfl))

/-! ## Forms -/

/-- A form before an end is the form that the text begins with. -/
theorem text_append_inj (hf : f.Fits) (hg : g.Fits) (hc : Ends c) (hd : Ends d)
    (h : f.text ++ c :: r = g.text ++ d :: t) : f = g ∧ c = d ∧ r = t := by
  have hspace : Ends ' ' := Or.inl rfl
  have hclose : Ends ')' := Or.inr rfl
  induction f generalizing g c d r t with
  | word w =>
      rcases eq_word_of_append hf hg hc hd h with ⟨rfl, hrest⟩
      exact ⟨rfl, hrest⟩
  | quoted x =>
      cases g with
      | word v => cases (eq_word_of_append hg hf hd hc h.symm).1
      | quoted z =>
          have hbody : Quoted.encode x ++ '\'' :: (c :: r) = Quoted.encode z ++ '\'' :: (d :: t) := by
            simpa [text, Quoted.literal] using h
          rcases Quoted.encode_append_quote_inj hbody (hc.ne_quote r) (hd.ne_quote t) with ⟨rfl, hrest⟩
          rcases List.cons.inj hrest with ⟨rfl, rfl⟩
          exact ⟨rfl, rfl, rfl⟩
      | unary v g => cases h
      | binary g v g' => cases h
  | unary w f ih =>
      cases g with
      | word v => cases (eq_word_of_append hg hf hd hc h.symm).1
      | quoted z => cases h
      | unary v g =>
          have hinner : w ++ ' ' :: (f.text ++ ')' :: (c :: r)) =
              v ++ ' ' :: (g.text ++ ')' :: (d :: t)) := by
            simpa [text] using h
          rcases eq_word_of_append (g := .word v) hf.1 hg.1 hspace hspace hinner with ⟨⟨⟩, -, hrest⟩
          rcases ih hf.2 hg.2 hclose hclose hrest with ⟨rfl, -, hafter⟩
          rcases List.cons.inj hafter with ⟨rfl, rfl⟩
          exact ⟨rfl, rfl, rfl⟩
      | binary g v g' =>
          -- the word would be the left operand, and the operand the operator
          have hinner : w ++ ' ' :: (f.text ++ ')' :: (c :: r)) =
              g.text ++ ' ' :: (v ++ ' ' :: (g'.text ++ ')' :: (d :: t))) := by
            simpa [text] using h
          rcases eq_word_of_append hf.1 hg.1 hspace hspace hinner with ⟨-, -, hrest⟩
          cases (eq_word_of_append hg.2.1 hf.2 hspace hclose hrest.symm).2.1
  | binary f w f' ihf ihf' =>
      cases g with
      | word v => cases (eq_word_of_append hg hf hd hc h.symm).1
      | quoted z => cases h
      | unary v g =>
          have hinner : f.text ++ ' ' :: (w ++ ' ' :: (f'.text ++ ')' :: (c :: r))) =
              v ++ ' ' :: (g.text ++ ')' :: (d :: t)) := by
            simpa [text] using h
          rcases eq_word_of_append hg.1 hf.1 hspace hspace hinner.symm with ⟨-, -, hrest⟩
          cases (eq_word_of_append hf.2.1 hg.2 hspace hclose hrest.symm).2.1
      | binary g v g' =>
          have hinner : f.text ++ ' ' :: (w ++ ' ' :: (f'.text ++ ')' :: (c :: r))) =
              g.text ++ ' ' :: (v ++ ' ' :: (g'.text ++ ')' :: (d :: t))) := by
            simpa [text] using h
          rcases ihf hf.1 hg.1 hspace hspace hinner with ⟨rfl, -, hrest⟩
          rcases eq_word_of_append (g := .word v) hf.2.1 hg.2.1 hspace hspace hrest with
            ⟨⟨⟩, -, hright⟩
          rcases ihf' hf.2.2 hg.2.2 hclose hclose hright with ⟨rfl, -, hafter⟩
          rcases List.cons.inj hafter with ⟨rfl, rfl⟩
          exact ⟨rfl, rfl, rfl⟩

theorem text_inj (hf : f.Fits) (hg : g.Fits) (h : f.text = g.text) : f = g := by
  have hspace : Ends ' ' := Or.inl rfl
  have happend : f.text ++ ' ' :: [] = g.text ++ ' ' :: [] := by rw [h]
  exact (text_append_inj hf hg hspace hspace happend).1

end Form
end Text
end RecordFilter
