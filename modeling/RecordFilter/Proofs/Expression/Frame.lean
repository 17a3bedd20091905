import RecordFilter.Proofs.Expression.Masking
import RecordFilter.Proofs.Expression.Tidying
import RecordFilter.Proofs.Text.Quoting

/-!
# Frame — a text around one literal

`fill P S x` is the text `P`, the literal for `x` and the text `S`.  In a frame, where `P` ends outside
literals and no quote stands next to the literal, what is read as structure lies in `P` and `S`: the
same pieces of the two are trimmed away, repaired, unwrapped and cut off, whatever the literal holds.
-/

namespace RecordFilter
namespace Expression

open Text Scan

variable {P S P' S' A B x raw w : Text} {c : Char} {i : Nat} {q : Scan}

/-- A literal between two texts. -/
def fill (P S x : Text) : Text := P ++ Quoted.literal x ++ S

/-- `P` ends outside literals, and no quote stands next to what is put between `P` and `S`. -/
structure Framed (P S : Text) : Prop where
  plain : (start.run P).zone = .plain
  before : P.getLast? ≠ some '\''
  after : S.head? ≠ some '\''

/-! ## Smaller frames -/

theorem Framed.right (h : Framed (A ++ P) S) (hA : (start.run A).zone = .plain) : Framed P S := by
  refine ⟨?_, ?_, h.after⟩
  · have hplain := h.plain
    rw [run_append, zone_run_of_plain hA] at hplain
    exact hplain
  · intro hlast
    apply h.before
    rw [List.getLast?_append, hlast]
    rfl

theorem Framed.left (h : Framed P (S ++ B)) : Framed P S := by
  refine ⟨h.plain, h.before, ?_⟩
  intro hfirst
  apply h.after
  rw [List.head?_append, hfirst]
  rfl

theorem Framed.trim (h : Framed P S) : Framed (trimStart P) (trimEnd S) := by
  rcases exists_trimStart P with ⟨p, hp, hP⟩
  rcases exists_trimEnd S with ⟨s, -, hS⟩
  rw [hP, hS] at h
  refine (h.right ?_).left
  rw [run_blank hp]
  rfl

/-! ## The reader over a frame -/

theorem fill_eq (P S x : Text) : fill P S x = P ++ '\'' :: (Quoted.encode x ++ '\'' :: S) := by
  simp [fill, Quoted.literal]

theorem quote_mem_fill (P S x : Text) : '\'' ∈ fill P S x := by
  simp [fill_eq]

theorem fill_ne_nil (P S x : Text) : fill P S x ≠ [] := by
  simp [fill_eq]

theorem head?_fill (P S x : Text) : (fill P S x).head? = P.head?.or (some '\'') := by
  rw [fill_eq, List.head?_append]
  rfl

theorem getLast?_fill (P S x : Text) : (fill P S x).getLast? = S.getLast?.or (some '\'') := by
  have heq : fill P S x = (P ++ '\'' :: Quoted.encode x) ++ ['\''] ++ S := by
    simp [fill_eq]
  rw [heq, List.getLast?_append, List.getLast?_concat]

theorem allBlank_fill (P S x : Text) : allBlank (fill P S x) = false := by
  have hquote : isBlank '\'' = false := by decide
  simp [fill_eq, hquote]

theorem trim_fill (P S x : Text) : trim (fill P S x) = fill (trimStart P) (trimEnd S) x := by
  rw [fill_eq, fill_eq, trim_append_cons P (by decide), trimEnd_append_cons _ (by decide)]

theorem fill_wrapped (P S x : Text) : fill ('(' :: P) (S ++ [')']) x = '(' :: fill P S x ++ [')'] := by
  simp [fill_eq]

theorem run_fill (h : Framed P S) (x : Text) : start.run (fill P S x) = start.run (P ++ S) := by
  calc
    start.run (fill P S x) = ((start.run P).run (Quoted.literal x)).run S := by
      rw [fill, run_append, run_append]
    _ = (start.run P).run S := by rw [run_literal h.plain]
    _ = start.run (P ++ S) := (run_append start P S).symm

theorem dips_fill (h : Framed P S) (x : Text) : dips (fill P S x) = dips (P ++ S) := by
  have hliteral : start.dips P = false → (start.run P).dips (Quoted.literal x) = false :=
    fun hP => dips_literal h.plain (depth_nonneg_of_not_dips hP (Int.le_refl 0)) x
  rw [dips, dips, fill, dips_append, dips_append, dips_append, run_append, run_literal h.plain]
  -- a text that dipped before the literal dips, whatever follows
  cases hP : start.dips P with
  | true => rfl
  | false =>
      rw [hliteral hP]
      rfl

theorem depth_fill (h : Framed P S) (x : Text) : depth (fill P S x) = depth (P ++ S) := by
  rw [depth, depth, run_fill h]

theorem balanced_fill_iff (h : Framed P S) (x : Text) : Balanced (fill P S x) ↔ Balanced (P ++ S) := by
  rw [Balanced, Balanced, depth_fill h, dips_fill h]

/-- A literal that ends a balanced text has no open parenthesis before it. -/
theorem run_of_balanced_fill (h : Framed P S) (hb : Balanced (fill P S x)) (hS : allBlank S = true) :
    start.run P = start := by
  have hdepth : (start.run P).depth = 0 := by
    have hwhole := ((balanced_fill_iff h x).1 hb).1
    rwa [depth, run_append, run_blank hS] at hwhole
  have hzone := h.plain
  rcases hrun : start.run P with ⟨zone, depth⟩
  rw [hrun] at hdepth hzone
  simp only at hdepth hzone
  rw [hdepth, hzone]
  rfl

/-! ## Frames in literals -/

/-- Inside a literal the reader is outside literals only between two quotes that stand for one. -/
theorem getLast?_of_prefix {p r z : Text} {d : Int} (h : p ++ '\'' :: r = Quoted.encode z ++ ['\''])
    (hplain : ((⟨.single, d⟩ : Scan).run p).zone = .plain) : p.getLast? = some '\'' := by
  induction z generalizing p with
  | nil =>
      cases p with
      | nil => cases hplain
      | cons c p =>
          have hlen := congrArg List.length h
          simp [Quoted.encode] at hlen
  | cons c z ih =>
      -- a piece ends as its rest does, so the induction takes off what `c` is encoded as
      have hcons : ∀ (a : Char) {p : Text}, p.getLast? = some '\'' →
          (a :: p).getLast? = some '\'' := by
        intro a p hp
        rw [List.getLast?_cons, hp]
        rfl
      cases p with
      | nil => cases hplain
      | cons e p =>
          by_cases hc : c = '\''
          · subst hc
            rw [Quoted.encode_quote] at h
            rcases List.cons.inj h with ⟨rfl, hrest⟩
            cases p with
            | nil => rfl
            | cons e p =>
                rcases List.cons.inj hrest with ⟨rfl, htail⟩
                exact hcons _ (hcons _ (ih htail hplain))
          · rw [Quoted.encode_cons hc] at h
            rcases List.cons.inj h with ⟨rfl, hrest⟩
            have hstay : (⟨.single, d⟩ : Scan).advance e = ⟨.single, d⟩ := by
              simp [advance, hc]
            rw [run_cons, hstay] at hplain
            exact hcons _ (ih hrest hplain)

/-- A filled frame that is one literal has nothing around it. -/
theorem eq_of_fill_eq_literal (h : Framed P S) {z : Text} (heq : fill P S x = Quoted.literal z) :
    P = [] ∧ S = [] ∧ x = z := by
  rw [fill_eq, Quoted.literal, List.cons_append] at heq
  cases P with
  | nil =>
      rcases Quoted.encode_append_quote_inj (List.cons.inj heq).2 h.after (by decide) with ⟨hx, hS⟩
      exact ⟨rfl, hS, hx⟩
  | cons c P =>
      -- then `P` ends inside the literal, at a quote, and the frame forbids that
      exfalso
      rcases List.cons.inj heq with ⟨rfl, hrest⟩
      have hlast := getLast?_of_prefix hrest h.plain
      apply h.before
      rw [List.getLast?_cons, hlast]
      rfl

/-! ## Repair -/

/-- What is dropped from a filled frame is dropped from the frame. -/
theorem dropLoose?_fill (h : Framed P S) :
    (∃ P' S', Framed P' S' ∧ P'.length + S'.length < P.length + S.length ∧
        ∀ x, dropLoose? (fill P S x) = some (fill P' S' x)) ∨
      ∀ x, dropLoose? (fill P S x) = none := by
  by_cases hfront : 0 < depth (P ++ S) ∧ P.head? = some '('
  · rcases hfront with ⟨hpos, hhead⟩
    rcases List.head?_eq_some_iff.1 hhead with ⟨P', rfl⟩
    have h' : Framed P' S := h.right (A := ['(']) rfl
    refine Or.inl ⟨P', S, h', by simp, fun x => ?_⟩
    exact dropLoose?_eq_some_iff.2 (Or.inl ⟨by rwa [depth_fill h], rfl⟩)
  · by_cases hback : depth (P ++ S) < 0 ∧ S.getLast? = some ')'
    · rcases hback with ⟨hneg, hlast⟩
      rcases List.getLast?_eq_some_iff.1 hlast with ⟨S', rfl⟩
      refine Or.inl ⟨P, S', h.left, by simp, fun x => ?_⟩
      exact dropLoose?_eq_some_iff.2 (Or.inr ⟨by rwa [depth_fill h], by simp [fill]⟩)
    · refine Or.inr fun x => Option.eq_none_iff_forall_ne_some.2 fun rest hdrop => ?_
      -- the literal ends in quotes, so a parenthesis at an end is one of the frame
      rcases dropLoose?_eq_some_iff.1 hdrop with ⟨hpos, heq⟩ | ⟨hneg, heq⟩
      · refine hfront ⟨by rwa [depth_fill h] at hpos, ?_⟩
        have hhead := congrArg List.head? heq
        rw [head?_fill] at hhead
        cases P with
        | nil => cases hhead
        | cons c P => exact hhead
      · refine hback ⟨by rwa [depth_fill h] at hneg, ?_⟩
        have hlast := congrArg List.getLast? heq
        rw [getLast?_fill, List.getLast?_concat] at hlast
        cases hS : S.getLast? with
        | none =>
            rw [hS] at hlast
            cases hlast
        | some c => rwa [hS] at hlast

theorem repair_fill (h : Framed P S) :
    (∃ P' S', Framed P' S' ∧ ∀ x, repair (fill P S x) = some (fill P' S' x)) ∨
      ∀ x, repair (fill P S x) = none := by
  -- balance, and what is dropped to get it, are the frame's, so one repair serves all literals
  induction hn : P.length + S.length using Nat.strongRecOn generalizing P S with
  | ind n ih =>
      subst hn
      by_cases hb : Balanced (P ++ S)
      · exact Or.inl ⟨P, S, h, fun x => repair_of_balanced ((balanced_fill_iff h x).2 hb)⟩
      · have hb' : ∀ x, ¬Balanced (fill P S x) := fun x hx => hb ((balanced_fill_iff h x).1 hx)
        rcases dropLoose?_fill h with ⟨P', S', h', hlen, hdrop⟩ | hdrop
        · have hP := length_trimStart_le P'
          have hS := length_trimEnd_le S'
          have hstep : ∀ x, repair (fill P S x) = repair (fill (trimStart P') (trimEnd S') x) := by
            intro x
            rw [repair_of_drop (hb' x) (hdrop x), trim_fill]
          rcases ih _ (by omega) h'.trim rfl with ⟨P'', S'', h'', hok⟩ | hnone
          · exact Or.inl ⟨P'', S'', h'', fun x => (hstep x).trans (hok x)⟩
          · exact Or.inr fun x => (hstep x).trans (hnone x)
        · exact Or.inr fun x => repair_of_not_drop (hb' x) (hdrop x)

/-! ## Unwrapping -/

/-- The parentheses around a filled frame are those around the frame. -/
theorem wrapped_or_unwrapped (h : Framed P S) :
    (∃ P' S', P = '(' :: P' ∧ S = S' ++ [')'] ∧ Framed P' S' ∧ ∀ x, dips (fill P' S' x) = false) ∨
      ∀ x, Unwrapped (fill P S x) := by
  cases P with
  | nil =>
      -- the text begins with the quote of the literal
      apply Or.inr
      intro x inner heq
      rw [fill_eq, List.nil_append] at heq
      exact absurd (List.cons.inj heq).1 (by decide)
  | cons c P =>
      rcases List.eq_nil_or_concat S with rfl | ⟨S', d, rfl⟩
      · -- the text ends with the quote of the literal
        apply Or.inr
        intro x inner heq
        have hlast := congrArg List.getLast? heq
        rw [getLast?_fill, List.getLast?_concat] at hlast
        cases hlast
      · rw [List.concat_eq_append] at h ⊢
        have hframed : c = '(' → Framed P S' := by
          rintro rfl
          exact (h.right (A := ['(']) rfl).left
        have hshape : ∀ x inner, fill (c :: P) (S' ++ [d]) x = '(' :: inner ++ [')'] →
            c = '(' ∧ d = ')' ∧ inner = fill P S' x := by
          intro x inner heq
          have hfill : fill (c :: P) (S' ++ [d]) x = c :: fill P S' x ++ [d] := by
            simp [fill_eq]
          rw [hfill] at heq
          rcases List.append_inj' heq rfl with ⟨hfront, hback⟩
          rcases List.cons.inj hfront with ⟨hc, hinner⟩
          exact ⟨hc, (List.cons.inj hback).1, hinner.symm⟩
        by_cases hwrap : c = '(' ∧ d = ')' ∧ dips (P ++ S') = false
        · rcases hwrap with ⟨rfl, rfl, hdips⟩
          refine Or.inl ⟨P, S', rfl, rfl, hframed rfl, fun x => ?_⟩
          rw [dips_fill (hframed rfl), hdips]
        · apply Or.inr
          intro x inner heq
          rcases hshape x inner heq with ⟨hc, hd, rfl⟩
          rw [dips_fill (hframed hc)]
          cases hdips : dips (P ++ S') with
          | true => rfl
          | false => exact absurd ⟨hc, hd, hdips⟩ hwrap

theorem unwrap_fill (h : Framed P S) :
    ∃ P' S', Framed P' S' ∧ ∀ x, unwrap (fill P S x) = fill P' S' x := by
  induction hn : P.length + S.length using Nat.strongRecOn generalizing P S with
  | ind n ih =>
      subst hn
      have hP := length_trimStart_le P
      have hS := length_trimEnd_le S
      rcases wrapped_or_unwrapped h.trim with ⟨P', S', hP', hS', h', hdips⟩ | hunwrapped
      · -- the frame between the parentheses is shorter
        rw [hP', List.length_cons] at hP
        rw [hS', List.length_append] at hS
        rcases ih (P'.length + S'.length) (by omega) h' rfl with ⟨P'', S'', h'', heq⟩
        refine ⟨P'', S'', h'', fun x => ?_⟩
        rw [← unwrap_trim, trim_fill, hP', hS', fill_wrapped, unwrap_group (hdips x), heq]
      · refine ⟨trimStart P, trimEnd S, h.trim, fun x => ?_⟩
        rw [unwrap_of_unwrapped (by rw [trim_fill]; exact hunwrapped x), trim_fill]

/-- Tidying a filled frame tidies the frame. -/
theorem tidy_fill (h : Framed P S) (htidy : tidy (fill P S x) = .ok raw) :
    ∃ P' S', Framed P' S' ∧ raw = fill P' S' x ∧ ∀ y, tidy (fill P S y) = .ok (fill P' S' y) := by
  rcases repair_fill h.trim with ⟨P', S', h', hok⟩ | hnone
  · rcases unwrap_fill h' with ⟨P'', S'', h'', hunwrap⟩
    have hall : ∀ y, tidy (fill P S y) = .ok (fill P'' S'' y) := by
      intro y
      refine tidy_eq_ok_iff.2 ⟨fill P' S' y, ?_, hunwrap y⟩
      rw [trim_fill, hok]
    refine ⟨P'', S'', h'', ?_, hall⟩
    rw [hall x] at htidy
    cases htidy
    rfl
  · rcases tidy_eq_ok_iff.1 htidy with ⟨t, ht, -⟩
    rw [trim_fill, hnone] at ht
    cases ht

end Expression
end RecordFilter
