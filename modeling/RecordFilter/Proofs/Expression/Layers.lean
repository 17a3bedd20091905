import RecordFilter.Proofs.Expression.Groups

/-!
# Layers — how many parentheses wrap a text

A text can stand within several layers of parentheses (`Layers`).  Unwrapping goes round by round
(`Rounds`) and takes one layer off in each, though it only looks whether what is inside closes more than
it opens.  In a balanced text that is enough: it takes off as many layers as there are
(`unwrap_takes_off_layers`).
-/

namespace RecordFilter
namespace Expression

open Text Scan

variable {before e p r s u v : Text} {k n : Nat}

/-! ## Layers -/

/-- The parentheses around `e`, behind `before`, stand outside literals and belong together: what is
between them is complete in itself. -/
structure Matched (before e : Text) : Prop where
  opened : QuoteClosed before
  closed : QuoteClosed (before ++ '(' :: e)
  between : Grouped e

/-- The text, behind `before`, is `u` within `k` layers of parentheses, with blanks between and around
them. -/
inductive Layers : Text → Text → Nat → Text → Prop where
  | bare {before p u r : Text} : allBlank p = true → allBlank r = true →
      Layers before (p ++ u ++ r) 0 u
  | layer {before p e r u : Text} {k : Nat} : allBlank p = true → allBlank r = true →
      Matched (before ++ p) e → Layers (before ++ p ++ ['(']) e k u →
      Layers before (p ++ '(' :: e ++ ')' :: r) (k + 1) u

/-- Unwrapping `s` stops at `u` after `n` rounds. -/
inductive Rounds : Text → Nat → Text → Prop where
  | stop {s : Text} : Unwrapped (trim s) → Rounds s 0 (trim s)
  | round {s inner u : Text} {n : Nat} : trim s = '(' :: inner ++ [')'] → dips inner = false →
      Rounds inner n u → Rounds s (n + 1) u

/-! ## Rounds -/

theorem unwrap_of_trim (h : trim s = '(' :: e ++ [')']) (hdips : dips e = false) :
    unwrap s = unwrap e := by
  rw [← unwrap_trim, h, unwrap_group hdips]

theorem Rounds.eq_unwrap (h : Rounds s n u) : u = unwrap s := by
  induction h with
  | stop hunwrapped => exact (unwrap_of_unwrapped hunwrapped).symm
  | round htrim hdips _ ih => rw [ih, unwrap_of_trim htrim hdips]

/-- Unwrapping comes to an end, for each round takes two parentheses off. -/
theorem rounds_unwrap (s : Text) : ∃ n, Rounds s n (unwrap s) ∧ 2 * n ≤ s.length := by
  fun_induction unwrap s with
  | case1 s inner hin hdips =>
      refine ⟨0, .stop fun other hother => ?_, by omega⟩
      rw [interior?_eq_some_iff.2 hother] at hin
      cases hin
      exact hdips
  | case2 s inner hin hdips ih =>
      rcases ih with ⟨n, hrounds, hle⟩
      refine ⟨n + 1, .round (interior?_eq_some_iff.1 hin) (by simpa using hdips) hrounds, ?_⟩
      have hinner := length_of_interior? hin
      have htrim := length_trim_le s
      omega
  | case3 s hnone =>
      refine ⟨0, .stop fun inner hinner => ?_, by omega⟩
      rw [interior?_eq_some_iff.2 hinner] at hnone
      cases hnone

/-! ## A round takes off a layer -/

/-- What stands between two parentheses that end a balanced text is settled, unless they belong to
different groups. -/
theorem settled_of_group (h : Balanced ('(' :: e ++ [')'])) (hdips : dips e = false) : Settled e := by
  have he := balanced_of_group h hdips
  refine ⟨he, ?_⟩
  by_contra hopen
  -- in a literal the last parenthesis would not count, and the first one would stay open
  have hstay : depth ('(' :: e ++ [')']) = depth ('(' :: e) :=
    depth_append_loose_of_open (fun hclosed => hopen (quoteClosed_open_iff.1 hclosed)) (loose_one rfl)
  rw [h.1, depth_open, he.1] at hstay
  omega

theorem matched_of_settled (hbefore : QuoteClosed before) (he : Settled e) : Matched before e :=
  ⟨hbefore, hbefore.append (quoteClosed_open_iff.2 he.quoteClosed), grouped_of_settled he⟩

/-- Each round takes off a layer of a balanced text. -/
theorem Rounds.layers (h : Rounds s n u) (hs : Balanced s) (hbefore : QuoteClosed before) :
    Layers before s n u := by
  induction h generalizing before with
  | @stop s _ =>
      rcases exists_trim s with ⟨p, r, hp, hr, hsplit⟩
      have hbare : Layers before (p ++ trim s ++ r) 0 (trim s) := .bare hp hr
      rwa [← hsplit] at hbare
  | @round s inner u n htrim hdips _ ih =>
      rcases exists_trim s with ⟨p, r, hp, hr, hsplit⟩
      have hinner : Settled inner := by
        have hgroup := balanced_trim_iff.2 hs
        rw [htrim] at hgroup
        exact settled_of_group hgroup hdips
      have hfront : QuoteClosed (before ++ p) := (quoteClosed_append_blank hp).2 hbefore
      have hopened : QuoteClosed (before ++ p ++ ['(']) :=
        hfront.append (quoteClosed_open_iff.2 rfl)
      have hlayer : Layers before (p ++ '(' :: inner ++ ')' :: r) (n + 1) u :=
        .layer hp hr (matched_of_settled hfront hinner) (ih hinner.balanced hopened)
      have hwhole : s = p ++ '(' :: inner ++ ')' :: r := by
        rw [htrim] at hsplit
        rw [hsplit]
        simp
      rwa [hwhole]

/-- Whatever is found within layers, unwrapping goes through at least as many rounds. -/
theorem Layers.le_rounds (h : Layers before s k u) (hrounds : Rounds s n v) : k ≤ n := by
  induction h generalizing n with
  | bare => exact Nat.zero_le n
  | @layer before p e r u k hp hr hmatched _ ih =>
      have htrim : trim (p ++ '(' :: e ++ ')' :: r) = '(' :: e ++ [')'] := by
        have hsplit : p ++ '(' :: e ++ ')' :: r = p ++ ('(' :: e ++ [')'] ++ r) := by simp
        rw [hsplit, trim_append_of_allBlank_left hp, trim_append_of_allBlank_right _ hr, trim_group]
      cases hrounds with
      | stop hunwrapped =>
          have hdips := hunwrapped e htrim
          rw [hmatched.between.settled.balanced.2] at hdips
          cases hdips
      | @round _ inner _ n htrim' _ hrest =>
          have hsame : inner = e := by
            have hin := interior?_eq_some_iff.2 (htrim.symm.trans htrim')
            rw [interior?_eq_some_iff.2 rfl] at hin
            exact (Option.some.inj hin).symm
          rw [hsame] at hrest
          exact Nat.succ_le_succ (ih hrest)

/-! ## The outcome -/

/-- Of a balanced text unwrapping leaves a balanced text without blanks at its ends, within as many layers
of matching parentheses as any text stands within.  It comes to an end on every text, and unwrapping again
changes nothing. -/
theorem unwrap_takes_off_layers (s : Text) :
    (Balanced s → trim (unwrap s) = unwrap s ∧ Balanced (unwrap s) ∧
        ∃ k, Layers [] s k (unwrap s) ∧ IsGreatest {k | ∃ u, Layers [] s k u} k) ∧
      unwrap (unwrap s) = unwrap s ∧ ∃ n, Rounds s n (unwrap s) ∧ 2 * n ≤ s.length := by
  rcases rounds_unwrap s with ⟨n, hrounds, hle⟩
  refine ⟨fun hs => ?_, unwrap_unwrap s, n, hrounds, hle⟩
  have hlayers : Layers [] s n (unwrap s) := hrounds.layers hs rfl
  refine ⟨trim_unwrap s, balanced_unwrap hs, n, hlayers, ⟨_, hlayers⟩, ?_⟩
  rintro k ⟨u, hu⟩
  exact hu.le_rounds hrounds

/-- Two layers around two groups, which begin and end with parentheses that do not match. -/
theorem unwrap_takes_off_two_layers :
    let s := " ( ((a = ')') OR (b)) ) ".toList
    let u := "(a = ')') OR (b)".toList
    Balanced s ∧ unwrap s = u ∧ trim u = u ∧ Balanced u ∧ Layers [] s 2 u ∧
      IsGreatest {k | ∃ u, Layers [] s k u} 2 ∧ unwrap u = u := by
  intro s u
  have hs : Balanced s := by decide
  have hrounds : Rounds s 2 u := by
    have htrim : trim u = u := by decide
    have hstop : Rounds u 0 (trim u) := by
      refine .stop fun inner hinner => ?_
      have hin : interior? (trim u) = some "a = ')') OR (b".toList := by decide
      rw [interior?_eq_some_iff.2 hinner] at hin
      rw [Option.some.inj hin]
      decide
    rw [htrim] at hstop
    have hinner : Rounds " ((a = ')') OR (b)) ".toList 1 u := .round (by decide) (by decide) hstop
    exact .round (by decide) (by decide) hinner
  have hunwrap : unwrap s = u := hrounds.eq_unwrap.symm
  have h := unwrap_takes_off_layers s
  rw [hunwrap] at h
  rcases h with ⟨hbalanced, hagain, -⟩
  rcases hbalanced hs with ⟨htrim, hu, k, hlayers, hgreatest⟩
  have hk : k = 2 := by
    have hle := hlayers.le_rounds hrounds
    have hge := hgreatest.2 ⟨u, hrounds.layers hs rfl⟩
    omega
  subst hk
  exact ⟨hs, hunwrap, htrim, hu, hlayers, hgreatest, hagain⟩

end Expression
end RecordFilter
