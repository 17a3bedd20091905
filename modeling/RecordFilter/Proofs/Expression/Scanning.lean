import RecordFilter.Proofs.Text.Trimming
import RecordFilter.Expression.Mask

/-!
# Scanning — the reader's state over pieces of a text

Parentheses that are already open only raise the depth at which a text is read (`Scan.run_raise`);
they never change where its literals begin and end.  So a text that is balanced and quote-closed
leaves the reader where it was (`Scan.run_settled`), and such texts can be put side by side
(`Balanced.append`) or between parentheses (`balanced_group`).
-/

namespace RecordFilter
namespace Expression

open Text

variable {a b e s : Text} {c : Char} {q : Scan} {k : Int}

/-- Characters that never change the reader's state. -/
def isInert (c : Char) : Bool := c != '\'' && c != '"' && c != '(' && c != ')'

theorem isInert_of_isBlank (h : isBlank c = true) : isInert c = true := by
  simp only [isInert, Bool.and_eq_true, bne_iff_ne]
  refine ⟨⟨⟨?_, ?_⟩, ?_⟩, ?_⟩ <;> rintro rfl <;> exact absurd h (by decide)

theorem isInert_of_allBlank (h : allBlank s = true) : ∀ c ∈ s, isInert c = true :=
  fun c hc => isInert_of_isBlank (allBlank_iff.1 h c hc)

namespace Scan

/-- The same zone with `k` more parentheses open. -/
def raise (q : Scan) (k : Int) : Scan := ⟨q.zone, q.depth + k⟩

@[simp] theorem raise_zone (q : Scan) (k : Int) : (q.raise k).zone = q.zone := rfl

@[simp] theorem raise_depth (q : Scan) (k : Int) : (q.raise k).depth = q.depth + k := rfl

theorem advance_raise (q : Scan) (k : Int) (c : Char) :
    (q.raise k).advance c = (q.advance c).raise k := by
  rcases q with ⟨zone, depth⟩
  cases zone with
  | plain =>
      -- a parenthesis changes the depth by the same amount at every depth
      simp only [advance, raise]
      repeat' split
      all_goals simp <;> omega
  | single =>
      simp only [advance, raise]
      split <;> rfl
  | double =>
      simp only [advance, raise]
      split <;> rfl

theorem run_raise (q : Scan) (k : Int) (s : Text) : (q.raise k).run s = (q.run s).raise k := by
  induction s generalizing q with
  | nil => rfl
  | cons c s ih =>
      calc
        (q.raise k).run (c :: s) = ((q.raise k).advance c).run s := run_cons _ c s
        _ = ((q.advance c).raise k).run s := by rw [advance_raise]
        _ = ((q.advance c).run s).raise k := ih (q.advance c)
        _ = (q.run (c :: s)).raise k := by rw [run_cons]

/-- In the plain zone only the depth can differ from the start. -/
theorem run_of_plain (h : q.zone = .plain) (s : Text) : q.run s = (start.run s).raise q.depth := by
  have hq : q = start.raise q.depth := by
    rcases q with ⟨zone, depth⟩
    simp only at h
    simp [start, raise, h]
  calc
    q.run s = (start.raise q.depth).run s := by rw [← hq]
    _ = (start.run s).raise q.depth := run_raise start q.depth s

theorem zone_run_of_plain (h : q.zone = .plain) (s : Text) :
    (q.run s).zone = (start.run s).zone := by
  rw [run_of_plain h, raise_zone]

/-! ## Inert characters -/

theorem advance_inert (h : isInert c = true) (q : Scan) : q.advance c = q := by
  simp only [isInert, Bool.and_eq_true, bne_iff_ne] at h
  rcases q with ⟨zone, depth⟩
  cases zone <;> simp [advance, h]

theorem run_inert (h : ∀ c ∈ s, isInert c = true) (q : Scan) : q.run s = q := by
  induction s with
  | nil => rfl
  | cons c s ih =>
      rw [run_cons, advance_inert (h c List.mem_cons_self),
        ih (fun d hd => h d (List.mem_cons_of_mem _ hd))]

theorem run_blank (h : allBlank s = true) (q : Scan) : q.run s = q :=
  run_inert (isInert_of_allBlank h) q

/-! ## Depth -/

theorem dips_append (q : Scan) (a b : Text) :
    q.dips (a ++ b) = (q.dips a || (q.run a).dips b) := by
  induction a generalizing q with
  | nil => simp [dips]
  | cons c a ih => simp [dips, ih, Bool.or_assoc]

theorem dips_raise_of_nonneg (hk : 0 ≤ k) (h : q.dips s = false) : (q.raise k).dips s = false := by
  induction s generalizing q with
  | nil => rfl
  | cons c s ih =>
      simp only [dips, Bool.or_eq_false_iff, decide_eq_false_iff_not, Int.not_lt] at h ⊢
      -- raised by `k`, the depth after each character is further from zero still
      rw [advance_raise]
      refine ⟨?_, ih h.2⟩
      rw [raise_depth]
      omega

theorem dips_inert (h : ∀ c ∈ s, isInert c = true) (hq : 0 ≤ q.depth) : q.dips s = false := by
  induction s with
  | nil => rfl
  | cons c s ih =>
      simp only [dips, advance_inert (h c List.mem_cons_self), Bool.or_eq_false_iff,
        decide_eq_false_iff_not, Int.not_lt]
      exact ⟨hq, ih (fun d hd => h d (List.mem_cons_of_mem _ hd))⟩

theorem depth_nonneg_of_not_dips (h : q.dips s = false) (hq : 0 ≤ q.depth) :
    0 ≤ (q.run s).depth := by
  induction s generalizing q with
  | nil => exact hq
  | cons c s ih =>
      simp only [dips, Bool.or_eq_false_iff, decide_eq_false_iff_not, Int.not_lt] at h
      exact ih h.2 h.1

/-- A text that is balanced and quote-closed leaves the reader where it was. -/
theorem run_settled (hb : Balanced s) (hq : QuoteClosed s) : start.run s = start := by
  have hdepth : (start.run s).depth = 0 := hb.1
  have hzone : (start.run s).zone = .plain := hq
  cases hrun : start.run s with
  | mk zone depth =>
      rw [hrun] at hdepth hzone
      simp only at hdepth hzone
      rw [hdepth, hzone]
      rfl

/-- Without quotes there are no literals. -/
theorem zone_run_of_no_quotes (h : ∀ c ∈ s, c ≠ '\'' ∧ c ≠ '"') (hq : q.zone = .plain) :
    (q.run s).zone = .plain := by
  induction s generalizing q with
  | nil => exact hq
  | cons c s ih =>
      -- only a quote leaves the plain zone
      have hc := h c List.mem_cons_self
      have hzone : (q.advance c).zone = .plain := by
        rcases q with ⟨zone, depth⟩
        simp only at hq
        subst hq
        simp only [advance, hc.1, hc.2, if_false]
        repeat' split
        all_goals rfl
      exact ih (fun d hd => h d (List.mem_cons_of_mem _ hd)) hzone

end Scan

open Scan

/-! ## Balanced texts side by side -/

theorem balanced_inert (h : ∀ c ∈ s, isInert c = true) : Balanced s := by
  refine ⟨?_, dips_inert h (Int.le_refl 0)⟩
  rw [depth, run_inert h]
  rfl

theorem quoteClosed_inert (h : ∀ c ∈ s, isInert c = true) : QuoteClosed s := by
  rw [QuoteClosed, run_inert h]
  rfl

theorem Balanced.append (ha : Balanced a) (hq : QuoteClosed a) (hb : Balanced b) :
    Balanced (a ++ b) := by
  have hrun := run_settled ha hq
  refine ⟨?_, ?_⟩
  · rw [depth, run_append, hrun]
    exact hb.1
  · rw [dips, dips_append, hrun]
    exact Bool.or_eq_false_iff.2 ⟨ha.2, hb.2⟩

theorem QuoteClosed.append (ha : QuoteClosed a) (hb : QuoteClosed b) : QuoteClosed (a ++ b) := by
  rw [QuoteClosed, run_append, zone_run_of_plain ha]
  exact hb

/-- What follows a text that leaves the reader at the start is balanced if the whole is. -/
theorem Balanced.right (h : Balanced (a ++ b)) (ha : start.run a = start) : Balanced b := by
  rcases h with ⟨hdepth, hdips⟩
  rw [depth, run_append, ha] at hdepth
  rw [dips, dips_append, ha] at hdips
  exact ⟨hdepth, (Bool.or_eq_false_iff.1 hdips).2⟩

theorem run_group (e : Text) (he : Balanced e) (hq : QuoteClosed e) :
    start.run ('(' :: e ++ [')']) = start := by
  calc
    start.run ('(' :: e ++ [')']) = ((start.raise 1).run e).run [')'] := by
      rw [List.cons_append, run_cons, run_append]
      rfl
    _ = (start.raise 1).run [')'] := by rw [run_raise, run_settled he hq]
    _ = start := rfl

theorem balanced_group (he : Balanced e) (hq : QuoteClosed e) : Balanced ('(' :: e ++ [')']) := by
  refine ⟨?_, ?_⟩
  · rw [depth, run_group e he hq]
    rfl
  · -- the text between the parentheses is read one level up, where it dips even less
    have hopen : start.advance '(' = start.raise 1 := rfl
    have hinner : (start.raise 1).dips e = false := dips_raise_of_nonneg (by decide) he.2
    rw [dips, List.cons_append, Scan.dips, dips_append, hopen, hinner, run_raise,
      run_settled he hq]
    rfl

theorem quoteClosed_group (he : QuoteClosed e) : QuoteClosed ('(' :: e ++ [')']) := by
  have hopen : start.advance '(' = start.raise 1 := rfl
  have hzone : (start.run e).zone = .plain := he
  rw [QuoteClosed, List.cons_append, run_cons, run_append, hopen, run_raise]
  simp [advance, hzone]

/-! ## Trimming -/

theorem run_trimEnd (s : Text) : start.run (trimEnd s) = start.run s := by
  rcases exists_trimEnd s with ⟨q, hq, hs⟩
  have hrun := congrArg start.run hs
  rw [run_append, run_blank hq] at hrun
  exact hrun.symm

theorem run_trimStart (s : Text) : start.run (trimStart s) = start.run s := by
  rcases exists_trimStart s with ⟨p, hp, hs⟩
  have hrun := congrArg start.run hs
  rw [run_append, run_blank hp] at hrun
  exact hrun.symm

theorem run_trim (s : Text) : start.run (trim s) = start.run s := by
  rw [trim, run_trimEnd, run_trimStart]

theorem dips_trim (s : Text) : dips (trim s) = dips s := by
  rcases exists_trim s with ⟨p, r, hp, hr, hs⟩
  have hfront : start.dips p = false := dips_inert (isInert_of_allBlank hp) (Int.le_refl 0)
  have hwhole : dips s = (dips (trim s) || (start.run (trim s)).dips r) := by
    have hdips := congrArg dips hs
    rw [dips, dips, dips_append, dips_append, hfront, run_append, run_blank hp] at hdips
    exact hdips
  rw [hwhole]
  cases hdips : dips (trim s) with
  | true => rfl
  | false =>
      -- blanks keep the depth, which is not negative behind a text that does not dip
      have hdepth := depth_nonneg_of_not_dips hdips (Int.le_refl 0)
      rw [dips_inert (isInert_of_allBlank hr) hdepth]
      rfl

theorem balanced_trim_iff : Balanced (trim s) ↔ Balanced s := by
  rw [Balanced, Balanced, depth, depth, run_trim, dips_trim]

theorem balanced_trimStart_iff : Balanced (trimStart s) ↔ Balanced s := by
  rw [← balanced_trim_iff, trim_trimStart, balanced_trim_iff]

theorem balanced_trimEnd_iff : Balanced (trimEnd s) ↔ Balanced s := by
  rw [← balanced_trim_iff, trim_trimEnd, balanced_trim_iff]

/-! ## Settled texts -/

/-- A text that leaves the reader where it was. -/
structure Settled (s : Text) : Prop where
  balanced : Balanced s
  quoteClosed : QuoteClosed s

namespace Settled

theorem run (h : Settled s) : start.run s = start := run_settled h.balanced h.quoteClosed

theorem of_run (h : start.run s = start) (hdips : dips s = false) : Settled s := by
  refine ⟨⟨?_, hdips⟩, ?_⟩
  · rw [depth, h]
    rfl
  · rw [QuoteClosed, h]
    rfl

theorem of_inert (h : ∀ c ∈ s, isInert c = true) : Settled s :=
  ⟨balanced_inert h, quoteClosed_inert h⟩

theorem nil : Settled [] := of_inert (List.forall_mem_nil _)

theorem one (hc : isInert c = true) : Settled [c] := of_inert (List.forall_mem_singleton.2 hc)

theorem append (ha : Settled a) (hb : Settled b) : Settled (a ++ b) :=
  ⟨ha.balanced.append ha.quoteClosed hb.balanced, ha.quoteClosed.append hb.quoteClosed⟩

theorem of_append (ha : Settled a) (h : Settled (a ++ b)) : Settled b := by
  refine ⟨h.balanced.right ha.run, ?_⟩
  have hwhole := h.quoteClosed
  rwa [QuoteClosed, run_append, ha.run] at hwhole

theorem group (h : Settled e) : Settled ('(' :: e ++ [')']) :=
  ⟨balanced_group h.balanced h.quoteClosed, quoteClosed_group h.quoteClosed⟩

theorem trimStart (h : Settled s) : Settled (trimStart s) := by
  refine ⟨balanced_trimStart_iff.2 h.balanced, ?_⟩
  rw [QuoteClosed, run_trimStart]
  exact h.quoteClosed

theorem trimEnd (h : Settled s) : Settled (trimEnd s) := by
  refine ⟨balanced_trimEnd_iff.2 h.balanced, ?_⟩
  rw [QuoteClosed, run_trimEnd]
  exact h.quoteClosed

end Settled

end Expression
end RecordFilter
