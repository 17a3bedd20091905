import RecordFilter.Proofs.Expression.Masking
import RecordFilter.Proofs.Expression.Repairs
import RecordFilter.Proofs.Text.Quoting

/-!
# Groups — texts that are complete in themselves

A grammar says which texts are complete: they are made of plain characters, whole literals and whole
groups (`Grouped`).  These are exactly the texts that leave the reader where it was
(`grouped_iff_settled`), so what stands behind such a text is in no literal and in no group of it.
-/

namespace RecordFilter
namespace Expression

open Text Scan

variable {e r s t x : Text} {c mark : Char} {q : Scan} {zone : Zone}

/-- Plain characters, whole literals and whole groups, side by side.  A single quote in a literal
between single quotes is written twice. -/
inductive Grouped : Text → Prop where
  | nil : Grouped []
  | plain {c : Char} {s : Text} : isInert c = true → Grouped s → Grouped (c :: s)
  | single {s : Text} (x : Text) : Grouped s → Grouped (Quoted.literal x ++ s)
  | double {x s : Text} : '"' ∉ x → Grouped s → Grouped ('"' :: x ++ '"' :: s)
  | group {e s : Text} : Grouped e → Grouped s → Grouped ('(' :: e ++ ')' :: s)

/-! ## Literals -/

/-- `mark` begins and ends the literals of a zone, and nothing else ends them. -/
structure Marks (zone : Zone) (mark : Char) : Prop where
  quoted : zone ≠ .plain
  opens : start.advance mark = ⟨zone, 0⟩
  stays : ∀ c, c ≠ mark → (⟨zone, 0⟩ : Scan).advance c = ⟨zone, 0⟩
  closes : (⟨zone, 0⟩ : Scan).advance mark = start

theorem marks_single : Marks .single '\'' :=
  ⟨by decide, rfl, fun c hc => by simp [advance, hc], rfl⟩

theorem marks_double : Marks .double '"' :=
  ⟨by decide, rfl, fun c hc => by simp [advance, hc], rfl⟩

namespace Marks

theorem run_body (h : Marks zone mark) (hx : mark ∉ x) : (⟨zone, 0⟩ : Scan).run x = ⟨zone, 0⟩ := by
  induction x with
  | nil => rfl
  | cons c x ih =>
      rw [List.mem_cons, not_or] at hx
      rw [run_cons, h.stays c (Ne.symm hx.1), ih hx.2]

theorem dips_body (h : Marks zone mark) (hx : mark ∉ x) : (⟨zone, 0⟩ : Scan).dips x = false := by
  induction x with
  | nil => rfl
  | cons c x ih =>
      rw [List.mem_cons, not_or] at hx
      rw [Scan.dips, h.stays c (Ne.symm hx.1), ih hx.2]
      rfl

theorem settled (h : Marks zone mark) (hx : mark ∉ x) : Settled (mark :: x ++ [mark]) := by
  refine Settled.of_run ?_ ?_
  · rw [List.cons_append, run_cons, h.opens, run_append, h.run_body hx, run_cons, run_nil, h.closes]
  · rw [dips, List.cons_append, Scan.dips, h.opens, dips_append, h.dips_body hx, h.run_body hx,
      Scan.dips, h.closes]
    rfl

/-- In a settled text each literal ends. -/
theorem exists_end (h : Marks zone mark) (hs : Settled (mark :: t)) :
    ∃ x r, mark ∉ x ∧ t = x ++ mark :: r ∧ Settled r := by
  by_cases hmem : mark ∈ t
  · rcases List.eq_append_cons_of_mem hmem with ⟨x, r, rfl, hx⟩
    refine ⟨x, r, hx, rfl, Settled.of_append (h.settled hx) ?_⟩
    simpa using hs
  · -- otherwise the literal stays open
    have hzone := hs.quoteClosed
    rw [QuoteClosed, run_cons, h.opens, h.run_body hmem] at hzone
    exact absurd hzone h.quoted

end Marks

/-! ## Groups -/

/-- Where a text first closes more than is open, a parenthesis stands outside literals, and what is
before it closes all that it opens. -/
theorem exists_first_loose (hq : 0 ≤ q.depth) (h : q.dips s = true) :
    ∃ e r, s = e ++ ')' :: r ∧ q.dips e = false ∧ (q.run e).zone = .plain ∧ (q.run e).depth = 0 := by
  induction s generalizing q with
  | nil => cases h
  | cons c s ih =>
      by_cases hloose : (q.advance c).depth < 0
      · have hquotes : q.quotes c = false := by
          by_contra hquotes
          rw [depth_advance_of_quotes (by simpa using hquotes)] at hloose
          omega
        have hdepth := depth_advance_of_not_quotes hquotes
        have hclose : c = ')' := by
          by_contra hother
          have hnone : [c].count ')' = 0 :=
            List.count_eq_zero.2 fun hmem => hother (List.mem_singleton.1 hmem).symm
          rw [hnone] at hdepth
          omega
        subst hclose
        refine ⟨[], s, rfl, rfl, (zone_of_not_quotes hquotes).1, ?_⟩
        simp only [run_nil]
        simp at hdepth
        omega
      · rw [Scan.dips, decide_eq_false hloose, Bool.false_or] at h
        rcases ih (by omega) h with ⟨e, r, rfl, hdips, hzone, hdepth⟩
        refine ⟨c :: e, r, rfl, ?_, hzone, hdepth⟩
        rw [Scan.dips, decide_eq_false hloose, hdips]
        rfl

/-- In a settled text each group ends. -/
theorem exists_group_end (hs : Settled ('(' :: t)) :
    ∃ e r, t = e ++ ')' :: r ∧ Settled e ∧ Settled r := by
  have hdips : dips t = true := by
    by_contra hnot
    have hnonneg := depth_nonneg_of_not_dips (Bool.eq_false_iff.2 hnot) (Int.le_refl start.depth)
    have hdepth := hs.balanced.1
    rw [depth_open, depth] at hdepth
    omega
  rcases exists_first_loose (Int.le_refl 0) hdips with ⟨e, r, rfl, hnot, hzone, hdepth⟩
  have he : Settled e := ⟨⟨hdepth, hnot⟩, hzone⟩
  refine ⟨e, r, rfl, he, Settled.of_append he.group ?_⟩
  simpa using hs

/-! ## Complete texts -/

theorem eq_of_not_inert (h : isInert c = false) : c = '\'' ∨ c = '"' ∨ c = '(' ∨ c = ')' := by
  simp only [isInert, Bool.and_eq_false_iff, bne_eq_false_iff_eq] at h
  rcases h with ((h | h) | h) | h <;> simp [h]

theorem Grouped.settled (h : Grouped s) : Settled s := by
  induction h with
  | nil => exact Settled.nil
  | plain hc _ ih => exact (Settled.one hc).append ih
  | @single s x _ ih => exact (settled_literal x).append ih
  | @double x s hx _ ih => simpa using (marks_double.settled hx).append ih
  | @group e s _ _ ihe ihs => simpa using ihe.group.append ihs

theorem length_lt_of_enclosed {d : Char} :
    x.length < (c :: (x ++ d :: r)).length ∧ r.length < (c :: (x ++ d :: r)).length := by
  simp only [List.length_cons, List.length_append]
  omega

theorem grouped_of_settled (h : Settled s) : Grouped s := by
  induction hn : s.length using Nat.strongRecOn generalizing s with
  | ind n ih =>
      subst hn
      cases s with
      | nil => exact .nil
      | cons c t =>
          cases hc : isInert c with
          | true =>
              have ht : Settled t := Settled.of_append (Settled.one hc) h
              exact .plain hc (ih t.length (Nat.lt_succ_self _) ht rfl)
          | false =>
              rcases eq_of_not_inert hc with rfl | rfl | rfl | rfl
              · rcases marks_single.exists_end h with ⟨x, r, hx, rfl, hr⟩
                have hliteral : '\'' :: (x ++ '\'' :: r) = Quoted.literal x ++ r := by
                  simp [Quoted.literal, Quoted.encode_of_no_quotes hx]
                rw [hliteral]
                exact .single x (ih r.length length_lt_of_enclosed.2 hr rfl)
              · rcases marks_double.exists_end h with ⟨x, r, hx, rfl, hr⟩
                exact .double hx (ih r.length length_lt_of_enclosed.2 hr rfl)
              · rcases exists_group_end h with ⟨e, r, rfl, he, hr⟩
                exact .group (ih e.length length_lt_of_enclosed.1 he rfl)
                  (ih r.length length_lt_of_enclosed.2 hr rfl)
              · -- a closing parenthesis at the front closes nothing
                have hdips : dips (')' :: t) = true := by
                  simp [dips, Scan.dips, advance, start]
                rw [h.balanced.2] at hdips
                cases hdips

/-- A text leaves the reader where it was just if it is made of plain characters, whole literals and
whole groups. -/
theorem grouped_iff_settled : Grouped s ↔ Settled s := ⟨Grouped.settled, grouped_of_settled⟩

end Expression
end RecordFilter
