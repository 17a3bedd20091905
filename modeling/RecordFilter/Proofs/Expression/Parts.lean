import RecordFilter.Proofs.Comparison.Residue
import RecordFilter.Proofs.Expression.Parentheses
import RecordFilter.Proofs.Text.Parts

/-!
# Parts — tidying takes a part out of a text

Trimming, repair and unwrapping only cut at the ends of a text, so what every reader works on is a
contiguous part of what it was given (`part_of_tidy`).  An error that is met on the way names such a part
(`SyntaxError.NamesPartOf`), also where the characters outside parentheses are looked for
(`namesPartOf_of_outermost`).
-/

namespace RecordFilter

open Text

/-! ## Errors -/

/-- The expression of an error is a contiguous part of a text, and not empty unless the text is
blank. -/
structure SyntaxError.NamesPartOf (e : SyntaxError) (s : Text) : Prop where
  part : e.expression <:+: s
  ne_nil : allBlank s = false → e.expression ≠ []

namespace SyntaxError.NamesPartOf

variable {e : SyntaxError} {s t : Text}

theorem of_trim (h : e.expression = trim s) : e.NamesPartOf s := by
  refine ⟨?_, fun hblank hnil => ?_⟩
  · rw [h]
    exact trim_part s
  · rw [h, trim_eq_nil_iff, hblank] at hnil
    cases hnil

theorem of_part (hpart : e.expression <:+: s) (hne : e.expression ≠ []) : e.NamesPartOf s :=
  ⟨hpart, fun _ => hne⟩

/-- What is a part of a part is a part of the whole. -/
theorem mono (h : e.NamesPartOf t) (ht : t <:+: s) (hblank : allBlank t = false) : e.NamesPartOf s :=
  of_part (h.part.trans ht) (h.ne_nil hblank)

end SyntaxError.NamesPartOf

namespace Expression

open Scan

variable {e : SyntaxError} {s t u raw inner : Text}

/-! ## Tidying -/

theorem part_of_dropLoose? (h : dropLoose? t = some u) : u <:+: t := by
  rcases dropLoose?_eq_some_iff.1 h with ⟨-, rfl⟩ | ⟨-, rfl⟩
  · exact (List.suffix_cons '(' u).isInfix
  · exact (List.prefix_append u [')']).isInfix

theorem part_of_repair (h : repair t = some u) : u <:+: t := by
  fun_induction repair t with
  | case1 t _ =>
      cases h
      exact List.infix_rfl
  | case2 t _ rest hdrop ih =>
      exact (ih h).trans ((trim_part rest).trans (part_of_dropLoose? hdrop))
  | case3 => cases h

theorem unwrap_part (s : Text) : unwrap s <:+: s := by
  fun_induction unwrap s with
  | case1 s inner _ _ => exact trim_part s
  | case2 s inner hin _ ih =>
      have hinner : inner <:+: trim s := by
        rw [interior?_eq_some_iff.1 hin]
        exact ⟨['('], [')'], rfl⟩
      exact ih.trans (hinner.trans (trim_part s))
  | case3 s _ => exact trim_part s

theorem part_of_tidy (h : tidy s = .ok raw) : raw <:+: s := by
  rcases tidy_eq_ok_iff.1 h with ⟨t, ht, rfl⟩
  exact (unwrap_part t).trans ((part_of_repair ht).trans (trim_part s))

theorem balance_eq_error_iff : balance s = .error e ↔
    repair (trim s) = none ∧ e = ⟨.unclosedParentheses, trim s⟩ := by
  unfold balance
  cases repair (trim s) with
  | some t => simp
  | none => simp [eq_comm]

theorem namesPartOf_of_tidy (h : tidy s = .error e) : e.NamesPartOf s := by
  have herror : balance s = .error e := by
    cases hbalance : balance s with
    | error e' =>
        rw [tidy, hbalance] at h
        cases h
        rfl
    | ok t =>
        rw [tidy, hbalance] at h
        cases h
  rcases balance_eq_error_iff.1 herror with ⟨-, rfl⟩
  exact .of_trim rfl

/-! ## Characters outside parentheses -/

/-- Where nothing stands outside the parentheses, what is between the first and the last has as many
opening as closing ones. -/
theorem depth_interior (hs : Balanced ('(' :: inner ++ [')']))
    (hblank : allBlank (atDepthZero .start ('(' :: inner ++ [')'])) = true) : depth inner = 0 := by
  have hdepth : depth ('(' :: inner ++ [')']) = 0 := hs.1
  by_cases hquote : QuoteClosed ('(' :: inner)
  · rw [depth_close hquote, depth_open] at hdepth
    omega
  · -- a closing parenthesis in a literal outside parentheses would be no blank
    exfalso
    have hzone : (start.run ('(' :: inner)).zone ≠ .plain := hquote
    have hstay : (start.run ('(' :: inner)).depth = 0 := by
      have hadvance : ∀ q : Scan, q.zone ≠ .plain → (q.advance ')').depth = q.depth := by
        rintro ⟨zone, d⟩ hq
        cases zone <;> simp_all [advance]
      rw [depth, run_append] at hdepth
      rw [← hadvance _ hzone]
      exact hdepth
    have hvisible : ∀ q : Scan, q.zone ≠ .plain → q.depth = 0 → atDepthZero q [')'] = [')'] := by
      intro q hq hd
      simp [atDepthZero, quotes, hq, hd]
    rw [Comparison.atDepthZero_append, hvisible _ hzone hstay, allBlank_append] at hblank
    exact absurd (Bool.and_eq_true_iff.1 hblank).2 (by decide)

/-- A balanced text that no parentheses wrap, without anything outside its parentheses, closes what it
opens first before its end, so what is between its first and its last parenthesis cannot be repaired. -/
theorem balance_interior (hs : Balanced ('(' :: inner ++ [')']))
    (hunwrapped : Unwrapped ('(' :: inner ++ [')']))
    (hblank : allBlank (atDepthZero .start ('(' :: inner ++ [')'])) = true) :
    balance inner = .error ⟨.unclosedParentheses, trim inner⟩ := by
  have hdips := hunwrapped inner rfl
  have hdepth : depth (trim inner) = 0 := by
    rw [depth, run_trim]
    exact depth_interior hs hblank
  have hbroken : ¬Balanced (trim inner) := by
    rintro ⟨-, hnot⟩
    rw [dips_trim, hdips] at hnot
    cases hnot
  have hkept : dropLoose? (trim inner) = none := by
    simp [dropLoose?, hdepth]
  exact balance_eq_error_iff.2 ⟨repair_of_not_drop hbroken hkept, rfl⟩

/-- A tidy text without anything outside its parentheses is refused, by its own name or by that of
what stands between its first and its last parenthesis. -/
theorem namesPartOf_of_outermost (htidy : tidy s = .ok raw)
    (h : outermost raw = .error e) : e.NamesPartOf raw := by
  rcases tidy_spec htidy with ⟨htrim, hbalanced, hunwrapped⟩
  have hbalance : balance raw = .ok raw := by
    rw [balance_of_balanced hbalanced, htrim]
  rw [outermost_of_balance hbalance] at h
  split at h
  case isFalse => cases h
  case isTrue hblank =>
    cases hin : interior? raw with
    | none =>
        rw [hin] at h
        cases h
        exact .of_trim rfl
    | some inner =>
        rw [hin] at h
        have hinner : outermost inner = .error e := h
        rcases interior?_eq_some_iff.1 hin with rfl
        rw [outermost_of_balance_error (balance_interior hbalanced hunwrapped hblank)] at hinner
        cases hinner
        have hnotBlank : allBlank inner = false := by
          cases hcase : allBlank inner with
          | false => rfl
          | true =>
              have hnever : dips inner = false := dips_inert (isInert_of_allBlank hcase) (Int.le_refl 0)
              rw [hunwrapped inner rfl] at hnever
              cases hnever
        exact SyntaxError.NamesPartOf.mono (.of_trim rfl) ⟨['('], [')'], rfl⟩ hnotBlank

end Expression
end RecordFilter
