import RecordFilter.Proofs.Expression.Scanning
import RecordFilter.Expression.Wrapping

/-!
# Tidying — what every reader of expressions works on

Only the trim of a text counts (`tidy_congr`).  A balanced text is never repaired
(`tidy_of_balanced`), parentheses around it change nothing (`tidy_group`), and two settled texts
side by side are not taken for a wrapped one (`unwrapped_append`).  Tidying loses blanks and
parentheses only (`mem_of_tidy`).  What is picked out of a text outside its parentheses depends on the
repaired text (`outermost_of_balance`).
-/

namespace RecordFilter
namespace Expression

open Text Scan

variable {a b e s t u raw inner : Text} {c : Char}

/-! ## Repair -/

theorem repair_of_balanced (h : Balanced t) : repair t = some t := by
  rw [repair, if_pos h]

theorem balance_of_balanced (h : Balanced s) : balance s = .ok (trim s) := by
  rw [balance, repair_of_balanced (balanced_trim_iff.2 h)]

theorem balance_congr (h : trim s = trim t) : balance s = balance t := by
  rw [balance, balance, h]

theorem dropLoose?_eq_some_iff :
    dropLoose? t = some u ↔
      0 < depth t ∧ t = '(' :: u ∨ depth t < 0 ∧ t = u ++ [')'] := by
  unfold dropLoose?
  constructor
  · intro h
    split at h
    case isTrue hpos =>
      split at h
      case h_1 => exact Or.inl ⟨hpos, by rw [Option.some.inj h]⟩
      case h_2 => cases h
    case isFalse =>
      split at h
      case isTrue hneg =>
        split at h
        case isTrue hlast =>
          rcases List.getLast?_eq_some_iff.1 hlast with ⟨front, rfl⟩
          rw [List.dropLast_concat] at h
          exact Or.inr ⟨hneg, by rw [Option.some.inj h]⟩
        case isFalse => cases h
      case isFalse => cases h
  · rintro (⟨hpos, rfl⟩ | ⟨hneg, rfl⟩)
    · rw [if_pos hpos]
      rfl
    · rw [if_neg (by omega), if_pos hneg, List.getLast?_concat, if_pos rfl, List.dropLast_concat]

theorem repair_of_drop (hb : ¬Balanced t) (hdrop : dropLoose? t = some u) :
    repair t = repair (trim u) := by
  rw [repair, if_neg hb]
  split
  case h_1 rest' hsome =>
    rw [hdrop] at hsome
    cases hsome
    rfl
  case h_2 hnone =>
    rw [hdrop] at hnone
    cases hnone

theorem repair_of_not_drop (hb : ¬Balanced t) (hdrop : dropLoose? t = none) :
    repair t = none := by
  rw [repair, if_neg hb]
  split
  case h_1 rest hsome =>
    rw [hdrop] at hsome
    cases hsome
  case h_2 => rfl

theorem mem_of_dropLoose? (h : dropLoose? t = some u) (hc : c ∈ t) :
    c ∈ u ∨ c = '(' ∨ c = ')' := by
  rcases dropLoose?_eq_some_iff.1 h with ⟨-, rfl⟩ | ⟨-, rfl⟩
  · rcases List.mem_cons.1 hc with rfl | hc
    · exact Or.inr (Or.inl rfl)
    · exact Or.inl hc
  · rcases List.mem_append.1 hc with hc | hc
    · exact Or.inl hc
    · exact Or.inr (Or.inr (List.mem_singleton.1 hc))

theorem mem_of_repair (h : repair t = some u) (hc : c ∈ t) :
    c ∈ u ∨ isBlank c = true ∨ c = '(' ∨ c = ')' := by
  -- a repair goes on until the text is balanced, and each step loses one parenthesis and blanks
  fun_induction repair t with
  | case1 t _ =>
      cases h
      exact Or.inl hc
  | case2 t _ rest hdrop ih =>
      rcases mem_of_dropLoose? hdrop hc with hrest | hparen
      · rcases mem_trim_or_isBlank hrest with htrim | hblank
        · exact ih h htrim
        · exact Or.inr (Or.inl hblank)
      · exact Or.inr (Or.inr hparen)
  | case3 => cases h

theorem balanced_of_repair (h : repair t = some u) : Balanced u := by
  fun_induction repair t with
  | case1 t hb =>
      cases h
      exact hb
  | case2 t _ rest hdrop ih => exact ih h
  | case3 => cases h

/-! ## Wrapping parentheses -/

theorem interior?_eq_some_iff : interior? t = some inner ↔ t = '(' :: inner ++ [')'] := by
  constructor
  · intro h
    unfold interior? at h
    split at h
    case h_1 rest =>
      split at h
      case isTrue hlast =>
        cases h
        rcases List.getLast?_eq_some_iff.1 hlast with ⟨front, rfl⟩
        rw [List.dropLast_concat, List.cons_append]
      case isFalse => cases h
    case h_2 => cases h
  · rintro rfl
    simp [interior?]

/-- `t` does not stand between parentheses that belong together. -/
def Unwrapped (t : Text) : Prop := ∀ inner, t = '(' :: inner ++ [')'] → dips inner = true

theorem unwrap_of_unwrapped (h : Unwrapped (trim s)) : unwrap s = trim s := by
  rw [unwrap]
  split
  case h_1 inner hin => rw [if_pos (h inner (interior?_eq_some_iff.1 hin))]
  case h_2 => rfl

theorem unwrap_congr (h : trim s = trim t) : unwrap s = unwrap t := by
  rw [unwrap, unwrap, h]

theorem unwrap_trim (s : Text) : unwrap (trim s) = unwrap s := unwrap_congr (trim_trim s)

theorem trim_group (e : Text) : trim ('(' :: e ++ [')']) = '(' :: e ++ [')'] := by
  refine trim_eq_self ?_ ?_
  · rintro c ⟨⟩
    rfl
  · intro c hc
    rw [List.getLast?_concat] at hc
    cases hc
    rfl

theorem unwrap_group (h : dips e = false) : unwrap ('(' :: e ++ [')']) = unwrap e := by
  have hin : interior? (trim ('(' :: e ++ [')'])) = some e :=
    interior?_eq_some_iff.2 (trim_group e)
  rw [unwrap]
  split
  case h_1 inner heq =>
    rcases Option.some.inj (heq.symm.trans hin) with rfl
    rw [h]
    rfl
  case h_2 hnone =>
    rw [hnone] at hin
    cases hin

theorem unwrapped_unwrap (s : Text) : Unwrapped (unwrap s) := by
  fun_induction unwrap s with
  | case1 s inner hin hdips =>
      intro other heq
      have hsame := interior?_eq_some_iff.2 heq
      rw [hin] at hsame
      cases hsame
      exact hdips
  | case2 s inner hin hdips ih => exact ih
  | case3 s hnone =>
      intro inner heq
      rw [interior?_eq_some_iff.2 heq] at hnone
      cases hnone

theorem trim_unwrap (s : Text) : trim (unwrap s) = unwrap s := by
  fun_induction unwrap s with
  | case1 s inner hin hdips => exact trim_trim s
  | case2 s inner hin hdips ih => exact ih
  | case3 s hnone => exact trim_trim s

/-- Unwrapping again changes nothing. -/
theorem unwrap_unwrap (s : Text) : unwrap (unwrap s) = unwrap s := by
  have htrim := trim_unwrap s
  rw [unwrap_of_unwrapped (by rw [htrim]; exact unwrapped_unwrap s), htrim]

theorem mem_of_unwrap (hc : c ∈ s) : c ∈ unwrap s ∨ isBlank c = true ∨ c = '(' ∨ c = ')' := by
  fun_induction unwrap s with
  | case1 s inner hin hdips => exact (mem_trim_or_isBlank hc).imp_right Or.inl
  | case2 s inner hin hdips ih =>
      rcases mem_trim_or_isBlank hc with htrim | hblank
      · rw [interior?_eq_some_iff.1 hin, List.cons_append, List.mem_cons, List.mem_append,
          List.mem_singleton] at htrim
        rcases htrim with hopen | hinner | hclose
        · exact Or.inr (Or.inr (Or.inl hopen))
        · exact ih hinner
        · exact Or.inr (Or.inr (Or.inr hclose))
      · exact Or.inr (Or.inl hblank)
  | case3 s hnone => exact (mem_trim_or_isBlank hc).imp_right Or.inl

/-- The inside of a balanced text between parentheses is balanced unless they do not belong
together. -/
theorem balanced_of_group (h : Balanced ('(' :: e ++ [')'])) (hdips : dips e = false) :
    Balanced e := by
  refine ⟨?_, hdips⟩
  have hopen : start.advance '(' = start.raise 1 := rfl
  -- the closing parenthesis counts outside literals only, where the whole ends at depth zero
  have hnonneg : 0 ≤ (start.run e).depth := depth_nonneg_of_not_dips hdips (Int.le_refl 0)
  have hdepth := h.1
  rw [depth, List.cons_append, run_cons, run_append, hopen, run_raise] at hdepth
  rw [depth]
  cases hzone : (start.run e).zone with
  | plain =>
      simp [advance, hzone] at hdepth
      omega
  | single =>
      simp [advance, hzone] at hdepth
      omega
  | double =>
      simp [advance, hzone] at hdepth
      omega

theorem balanced_unwrap (h : Balanced s) : Balanced (unwrap s) := by
  fun_induction unwrap s with
  | case1 s inner hin hdips => exact balanced_trim_iff.2 h
  | case2 s inner hin hdips ih =>
      -- what stands between parentheses that belong together is balanced too
      have htrim := balanced_trim_iff.2 h
      rw [interior?_eq_some_iff.1 hin] at htrim
      exact ih (balanced_of_group htrim (by simpa using hdips))
  | case3 s hnone => exact balanced_trim_iff.2 h

/-- A parenthesis that opens a settled piece closes in that piece, so it does not wrap a text that
goes on behind it. -/
theorem unwrapped_append (ha : Balanced a) (hq : QuoteClosed a) (hne : a ≠ []) (hb : b ≠ []) :
    Unwrapped (a ++ b) := by
  intro inner heq
  cases a with
  | nil => exact absurd rfl hne
  | cons x a =>
      obtain ⟨rfl, htail⟩ : x = '(' ∧ a ++ b = inner ++ [')'] := List.cons.inj heq
      obtain ⟨front, last, rfl⟩ : ∃ front last, b = front ++ [last] :=
        ⟨b.dropLast, b.getLast hb, (List.dropLast_concat_getLast hb).symm⟩
      rw [← List.append_assoc] at htail
      rcases List.append_inj' htail rfl with ⟨rfl, -⟩
      -- read without the opening parenthesis, the piece ends one below its start
      have hrun : (start.run a).raise 1 = start := by
        rw [← run_raise]
        exact run_settled ha hq
      have hdepth : (start.run a).depth = -1 := by
        have := congrArg Scan.depth hrun
        simp only [raise_depth, start] at this
        simp only [start]
        omega
      have hdips : start.dips a = true := by
        cases hd : start.dips a with
        | true => rfl
        | false =>
            have := depth_nonneg_of_not_dips hd (Int.le_refl 0)
            omega
      rw [dips, dips_append, hdips, Bool.true_or]

/-! ## Tidying -/

theorem tidy_congr (h : trim s = trim t) : tidy s = tidy t := by
  rw [tidy, tidy, balance_congr h]

theorem tidy_of_balanced (h : Balanced s) : tidy s = .ok (unwrap s) := by
  rw [tidy, balance_of_balanced h, Except.map, unwrap_trim]

/-- A balanced text that no parentheses wrap is only trimmed. -/
theorem tidy_of_unwrapped (h : Balanced s) (hu : Unwrapped (trim s)) : tidy s = .ok (trim s) := by
  rw [tidy_of_balanced h, unwrap_of_unwrapped hu]

theorem tidy_group (he : Balanced e) (hq : QuoteClosed e) :
    tidy ('(' :: e ++ [')']) = tidy e := by
  calc
    tidy ('(' :: e ++ [')']) = .ok (unwrap ('(' :: e ++ [')'])) :=
      tidy_of_balanced (balanced_group he hq)
    _ = .ok (unwrap e) := by rw [unwrap_group he.2]
    _ = tidy e := (tidy_of_balanced he).symm

theorem tidy_eq_ok_iff : tidy s = .ok raw ↔ ∃ t, repair (trim s) = some t ∧ unwrap t = raw := by
  cases h : repair (trim s) with
  | none => simp [tidy, balance, h, Except.map]
  | some t => simp [tidy, balance, h, Except.map]

theorem mem_of_tidy (h : tidy s = .ok raw) (hc : c ∈ s) :
    c ∈ raw ∨ isBlank c = true ∨ c = '(' ∨ c = ')' := by
  rcases tidy_eq_ok_iff.1 h with ⟨t, ht, rfl⟩
  rcases mem_trim_or_isBlank hc with htrim | hblank
  · rcases mem_of_repair ht htrim with hmem | hlost
    · exact mem_of_unwrap hmem
    · exact Or.inr hlost
  · exact Or.inr (Or.inl hblank)

/-- A tidy text has no blank at an end, no loose parenthesis and no parentheses around it. -/
theorem tidy_spec (h : tidy s = .ok raw) : trim raw = raw ∧ Balanced raw ∧ Unwrapped raw := by
  rcases tidy_eq_ok_iff.1 h with ⟨t, ht, rfl⟩
  exact ⟨trim_unwrap t, balanced_unwrap (balanced_of_repair ht), unwrapped_unwrap t⟩

theorem unwrap_of_tidy (h : tidy s = .ok raw) : unwrap raw = raw := by
  rcases tidy_eq_ok_iff.1 h with ⟨t, -, rfl⟩
  exact unwrap_unwrap t

/-- Tidying a tidy text changes nothing. -/
theorem tidy_of_tidy (h : tidy s = .ok raw) : tidy raw = .ok raw := by
  rw [tidy_of_balanced (tidy_spec h).2.1, unwrap_of_tidy h]

/-! ## Characters outside parentheses -/

theorem outermost_of_balance (h : balance s = .ok t) : outermost s =
    if allBlank (atDepthZero start t) then
      match interior? t with
      | some inner => outermost inner
      | none => .error ⟨.noOuterContent, trim s⟩
    else .ok (atDepthZero start t) := by
  rw [outermost]
  split
  case h_1 e herror =>
    rw [h] at herror
    cases herror
  case h_2 u hok =>
    rw [h] at hok
    cases hok
    cases hblank : allBlank (atDepthZero start t) with
    | false => rfl
    | true =>
        simp only [Bool.not_true, Bool.false_eq_true, if_false, if_true]
        split
        case h_1 inner hin => rw [hin]
        case h_2 hnone => rw [hnone]

theorem outermost_of_balance_error {e : SyntaxError} (h : balance s = .error e) :
    outermost s = .error e := by
  rw [outermost]
  split
  case h_1 e' herror =>
    rw [h] at herror
    cases herror
    rfl
  case h_2 t hok =>
    rw [h] at hok
    cases hok

end Expression
end RecordFilter
