import RecordFilter.Proofs.Expression.Tidying

/-!
# Parentheses — more of them at the ends change nothing

A text that ends outside literals and can be repaired is tidied to the same text when parentheses are
put before it and behind it, as many as one likes on either side (`tidy_enclose`).  One more at one
end is either dropped as a loose one, or it closes with a loose one at the other end, and then the two
wrap the whole.
-/

namespace RecordFilter
namespace Expression

open Text Scan

variable {s t u v raw : Text}

/-! ## One more parenthesis -/

theorem run_open (s : Text) : start.run ('(' :: s) = (start.run s).raise 1 := by
  have hopen : start.advance '(' = start.raise 1 := rfl
  rw [run_cons, hopen, run_raise]

theorem depth_open (s : Text) : depth ('(' :: s) = depth s + 1 := by
  rw [depth, run_open, raise_depth]
  rfl

theorem quoteClosed_open_iff : QuoteClosed ('(' :: s) ↔ QuoteClosed s := by
  rw [QuoteClosed, run_open, raise_zone]
  rfl

theorem depth_close (hq : QuoteClosed s) : depth (s ++ [')']) = depth s - 1 := by
  have hzone : (start.run s).zone = .plain := hq
  simp [depth, advance, hzone]

theorem quoteClosed_close_iff : QuoteClosed (s ++ [')']) ↔ QuoteClosed s := by
  rw [QuoteClosed, QuoteClosed, run_append, run_cons, run_nil]
  -- a closing parenthesis changes the depth, and nothing at all inside a literal
  cases hzone : (start.run s).zone <;> simp [advance, hzone]

theorem depth_group (hq : QuoteClosed v) : depth ('(' :: v ++ [')']) = depth v := by
  rw [depth_close (quoteClosed_open_iff.2 hq), depth_open]
  omega

theorem not_balanced_of_depth (h : depth s ≠ 0) : ¬Balanced s := fun hb => h hb.1

theorem quoteClosed_append_blank (hv : allBlank v = true) : QuoteClosed (s ++ v) ↔ QuoteClosed s := by
  rw [QuoteClosed, QuoteClosed, run_append, run_blank hv]

theorem quoteClosed_blank_append (hv : allBlank v = true) : QuoteClosed (v ++ s) ↔ QuoteClosed s := by
  rw [QuoteClosed, QuoteClosed, run_append, run_blank hv]

/-! ## What a repair drops -/

theorem depth_trim (s : Text) : depth (trim s) = depth s := by
  rw [depth, depth, run_trim]

theorem balanced_of_repair_trim (h : repair (trim s) = some t) (hd : depth s = 0) :
    Balanced s ∧ t = trim s := by
  by_cases hb : Balanced (trim s)
  · rw [repair_of_balanced hb] at h
    exact ⟨balanced_trim_iff.1 hb, (Option.some.inj h).symm⟩
  · -- at depth zero no parenthesis is dropped
    have hnone : dropLoose? (trim s) = none := by
      refine Option.eq_none_iff_forall_ne_some.2 fun u hdrop => ?_
      rw [← depth_trim] at hd
      rcases dropLoose?_eq_some_iff.1 hdrop with ⟨hpos, -⟩ | ⟨hneg, -⟩ <;> omega
    rw [repair_of_not_drop hb hnone] at h
    cases h

/-- A text with parentheses left open begins with one, and the repair goes on without it. -/
theorem exists_of_repair_open (h : repair (trim s) = some t) (hd : 0 < depth s) :
    ∃ p v, allBlank p = true ∧ s = p ++ '(' :: v ∧ repair (trim v) = some t := by
  have hb : ¬Balanced (trim s) := not_balanced_of_depth (by rw [depth_trim]; omega)
  cases hdrop : dropLoose? (trim s) with
  | none =>
      rw [repair_of_not_drop hb hdrop] at h
      cases h
  | some u =>
      rw [repair_of_drop hb hdrop] at h
      rcases exists_trim s with ⟨p, q, hp, hq, hs⟩
      rcases dropLoose?_eq_some_iff.1 hdrop with ⟨-, htrim⟩ | ⟨hneg, -⟩
      · refine ⟨p, u ++ q, hp, ?_, ?_⟩
        · rw [hs, htrim]
          simp
        · rw [trim_append_of_allBlank_right u hq]
          exact h
      · rw [depth_trim] at hneg
        omega

/-- A text with parentheses that close nothing ends with one, and the repair goes on without it. -/
theorem exists_of_repair_close (h : repair (trim s) = some t) (hd : depth s < 0) :
    ∃ v q, allBlank q = true ∧ s = v ++ ')' :: q ∧ repair (trim v) = some t := by
  have hb : ¬Balanced (trim s) := not_balanced_of_depth (by rw [depth_trim]; omega)
  cases hdrop : dropLoose? (trim s) with
  | none =>
      rw [repair_of_not_drop hb hdrop] at h
      cases h
  | some u =>
      rw [repair_of_drop hb hdrop] at h
      rcases exists_trim s with ⟨p, q, hp, hq, hs⟩
      rcases dropLoose?_eq_some_iff.1 hdrop with ⟨hpos, -⟩ | ⟨-, htrim⟩
      · rw [depth_trim] at hpos
        omega
      · refine ⟨p ++ u, q, hq, ?_, ?_⟩
        · rw [hs, htrim]
          simp
        · rw [trim_append_of_allBlank_left hp]
          exact h

/-! ## Repair with one more parenthesis -/

/-- A parenthesis at the front that stays open is loose and goes first. -/
theorem repair_trim_open (hd : 0 ≤ depth s) : repair (trim ('(' :: s)) = repair (trim s) := by
  have hdepth : depth ('(' :: trimEnd s) = depth s + 1 := by
    rw [depth_open, depth, run_trimEnd]
    rfl
  have hloose : dropLoose? ('(' :: trimEnd s) = some (trimEnd s) :=
    dropLoose?_eq_some_iff.2 (Or.inl ⟨by omega, rfl⟩)
  have htrim : trim ('(' :: s) = '(' :: trimEnd s := trim_append_cons [] rfl s
  rw [htrim, repair_of_drop (not_balanced_of_depth (by omega)) hloose, trim_trimEnd]

/-- A parenthesis at the back that closes nothing is loose and goes first. -/
theorem repair_trim_close (hd : depth (s ++ [')']) < 0) :
    repair (trim (s ++ [')'])) = repair (trim s) := by
  have hdepth : depth (trimStart s ++ [')']) = depth (s ++ [')']) := by
    rw [depth, depth, run_append, run_append, run_trimStart]
  have hloose : dropLoose? (trimStart s ++ [')']) = some (trimStart s) :=
    dropLoose?_eq_some_iff.2 (Or.inr ⟨by omega, rfl⟩)
  have htrim : trim (s ++ [')']) = trimStart s ++ [')'] := trim_append_cons s rfl []
  rw [htrim, repair_of_drop (not_balanced_of_depth (by omega)) hloose, trim_trimStart]

/-- Parentheses around a balanced text stay, and they wrap it. -/
theorem repair_group (hq : QuoteClosed v) (h : repair (trim v) = some t) (hd : depth v = 0) :
    ∃ t', repair ('(' :: v ++ [')']) = some t' ∧ unwrap t' = unwrap t := by
  rcases balanced_of_repair_trim h hd with ⟨hv, rfl⟩
  refine ⟨'(' :: v ++ [')'], repair_of_balanced (balanced_group hv hq), ?_⟩
  rw [unwrap_group hv.2, unwrap_trim]

theorem repair_open (hq : QuoteClosed s) (h : repair (trim s) = some t) :
    ∃ t', repair (trim ('(' :: s)) = some t' ∧ unwrap t' = unwrap t := by
  induction hn : s.length using Nat.strongRecOn generalizing s with
  | ind n ih =>
      subst hn
      by_cases hd : depth s < 0
      · -- the new parenthesis closes with the loose one at the end
        rcases exists_of_repair_close h hd with ⟨v, q, hblank, rfl, hv⟩
        have hcons : v ++ ')' :: q = v ++ [')'] ++ q := by simp
        have hclosed : QuoteClosed v := by
          rw [hcons, quoteClosed_append_blank hblank] at hq
          exact quoteClosed_close_iff.1 hq
        have hdepth : depth v ≤ 0 := by
          rw [hcons, depth, run_append, run_blank hblank, ← depth, depth_close hclosed] at hd
          omega
        have htrim : trim ('(' :: (v ++ ')' :: q)) = '(' :: v ++ [')'] := by
          calc
            trim ('(' :: (v ++ ')' :: q)) = trim ('(' :: v ++ [')'] ++ q) := by simp
            _ = '(' :: v ++ [')'] := by rw [trim_append_of_allBlank_right _ hblank, trim_group]
        rw [htrim]
        rcases Int.lt_or_eq_of_le hdepth with hneg | hzero
        · -- others are loose too: the one at the end goes first
          have hgroup := depth_group hclosed
          have hloose : dropLoose? ('(' :: v ++ [')']) = some ('(' :: v) :=
            dropLoose?_eq_some_iff.2 (Or.inr ⟨by omega, rfl⟩)
          rw [repair_of_drop (not_balanced_of_depth (by omega)) hloose]
          exact ih v.length (by simp) hclosed hv rfl
        · exact repair_group hclosed hv hzero
      · -- the new parenthesis is a loose one and goes first
        exact ⟨t, (repair_trim_open (by omega)).trans h, rfl⟩

theorem repair_close (hq : QuoteClosed s) (h : repair (trim s) = some t) :
    ∃ t', repair (trim (s ++ [')'])) = some t' ∧ unwrap t' = unwrap t := by
  induction hn : s.length using Nat.strongRecOn generalizing s with
  | ind n ih =>
      subst hn
      by_cases hd : 0 < depth s
      · -- the new parenthesis closes the loose one at the front
        rcases exists_of_repair_open h hd with ⟨p, v, hblank, rfl, hv⟩
        have hclosed : QuoteClosed v := by
          rw [quoteClosed_blank_append hblank] at hq
          exact quoteClosed_open_iff.1 hq
        have hdepth : 0 ≤ depth v := by
          rw [depth, run_append, run_blank hblank, ← depth, depth_open] at hd
          omega
        have htrim : trim (p ++ '(' :: v ++ [')']) = '(' :: v ++ [')'] := by
          rw [List.append_assoc, trim_append_of_allBlank_left hblank, trim_group]
        rw [htrim]
        rcases Int.lt_or_eq_of_le hdepth with hpos | hzero
        · -- others are loose too: the one at the front goes first
          have hgroup := depth_group hclosed
          have hloose : dropLoose? ('(' :: v ++ [')']) = some (v ++ [')']) :=
            dropLoose?_eq_some_iff.2 (Or.inl ⟨by omega, rfl⟩)
          rw [repair_of_drop (not_balanced_of_depth (by omega)) hloose]
          exact ih v.length (by simp; omega) hclosed hv rfl
        · exact repair_group hclosed hv hzero.symm
      · -- the new parenthesis closes nothing and goes first
        exact ⟨t, (repair_trim_close (by rw [depth_close hq]; omega)).trans h, rfl⟩

/-! ## Any number of them -/

theorem tidy_open (hq : QuoteClosed s) (h : tidy s = .ok raw) : tidy ('(' :: s) = .ok raw := by
  rcases tidy_eq_ok_iff.1 h with ⟨t, ht, rfl⟩
  exact tidy_eq_ok_iff.2 (repair_open hq ht)

theorem tidy_close (hq : QuoteClosed s) (h : tidy s = .ok raw) : tidy (s ++ [')']) = .ok raw := by
  rcases tidy_eq_ok_iff.1 h with ⟨t, ht, rfl⟩
  exact tidy_eq_ok_iff.2 (repair_close hq ht)

/-- A text between `opens` opening and `closes` closing parentheses. -/
def enclose (opens closes : Nat) (s : Text) : Text :=
  List.replicate opens '(' ++ s ++ List.replicate closes ')'

/-- Parentheses before a text and behind it, whether they match or not, are tidied away. -/
theorem tidy_enclose (hq : QuoteClosed s) (h : tidy s = .ok raw) (opens closes : Nat) :
    tidy (enclose opens closes s) = .ok raw := by
  have hopens : QuoteClosed (List.replicate opens '(' ++ s) ∧
      tidy (List.replicate opens '(' ++ s) = .ok raw := by
    induction opens with
    | zero => exact ⟨hq, h⟩
    | succ opens ih => exact ⟨quoteClosed_open_iff.2 ih.1, tidy_open ih.1 ih.2⟩
  have hcloses : QuoteClosed (enclose opens closes s) ∧ tidy (enclose opens closes s) = .ok raw := by
    induction closes with
    | zero =>
        rw [enclose, List.replicate_zero, List.append_nil]
        exact hopens
    | succ closes ih =>
        have hlast : enclose opens (closes + 1) s = enclose opens closes s ++ [')'] := by
          rw [enclose, enclose, List.replicate_succ', List.append_assoc _ _ [')']]
        rw [hlast]
        exact ⟨quoteClosed_close_iff.2 ih.1, tidy_close ih.1 ih.2⟩
  exact hcloses.2

/-! ## Where a tidy text ends outside literals, so does the text -/

theorem quoteClosed_of_trim (h : QuoteClosed (trim s)) : QuoteClosed s := by
  rw [QuoteClosed, run_trim] at h
  exact h

theorem quoteClosed_of_repair (h : repair t = some u) (hu : QuoteClosed u) : QuoteClosed t := by
  fun_induction repair t with
  | case1 t _ =>
      cases h
      exact hu
  | case2 t _ rest hdrop ih =>
      have hrest := quoteClosed_of_trim (ih h)
      rcases dropLoose?_eq_some_iff.1 hdrop with ⟨-, rfl⟩ | ⟨-, rfl⟩
      · exact quoteClosed_open_iff.2 hrest
      · exact quoteClosed_close_iff.2 hrest
  | case3 => cases h

theorem quoteClosed_of_unwrap (h : QuoteClosed (unwrap s)) : QuoteClosed s := by
  fun_induction unwrap s with
  | case1 s inner hin hdips => exact quoteClosed_of_trim h
  | case2 s inner hin hdips ih =>
      apply quoteClosed_of_trim
      rw [interior?_eq_some_iff.1 hin]
      exact quoteClosed_group (ih h)
  | case3 s hnone => exact quoteClosed_of_trim h

theorem quoteClosed_of_tidy (h : tidy s = .ok raw) (hraw : QuoteClosed raw) : QuoteClosed s := by
  rcases tidy_eq_ok_iff.1 h with ⟨t, ht, rfl⟩
  exact quoteClosed_of_trim (quoteClosed_of_repair ht (quoteClosed_of_unwrap hraw))

end Expression
end RecordFilter
