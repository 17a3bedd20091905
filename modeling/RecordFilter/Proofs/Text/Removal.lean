import RecordFilter.Proofs.Text.Occurrences

/-!
# Removal — cutting a needle out piece by piece

A character that the needle does not have stays, and what is cut out on either side of it does not
depend on the other side (`without_append_cons`).
-/

namespace RecordFilter
namespace Text

variable {needle a b s : Text} {c : Char} {names : List Text}

theorem withoutFrom_append_cons (hc : c ∉ needle) (b : Text) {skip : Nat} (hskip : skip ≤ a.length) :
    withoutFrom needle skip (a ++ c :: b) = withoutFrom needle skip a ++ c :: without needle b := by
  -- a piece to skip never reaches over `c`, since the needle does not
  induction a generalizing skip with
  | nil =>
      have hzero : skip = 0 := Nat.le_zero.1 hskip
      subst hzero
      have hfront : (!needle.isEmpty && needle.isPrefixOf (c :: b)) = false := by
        cases needle with
        | nil => rfl
        | cons d needle =>
            have hne : d ≠ c := fun h => hc (h ▸ List.mem_cons_self)
            simp [List.isPrefixOf, hne]
      simp [withoutFrom, hfront, without]
  | cons d a ih =>
      cases skip with
      | succ skip =>
          rw [List.cons_append, withoutFrom, withoutFrom]
          exact ih (Nat.le_of_succ_le_succ hskip)
      | zero =>
          have hprefix : needle.isPrefixOf (d :: (a ++ c :: b)) = needle.isPrefixOf (d :: a) :=
            isPrefixOf_append_cons hc (d :: a) b
          rw [List.cons_append, withoutFrom, withoutFrom, hprefix]
          split
          case isTrue hcut =>
            -- the needle fits into `a`, and its further characters are skipped there
            have hlen := (List.isPrefixOf_iff_prefix.1 (Bool.and_eq_true_iff.1 hcut).2).length_le
            apply ih
            simp only [List.length_cons] at hlen
            omega
          case isFalse =>
            rw [ih (Nat.zero_le _)]
            rfl

theorem without_append_cons (hc : c ∉ needle) (a b : Text) :
    without needle (a ++ c :: b) = without needle a ++ c :: without needle b :=
  withoutFrom_append_cons hc b (Nat.zero_le _)

theorem mem_of_mem_withoutFrom {skip : Nat} (h : c ∈ withoutFrom needle skip s) : c ∈ s := by
  induction s generalizing skip with
  | nil => simp [withoutFrom] at h
  | cons d s ih =>
      cases skip with
      | succ skip =>
          rw [withoutFrom] at h
          exact List.mem_cons_of_mem _ (ih h)
      | zero =>
          rw [withoutFrom] at h
          split at h
          case isTrue => exact List.mem_cons_of_mem _ (ih h)
          case isFalse =>
            rcases List.mem_cons.1 h with rfl | h
            · exact List.mem_cons_self
            · exact List.mem_cons_of_mem _ (ih h)

/-- A needle that is no part of a text is nowhere cut out of it. -/
theorem without_of_not_infix (h : ¬needle <:+: s) : without needle s = s := by
  induction s with
  | nil => rfl
  | cons d s ih =>
      have hrest := ih (fun hin => h (hin.trans (List.suffix_cons d s).isInfix))
      have hfront : (!needle.isEmpty && needle.isPrefixOf (d :: s)) = false := by
        cases hprefix : needle.isPrefixOf (d :: s) with
        | false => simp
        | true => exact absurd (List.isPrefixOf_iff_prefix.1 hprefix).isInfix h
      have hskip : withoutFrom needle 0 s = s := hrest
      rw [without, withoutFrom, hfront, hskip]
      rfl

/-- A needle with a character that the text lacks is nowhere in it. -/
theorem without_eq_self (hc : c ∈ needle) (hs : c ∉ s) : without needle s = s :=
  without_of_not_infix fun h => hs (h.subset hc)

theorem without_nil_left (s : Text) : without [] s = s := by
  induction s with
  | nil => rfl
  | cons d s ih =>
      have hrest : withoutFrom [] 0 s = s := ih
      rw [without, withoutFrom, hrest]
      rfl

theorem withoutFrom_of_length_le {skip : Nat} (h : s.length ≤ skip) :
    withoutFrom needle skip s = [] := by
  induction s generalizing skip with
  | nil => rfl
  | cons d s ih =>
      cases skip with
      | zero => cases h
      | succ skip => exact ih (Nat.le_of_succ_le_succ h)

/-- Nothing is left of the needle itself. -/
theorem without_self (s : Text) : without s s = [] := by
  cases s with
  | nil => rfl
  | cons d s =>
      have hfront : (!(d :: s).isEmpty && (d :: s).isPrefixOf (d :: s)) = true := by simp
      rw [without, withoutFrom, if_pos hfront]
      exact withoutFrom_of_length_le (Nat.le_refl _)

/-! ## Several needles -/

/-- Cuts out one needle after another. -/
def withoutAll (names : List Text) (s : Text) : Text :=
  names.foldl (fun rest name => without name rest) s

theorem withoutAll_append_cons (hc : ∀ name ∈ names, c ∉ name) (a b : Text) :
    withoutAll names (a ++ c :: b) = withoutAll names a ++ c :: withoutAll names b := by
  induction names generalizing a b with
  | nil => rfl
  | cons name names ih =>
      have hfirst : without name (a ++ c :: b) = without name a ++ c :: without name b :=
        without_append_cons (hc name List.mem_cons_self) a b
      have hrest := ih (fun n hn => hc n (List.mem_cons_of_mem _ hn)) (without name a) (without name b)
      simpa only [withoutAll, List.foldl_cons, hfirst] using hrest

theorem withoutAll_nil (names : List Text) : withoutAll names [] = [] := by
  induction names with
  | nil => rfl
  | cons name names ih => simpa only [withoutAll, List.foldl_cons, without, withoutFrom] using ih

theorem withoutAll_of_forall (h : ∀ name ∈ names, without name s = s) : withoutAll names s = s := by
  induction names with
  | nil => rfl
  | cons name names ih =>
      have hfirst := h name List.mem_cons_self
      have hrest := ih fun n hn => h n (List.mem_cons_of_mem _ hn)
      simpa only [withoutAll, List.foldl_cons, hfirst] using hrest

/-- Needles that share no character with a text leave it as it is. -/
theorem withoutAll_eq_self (h : ∀ name ∈ names, ∀ c ∈ name, c ∉ s) : withoutAll names s = s := by
  refine withoutAll_of_forall fun name hname => ?_
  cases name with
  | nil => exact without_nil_left s
  | cons c name => exact without_eq_self List.mem_cons_self (h _ hname c List.mem_cons_self)

/-- Nothing is left of one of the needles, if no earlier one is a proper part of it. -/
theorem withoutAll_needle {front back : List Text} (h : ∀ name ∈ front, name <:+: s → name = s) :
    withoutAll (front ++ s :: back) s = [] := by
  induction front with
  | nil =>
      have hself := without_self s
      simpa only [withoutAll, List.nil_append, List.foldl_cons, hself] using withoutAll_nil back
  | cons name front ih =>
      have hrest := ih fun n hn => h n (List.mem_cons_of_mem _ hn)
      by_cases hin : name <:+: s
      · -- the needle itself stands earlier, and cuts out everything
        rw [h name List.mem_cons_self hin]
        have hself := without_self s
        simpa only [withoutAll, List.cons_append, List.foldl_cons, hself] using
          withoutAll_nil (front ++ s :: back)
      · have hfirst := without_of_not_infix hin
        simpa only [withoutAll, List.cons_append, List.foldl_cons, hfirst] using hrest

theorem mem_of_mem_withoutAll (h : c ∈ withoutAll names s) : c ∈ s := by
  induction names generalizing s with
  | nil => exact h
  | cons name names ih =>
      have hfirst : c ∈ without name s := ih h
      exact mem_of_mem_withoutFrom hfirst

end Text
end RecordFilter
