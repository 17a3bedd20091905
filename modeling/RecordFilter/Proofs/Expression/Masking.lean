import RecordFilter.Proofs.Expression.Scanning
import RecordFilter.Proofs.Text.Occurrences
import RecordFilter.Text.Quoted

/-!
# Masking — the mask of a text from the masks of its pieces

What a settled text hides does not depend on what follows it (`maskGroups_append`); a literal and a
group are hidden as a whole (`mask_literal`, `maskGroups_group`).  A visible stretch of a mask is a
stretch of the text, read in the plain zone (`exists_of_mask_eq`).
-/

namespace RecordFilter
namespace Expression

open Text Scan

variable {a b e s p r x token word : Text} {c : Char} {q : Scan} {hides : Scan → Char → Bool}

/-- The characters that stand for `n` hidden bytes. -/
def nuls (n : Nat) : Text := List.replicate n '\x00'

/-! ## Searches go through masks -/

theorem lastWord?_eq (word s : Text) :
    lastWord? word s = (wordOffsets word (maskGroups s)).getLast? := by
  rw [lastWord?, wordOffsets, ← List.head?_filter, List.filter_reverse, List.head?_reverse,
    List.getLast?_map]

theorem firstIndex?_eq (token s : Text) :
    firstIndex? token s = (offsets token (maskGroups s)).head? := by
  simp [firstIndex?, offsets]

theorem mentions_iff : mentions word s = true ↔ wordOffsets word (maskQuotes s) ≠ [] := by
  simp [mentions, wordOffsets, List.filter_eq_nil_iff]

/-! ## Masks of pieces -/

theorem maskGroups_append (ha : start.run a = start) (b : Text) :
    maskGroups (a ++ b) = maskGroups a ++ maskGroups b := by
  rw [maskGroups, mask_append, ha]
  rfl

theorem quotes_inert (hc : isInert c = true) (hq : q.zone = .plain) : q.quotes c = false := by
  simp only [isInert, Bool.and_eq_true, bne_iff_ne] at hc
  simp [quotes, hq, hc]

theorem encloses_inert (hc : isInert c = true) (hq : q.zone = .plain) (hd : q.depth ≤ 0) :
    q.encloses c = false := by
  have hquotes := quotes_inert hc hq
  simp only [isInert, Bool.and_eq_true, bne_iff_ne] at hc
  simp only [encloses, hquotes, Bool.or_eq_false_iff, decide_eq_false_iff_not, Int.not_lt]
  simp [hc, hd]

/-- A visible character stands outside literals and groups. -/
theorem zone_of_visible (h : q.encloses c = false) : q.zone = .plain := by
  simp only [encloses, quotes, Bool.or_eq_false_iff] at h
  simpa using h.1.1.1.1

theorem depth_of_visible (h : q.encloses c = false) : q.depth ≤ 0 := by
  simp only [encloses, Bool.or_eq_false_iff] at h
  simpa using h.2

/-- What stands before a visible character of a balanced text is settled. -/
theorem settled_of_visible (hs : Balanced (a ++ b)) (h : (start.run a).encloses c = false) :
    Settled a := by
  -- a visible character stands at depth zero or below, and a balanced text never goes below
  have hdips : dips a = false := by
    have hwhole := hs.2
    rw [dips, dips_append] at hwhole
    exact (Bool.or_eq_false_iff.1 hwhole).1
  have hnonneg := depth_nonneg_of_not_dips hdips (Int.le_refl 0)
  exact ⟨⟨Int.le_antisymm (depth_of_visible h) hnonneg, hdips⟩, zone_of_visible h⟩

theorem mask_of_visible (hs : ∀ c ∈ s, isInert c = true)
    (hv : ∀ c, isInert c = true → hides q c = false) : mask hides q s = s := by
  induction s with
  | nil => rfl
  | cons c s ih =>
      have hc := hs c List.mem_cons_self
      rw [mask, hv c hc, advance_inert hc, ih (fun d hd => hs d (List.mem_cons_of_mem _ hd))]
      rfl

theorem maskGroups_inert (hs : ∀ c ∈ s, isInert c = true) : maskGroups s = s :=
  mask_of_visible hs (fun _ hc => encloses_inert hc rfl (Int.le_refl 0))

theorem maskGroups_append_blank (ha : start.run a = start) (hb : allBlank b = true) :
    maskGroups (a ++ b) = maskGroups a ++ b := by
  rw [maskGroups_append ha, maskGroups_inert (isInert_of_allBlank hb)]

theorem maskGroups_blank_append (ha : allBlank a = true) (b : Text) :
    maskGroups (a ++ b) = a ++ maskGroups b := by
  rw [maskGroups_append (run_blank ha _), maskGroups_inert (isInert_of_allBlank ha)]

theorem mem_mask (h : c ∈ mask hides q s) : c = '\x00' ∨ c ∈ s := by
  induction s generalizing q with
  | nil => cases h
  | cons d s ih =>
      rw [mask] at h
      rcases List.mem_append.1 h with h | h
      · split at h
        · exact Or.inl (List.eq_of_mem_replicate h)
        · rw [List.mem_singleton.1 h]
          exact Or.inr List.mem_cons_self
      · rcases ih h with h | h
        · exact Or.inl h
        · exact Or.inr (List.mem_cons_of_mem _ h)

/-- What follows hidden bytes and begins with a visible character is not one of them. -/
theorem exists_of_nuls_append_eq (hc : c ≠ '\x00') {n : Nat} (h : nuls n ++ s = p ++ c :: r) :
    ∃ p', p = nuls n ++ p' ∧ s = p' ++ c :: r := by
  induction n generalizing p with
  | zero => exact ⟨p, rfl, h⟩
  | succ n ih =>
      cases p with
      | nil => exact absurd (List.cons.inj h).1.symm hc
      | cons x p =>
          rcases List.cons.inj h with ⟨rfl, hrest⟩
          rcases ih hrest with ⟨p', rfl, hs⟩
          exact ⟨p', rfl, hs⟩

/-- A visible character of a mask is a character of the text at which nothing is hidden. -/
theorem exists_of_mask_eq (hc : c ≠ '\x00') (h : mask hides q s = p ++ c :: r) :
    ∃ s₁ s₂, s = s₁ ++ c :: s₂ ∧ mask hides q s₁ = p ∧ hides (q.run s₁) c = false ∧
      mask hides ((q.run s₁).advance c) s₂ = r := by
  induction s generalizing q p with
  | nil => simp [mask] at h
  | cons d s ih =>
      rw [mask] at h
      cases hd : hides q d with
      | true =>
          rw [hd, if_pos rfl] at h
          rcases exists_of_nuls_append_eq hc h with ⟨p', rfl, hrest⟩
          rcases ih hrest with ⟨s₁, s₂, rfl, rfl, hvisible, htail⟩
          refine ⟨d :: s₁, s₂, rfl, ?_, hvisible, htail⟩
          rw [mask, hd]
          rfl
      | false =>
          rw [hd, if_neg (by decide)] at h
          cases p with
          | nil =>
              rcases List.cons.inj h with ⟨rfl, hrest⟩
              exact ⟨[], s, rfl, rfl, hd, hrest⟩
          | cons x p =>
              rcases List.cons.inj h with ⟨rfl, hrest⟩
              rcases ih hrest with ⟨s₁, s₂, rfl, rfl, hvisible, htail⟩
              refine ⟨d :: s₁, s₂, rfl, ?_, hvisible, htail⟩
              rw [mask, hd]
              rfl

/-- A visible stretch of a mask is a stretch of the text. -/
theorem exists_of_mask_eq_append (hw : '\x00' ∉ word) (hne : word ≠ [])
    (h : mask hides q s = p ++ word ++ r) :
    ∃ s₁ s₂, s = s₁ ++ word ++ s₂ ∧ mask hides q s₁ = p ∧
      hides (q.run s₁) (word.head hne) = false ∧ mask hides ((q.run s₁).run word) s₂ = r := by
  induction word generalizing s q p with
  | nil => exact absurd rfl hne
  | cons c word ih =>
      have hc : c ≠ '\x00' := fun hc => hw (hc ▸ List.mem_cons_self)
      have hfirst : mask hides q s = p ++ c :: (word ++ r) := by
        simpa using h
      rcases exists_of_mask_eq hc hfirst with ⟨s₁, s₂, rfl, rfl, hvisible, htail⟩
      cases word with
      | nil => exact ⟨s₁, s₂, by simp, rfl, hvisible, htail⟩
      | cons d word =>
          have hrest := ih (fun hd => hw (List.mem_cons_of_mem _ hd)) (List.cons_ne_nil d word)
            (p := []) htail
          rcases hrest with ⟨t₁, t₂, rfl, ht₁, -, htail'⟩
          -- no character stands between the first one and the rest of the word
          have hnil : t₁ = [] := by
            have hsize := congrArg byteSize ht₁
            rw [byteSize_mask, byteSize_nil] at hsize
            have hlen := length_le_byteSize t₁
            exact List.length_eq_zero_iff.1 (by omega)
          subst hnil
          exact ⟨s₁, t₂, by simp, rfl, hvisible, htail'⟩

/-! ## Hidden pieces -/

theorem nuls_add (m n : Nat) : nuls (m + n) = nuls m ++ nuls n := by
  exact (List.replicate_append_replicate).symm

theorem byteSize_nuls (n : Nat) : byteSize (nuls n) = n := by
  induction n with
  | zero => rfl
  | succ n ih =>
      have hsize : Char.utf8Size '\x00' = 1 := rfl
      rw [nuls, List.replicate_succ, byteSize_cons, hsize, ← nuls, ih, Nat.add_comm]

theorem head?_nuls_append {n : Nat} (hn : 0 < n) (s : Text) : (nuls n ++ s).head? = some '\x00' := by
  rcases Nat.exists_eq_succ_of_ne_zero (Nat.ne_of_gt hn) with ⟨m, rfl⟩
  rfl

theorem getLast?_append_nuls {n : Nat} (hn : 0 < n) (s : Text) :
    (s ++ nuls n).getLast? = some '\x00' := by
  rcases Nat.exists_eq_succ_of_ne_zero (Nat.ne_of_gt hn) with ⟨m, rfl⟩
  rw [nuls, List.replicate_succ', ← List.append_assoc, List.getLast?_concat]

/-- A group hides all that stands in it. -/
theorem mask_raise_of_not_dips (hd : 0 ≤ q.depth) (h : q.dips s = false) :
    mask encloses (q.raise 1) s = nuls (byteSize s) := by
  induction s generalizing q with
  | nil => rfl
  | cons c s ih =>
      simp only [Scan.dips, Bool.or_eq_false_iff, decide_eq_false_iff_not, Int.not_lt] at h
      -- the depth is not negative without the parenthesis, so it is positive with it
      have hhidden : (q.raise 1).encloses c = true := by
        have hpos : 0 < (q.raise 1).depth := by
          rw [raise_depth]
          omega
        simp only [encloses, decide_eq_true hpos, Bool.or_true]
      rw [mask, hhidden, advance_raise, ih h.1 h.2, byteSize_cons, nuls_add]
      rfl

theorem maskGroups_group (he : Balanced e) (hq : QuoteClosed e) :
    maskGroups ('(' :: e ++ [')']) = nuls (byteSize ('(' :: e ++ [')'])) := by
  have hinner : mask encloses (start.raise 1) e = nuls (byteSize e) :=
    mask_raise_of_not_dips (Int.le_refl 0) he.2
  have hlast : mask encloses (start.raise 1) [')'] = nuls (byteSize [')']) := rfl
  have hfirst : mask encloses start ('(' :: (e ++ [')'])) =
      nuls (Char.utf8Size '(') ++ mask encloses (start.raise 1) (e ++ [')']) := rfl
  calc
    maskGroups ('(' :: e ++ [')']) =
        nuls (Char.utf8Size '(') ++ mask encloses (start.raise 1) (e ++ [')']) := hfirst
    _ = nuls (Char.utf8Size '(') ++ (nuls (byteSize e) ++ nuls (byteSize [')'])) := by
      rw [mask_append, hinner, run_raise, run_settled he hq, hlast]
    _ = nuls (byteSize ('(' :: e ++ [')'])) := by
      rw [← nuls_add, ← nuls_add, ← byteSize_append]
      rfl

/-! ## Literals -/

theorem run_encode (d : Int) (x : Text) :
    (⟨.single, d⟩ : Scan).run (Quoted.encode x) = ⟨.single, d⟩ := by
  induction x with
  | nil => rfl
  | cons c x ih =>
      -- a doubled quote closes the literal and opens it again
      by_cases hc : c = '\''
      · simp [Quoted.encode, hc, advance, ih]
      · simp [Quoted.encode, hc, advance, ih]

theorem run_literal (hq : q.zone = .plain) (x : Text) : q.run (Quoted.literal x) = q := by
  rcases q with ⟨zone, d⟩
  simp only at hq
  subst hq
  simp [Quoted.literal, advance, run_encode]

theorem dips_literal (hq : q.zone = .plain) (hd : 0 ≤ q.depth) (x : Text) :
    q.dips (Quoted.literal x) = false := by
  have hencode : ∀ x : Text, (⟨.single, q.depth⟩ : Scan).dips (Quoted.encode x) = false := by
    intro x
    induction x with
    | nil => rfl
    | cons c x ih =>
        by_cases hc : c = '\''
        · simp [Quoted.encode, hc, Scan.dips, advance, ih, hd]
        · simp [Quoted.encode, hc, Scan.dips, advance, ih, hd]
  simp [Quoted.literal, Scan.dips, dips_append, advance, hq, hd, hencode, run_encode]

theorem settled_literal (x : Text) : Settled (Quoted.literal x) :=
  Settled.of_run (run_literal rfl x) (dips_literal rfl (Int.le_refl 0) x)

theorem mask_literal (hh : ∀ q c, q.quotes c = true → hides q c = true) (hq : q.zone = .plain)
    (x : Text) : mask hides q (Quoted.literal x) = nuls (byteSize (Quoted.literal x)) := by
  have hsingle : ∀ d c, hides ⟨.single, d⟩ c = true := fun d c => hh _ _ rfl
  have hmark : ∀ d, hides ⟨.plain, d⟩ '\'' = true := fun d => hh _ _ rfl
  have hencode : ∀ d (x : Text),
      mask hides ⟨.single, d⟩ (Quoted.encode x) = nuls (byteSize (Quoted.encode x)) := by
    intro d x
    induction x with
    | nil => rfl
    | cons c x ih =>
        by_cases hc : c = '\''
        · simp [Quoted.encode, hc, mask, advance, ih, hsingle, hmark, nuls_add]
          rfl
        · simp [Quoted.encode, hc, mask, advance, ih, hsingle, nuls_add]
          rfl
  rcases q with ⟨zone, d⟩
  simp only at hq
  subst hq
  simp [Quoted.literal, mask, mask_append, advance, run_encode, hencode, hsingle, hmark, nuls_add]
  rfl

end Expression
end RecordFilter
