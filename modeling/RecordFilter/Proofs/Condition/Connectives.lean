import RecordFilter.Proofs.Text.Ascii
import RecordFilter.Proofs.Text.Parts
import RecordFilter.Proofs.Expression.Masking
import RecordFilter.Proofs.Condition.Reading

/-!
# Connectives — where the words of connectives stand

The reader of conditions searches the mask of a text for the words of its connectives.  This module
says where it finds them (`Stands`), which one it splits at (`rootConnective?_spec`) and what that
gives (`split?_eq_some`).

A word at an end of a text may be hidden by a blank that continues it, such as a no-break space, and
show once the text is trimmed; nothing else comes or goes with the blanks at the ends.
-/

namespace RecordFilter
namespace Condition

open Text Expression

variable {a b e g s t x y : Text} {op op' : Connective} {i j : Nat}

/-- The word for `op` stands at byte `i` of `s`, outside literals and groups. -/
def Stands (op : Connective) (i : Nat) (s : Text) : Prop :=
  i ∈ wordOffsets op.keyword (maskGroups s)

/-- No connective stands in `s`. -/
def Clear (s : Text) : Prop := ∀ op i, ¬Stands op i s

/-- OR and XOR. -/
def Connective.isWeak (op : Connective) : Bool := op != .and

theorem keyword_ne_nil (op : Connective) : op.keyword ≠ [] := by
  cases op <;> exact List.cons_ne_nil _ _

theorem nul_not_mem_keyword (op : Connective) : '\x00' ∉ op.keyword := by
  cases op <;> decide

theorem isInert_of_mem_keyword (op : Connective) : ∀ c ∈ op.keyword, isInert c = true := by
  cases op <;> decide

theorem isBlank_of_mem_keyword (op : Connective) : ∀ c ∈ op.keyword, isBlank c = false := by
  cases op <;> decide

theorem not_mem_keyword_of_allBlank (hg : allBlank g = true) (op : Connective) :
    ∀ c ∈ g, c ∉ op.keyword := by
  intro c hc hmem
  have hblank := allBlank_iff.1 hg c hc
  rw [isBlank_of_mem_keyword op c hmem] at hblank
  cases hblank

/-- One connective's word is no whole word of another's. -/
theorem wordOffsets_keyword (op op' : Connective) :
    wordOffsets op.keyword op'.keyword = if op = op' then [0] else [] := by
  cases op <;> cases op' <;> decide

/-! ## The connective to split at -/

theorem lastWord?_eq_none_iff : lastWord? op.keyword s = none ↔ ∀ i, ¬Stands op i s := by
  rw [lastWord?_eq, List.getLast?_eq_none_iff, List.eq_nil_iff_forall_not_mem]
  rfl

theorem lastWord?_spec (h : lastWord? op.keyword s = some i) :
    Stands op i s ∧ ∀ j, Stands op j s → j ≤ i := by
  rw [lastWord?_eq] at h
  rcases getLast?_wordOffsets_eq_some_iff.1 h with ⟨hstands, hlast⟩
  exact ⟨hstands, fun j hj => hlast hj⟩

/-- The last of the weak connectives, or the last AND if there is no weak one. -/
structure RootAt (op : Connective) (i : Nat) (s : Text) : Prop where
  stands : Stands op i s
  last : ∀ op' j, Stands op' j s →
    (op'.isWeak = true → op.isWeak = true ∧ j ≤ i) ∧ (op' = op → j ≤ i)

/-- The last of its kind is the root if no weak connective is looser or stands behind it. -/
theorem rootAt_of_last (hop : lastWord? op.keyword s = some i)
    (hweak : ∀ op' j, op'.isWeak = true → Stands op' j s → op.isWeak = true ∧ j ≤ i) :
    RootAt op i s := by
  rcases lastWord?_spec hop with ⟨hstands, hlast⟩
  refine ⟨hstands, ?_⟩
  intro op' j hj
  exact ⟨fun hw => hweak op' j hw hj, fun hsame => hlast j (hsame ▸ hj)⟩

theorem rootConnective?_spec (h : rootConnective? s = some (i, op)) : RootAt op i s := by
  unfold rootConnective? at h
  -- of OR and XOR the later one is taken, and AND if neither stands in the text
  split at h
  case h_1 io ix hor hxor =>
    have hor' := (lastWord?_spec hor).2
    have hxor' := (lastWord?_spec hxor).2
    split at h
    case isTrue hlt =>
      cases h
      apply rootAt_of_last hor
      rintro (_ | _ | _) j hweak hj
      · cases hweak
      · exact ⟨rfl, hor' j hj⟩
      · exact ⟨rfl, Nat.le_trans (hxor' j hj) (Nat.le_of_lt hlt)⟩
    case isFalse hle =>
      cases h
      apply rootAt_of_last hxor
      rintro (_ | _ | _) j hweak hj
      · cases hweak
      · exact ⟨rfl, Nat.le_trans (hor' j hj) (Nat.not_lt.1 hle)⟩
      · exact ⟨rfl, hxor' j hj⟩
  case h_2 io hor hxor =>
    cases h
    apply rootAt_of_last hor
    rintro (_ | _ | _) j hweak hj
    · cases hweak
    · exact ⟨rfl, (lastWord?_spec hor).2 j hj⟩
    · exact absurd hj (lastWord?_eq_none_iff.1 hxor j)
  case h_3 ix hor hxor =>
    cases h
    apply rootAt_of_last hxor
    rintro (_ | _ | _) j hweak hj
    · cases hweak
    · exact absurd hj (lastWord?_eq_none_iff.1 hor j)
    · exact ⟨rfl, (lastWord?_spec hxor).2 j hj⟩
  case h_4 hor hxor =>
    rcases Option.map_eq_some_iff.1 h with ⟨k, hand, heq⟩
    cases heq
    apply rootAt_of_last hand
    rintro (_ | _ | _) j hweak hj
    · cases hweak
    · exact absurd hj (lastWord?_eq_none_iff.1 hor j)
    · exact absurd hj (lastWord?_eq_none_iff.1 hxor j)

theorem rootConnective?_eq_none_iff : rootConnective? s = none ↔ Clear s := by
  constructor
  · intro h op i hi
    cases hor : lastWord? Connective.or.keyword s with
    | some j =>
        unfold rootConnective? at h
        rw [hor] at h
        split at h
        · split at h <;> cases h
        · cases h
        · cases h
        · contradiction
    | none =>
        cases hxor : lastWord? Connective.xor.keyword s with
        | some j =>
            rw [rootConnective?, hor, hxor] at h
            cases h
        | none =>
            rw [rootConnective?, hor, hxor] at h
            have hand := Option.map_eq_none_iff.1 h
            cases op with
            | and => exact lastWord?_eq_none_iff.1 hand i hi
            | or => exact lastWord?_eq_none_iff.1 hor i hi
            | xor => exact lastWord?_eq_none_iff.1 hxor i hi
  · intro h
    have hnone : ∀ op, lastWord? (Connective.keyword op) s = none :=
      fun op => lastWord?_eq_none_iff.2 (h op)
    simp [rootConnective?, hnone]

/-- Two connectives do not stand in one place. -/
theorem eq_of_stands (h : Stands op i s) (h' : Stands op' i s) : op = op' := by
  rcases (mem_wordOffsets_iff (keyword_ne_nil op)).1 h with ⟨p, q, hmask, hp, -, -⟩
  rcases (mem_wordOffsets_iff (keyword_ne_nil op')).1 h' with ⟨p', q', hmask', hp', -, -⟩
  rw [List.append_assoc] at hmask hmask'
  rcases append_inj_of_byteSize (hmask.symm.trans hmask') (hp.symm.trans hp') with ⟨-, hrest⟩
  -- the words of two connectives begin with different letters
  cases op <;> cases op' <;> first | rfl | exact absurd (List.cons.inj hrest).1 (by decide)

theorem rootConnective?_eq_some_iff : rootConnective? s = some (i, op) ↔ RootAt op i s := by
  constructor
  · exact rootConnective?_spec
  · intro h
    cases hroot : rootConnective? s with
    | none => exact absurd h.stands (rootConnective?_eq_none_iff.1 hroot op i)
    | some found =>
        rcases found with ⟨j, op'⟩
        have h' := rootConnective?_spec hroot
        have hle := h.last op' j h'.stands
        have hge := h'.last op i h.stands
        have hsame : i = j := by
          cases hweak : op.isWeak with
          | true => exact Nat.le_antisymm (hge.1 hweak).2 (hle.1 (hge.1 hweak).1).2
          | false =>
              -- a root that is not weak is AND, and then there is no weak one
              have hop : op = op' := by
                cases hweak' : op'.isWeak with
                | true =>
                    rw [(hle.1 hweak').1] at hweak
                    cases hweak
                | false => cases op <;> cases op' <;> simp_all [Connective.isWeak]
              exact Nat.le_antisymm (hge.2 hop) (hle.2 hop.symm)
        subst hsame
        rw [eq_of_stands h.stands h'.stands]

/-! ## The two sides -/

/-- A connective that stands in a text cuts it in two. -/
theorem exists_of_stands (h : Stands op i s) : ∃ x y, s = x ++ op.keyword ++ y ∧ i = byteSize x := by
  rcases (mem_wordOffsets_iff (keyword_ne_nil op)).1 h with ⟨p, q, hmask, rfl, -, -⟩
  rcases exists_of_mask_eq_append (nul_not_mem_keyword op) (keyword_ne_nil op) hmask with
    ⟨x, y, rfl, rfl, -, -⟩
  exact ⟨x, y, rfl, byteSize_mask _ _ x⟩

theorem split?_of_root (h : rootConnective? (x ++ op.keyword ++ y) = some (byteSize x, op)) :
    split? (x ++ op.keyword ++ y) = some (op, x, y) := by
  rw [split?, h, Option.map_some]
  exact congrArg (fun sides => some (op, sides)) (sidesOf_byteSize x op.keyword y)

theorem split?_eq_some (h : split? s = some (op, x, y)) :
    s = x ++ op.keyword ++ y ∧ rootConnective? s = some (byteSize x, op) := by
  rcases Option.map_eq_some_iff.1 h with ⟨⟨i, op'⟩, hroot, heq⟩
  have hop : op' = op := congrArg Prod.fst heq
  subst hop
  rcases exists_of_stands (rootConnective?_spec hroot).1 with ⟨x', y', rfl, rfl⟩
  have hsplit := split?_of_root hroot
  rw [h] at hsplit
  cases hsplit
  exact ⟨rfl, hroot⟩

theorem properPart_of_split? (h : split? s = some (op, x, y)) : ProperPart x s ∧ ProperPart y s := by
  rw [(split?_eq_some h).1]
  exact properPart_sides (keyword_ne_nil op) x y

theorem split?_eq_none_iff : split? s = none ↔ Clear s := by
  rw [← rootConnective?_eq_none_iff, split?, Option.map_eq_none_iff]

/-! ## Blanks at the ends -/

theorem stands_of_trimStart (h : Stands op i (trimStart s)) : i = 0 ∨ ∃ j, Stands op j s := by
  rcases exists_trimStart s with ⟨p, hp, hs⟩
  -- the blanks in front are the same in the mask, so only a word that begins there can change
  have hmask : maskGroups s = p ++ maskGroups (trimStart s) := by
    rw [← maskGroups_blank_append hp, ← hs]
  rcases mem_wordOffsets_append_right (keyword_ne_nil op) h p with hfirst | hinside
  · exact Or.inl hfirst
  · rw [← hmask] at hinside
    exact Or.inr ⟨_, hinside⟩

theorem stands_of_trimEnd (hs : Scan.start.run s = .start) (h : Stands op i (trimEnd s)) :
    i + byteSize op.keyword = byteSize (trimEnd s) ∨ Stands op i s := by
  rcases exists_trimEnd s with ⟨q, hq, hsplit⟩
  have hmask : maskGroups s = maskGroups (trimEnd s) ++ q := by
    rw [← maskGroups_append_blank (by rwa [run_trimEnd]) hq, ← hsplit]
  rcases mem_wordOffsets_append_left (keyword_ne_nil op) h q with hlast | hinside
  · exact Or.inl (hlast.trans (byteSize_mask _ _ _))
  · rw [← hmask] at hinside
    exact Or.inr hinside

/-- Trimming hides no connective. -/
theorem clear_of_trim (hs : Scan.start.run s = .start) (h : Clear (trim s)) : Clear s := by
  intro op i hi
  rcases exists_trim s with ⟨p, q, hp, hq, hsplit⟩
  have hmask : maskGroups s = p ++ maskGroups (trim s) ++ q := by
    rw [← maskGroups_blank_append hp, ← maskGroups_append_blank _ hq, ← hsplit]
    rw [Scan.run_append, Scan.run_blank hp, run_trim, hs]
  rw [Stands, hmask] at hi
  -- no keyword has a blank in it, so one that stands in the text stands in its trim
  have hleft := mem_wordOffsets_of_append_left (keyword_ne_nil op)
    (not_mem_keyword_of_allBlank hq op) hi
  rcases mem_wordOffsets_of_append_right (keyword_ne_nil op)
    (not_mem_keyword_of_allBlank hp op) hleft with ⟨j, hj, -⟩
  exact h op j hj

/-! ## Gaps -/

/-- Some ASCII white space. -/
def IsGap (g : Text) : Prop := g ≠ [] ∧ ∀ c ∈ g, isBlank c = true ∧ c.toNat < 0x80

instance (g : Text) : Decidable (IsGap g) := inferInstanceAs (Decidable (_ ∧ _))

theorem IsGap.allBlank (hg : IsGap g) : allBlank g = true := allBlank_iff.2 fun c hc => (hg.2 c hc).1

theorem IsGap.isInert (hg : IsGap g) : ∀ c ∈ g, isInert c = true :=
  fun c hc => isInert_of_isBlank (hg.2 c hc).1

theorem IsGap.separates (hg : IsGap g) (op : Connective) : Separates op.keyword g := by
  intro c hc
  exact ⟨not_mem_keyword_of_allBlank hg.allBlank op c hc,
    isWordChar_of_ascii_blank (hg.2 c hc).1 (hg.2 c hc).2⟩

/-- Around a connective in gaps stand the connectives of both sides and that one. -/
theorem stands_append_iff (hg : IsGap g) (ht : IsGap t) (ha : Scan.start.run a = .start) :
    Stands op i (a ++ g ++ op'.keyword ++ t ++ b) ↔
      Stands op i a ∨ (op = op' ∧ i = byteSize (a ++ g)) ∨
        ∃ j, Stands op j b ∧ i = byteSize (a ++ g ++ op'.keyword ++ t) + j := by
  have hkey : Scan.start.run op'.keyword = .start := Scan.run_inert (isInert_of_mem_keyword op') _
  have hmask : maskGroups (a ++ g ++ op'.keyword ++ t ++ b) =
      maskGroups a ++ g ++ (op'.keyword ++ t ++ maskGroups b) := by
    have hgap : Scan.start.run (a ++ g) = .start := by
      rw [Scan.run_append, ha, Scan.run_blank hg.allBlank]
    calc
      maskGroups (a ++ g ++ op'.keyword ++ t ++ b) =
          maskGroups (a ++ g) ++ maskGroups (op'.keyword ++ (t ++ b)) := by
        rw [← maskGroups_append hgap]
        simp
      _ = maskGroups a ++ g ++ (op'.keyword ++ (t ++ maskGroups b)) := by
        rw [maskGroups_append_blank ha hg.allBlank, maskGroups_append hkey,
          maskGroups_inert (isInert_of_mem_keyword op'), maskGroups_blank_append ht.allBlank]
      _ = maskGroups a ++ g ++ (op'.keyword ++ t ++ maskGroups b) := by
        rw [List.append_assoc op'.keyword]
  have hsize : byteSize (maskGroups a) = byteSize a := byteSize_mask _ _ a
  -- gaps separate, so what is found is found in `a`, in the keyword or in `b`
  rw [Stands, hmask, wordOffsets_append_gap (keyword_ne_nil op) (hg.separates op) hg.1,
    wordOffsets_append_gap (keyword_ne_nil op) (ht.separates op) ht.1, wordOffsets_keyword, hsize]
  simp only [List.mem_append, List.mem_map, byteSize_append]
  constructor
  · rintro (hi | ⟨k, hk | ⟨j, hj, rfl⟩, rfl⟩)
    · exact Or.inl hi
    · split at hk
      case isTrue hop => exact Or.inr (Or.inl ⟨hop, by simpa using hk⟩)
      case isFalse => cases hk
    · exact Or.inr (Or.inr ⟨j, hj, by omega⟩)
  · rintro (hi | ⟨rfl, rfl⟩ | ⟨j, hj, rfl⟩)
    · exact Or.inl hi
    · exact Or.inr ⟨0, Or.inl (by simp), by simp⟩
    · exact Or.inr ⟨_, Or.inr ⟨j, hj, rfl⟩, by omega⟩

end Condition
end RecordFilter
