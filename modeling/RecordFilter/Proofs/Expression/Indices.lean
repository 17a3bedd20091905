import RecordFilter.Proofs.Expression.Groups
import RecordFilter.Proofs.Text.Bytes

/-!
# Indices — where a token stands outside literals and groups

A token stands outside at a byte if its bytes stand there in those of the text, and each of them belongs
to a plain character with only whole literals and whole groups before it (`OccursOutside`).  The searches
look for it in the mask of the text instead.  In a balanced text they find the first and the last such
byte, and the text falls there into pieces whose masks are the pieces of its mask
(`indices_are_extreme`).
-/

namespace RecordFilter
namespace Expression

open Text Scan

variable {a b p r s token : Text} {c : Char} {i : Nat}

/-- Byte `j` of `s` belongs to a plain character that stands in no literal and in no group: what is before
it is complete. -/
def IsOutside (j : Nat) (s : Text) : Prop :=
  ∃ a c b, s = a ++ c :: b ∧ byteSize a ≤ j ∧ j < byteSize (a ++ [c]) ∧ Grouped a ∧ isInert c = true

/-- The bytes of `token` stand in `s` from byte `i` on, each of them outside literals and groups. -/
structure OccursOutside (token : Text) (i : Nat) (s : Text) : Prop where
  occurs : bytes token <+: (bytes s).drop i
  outside : ∀ j, i ≤ j → j < i + byteSize token → IsOutside j s

/-! ## Outside, as the reader sees it -/

theorem occursOutside_iff (hne : token ≠ []) : OccursOutside token i s ↔
    ∃ a b, s = a ++ token ++ b ∧ i = byteSize a ∧ Settled a ∧ ∀ c ∈ token, isInert c = true := by
  constructor
  · rintro ⟨hoccurs, houtside⟩
    rcases (mem_offsets_iff hne).1 ((mem_offsets_iff_bytes hne).2 hoccurs) with ⟨a, b, rfl, rfl⟩
    have hchar : ∀ t c t', token = t ++ c :: t' → Settled (a ++ t) ∧ isInert c = true := by
      rintro t c t' rfl
      have hpos := c.utf8Size_pos
      have hstart : byteSize a ≤ byteSize (a ++ t) := by
        rw [byteSize_append]
        omega
      have hend : byteSize (a ++ t) < byteSize a + byteSize (t ++ c :: t') := by
        rw [byteSize_append, byteSize_append, byteSize_cons]
        omega
      rcases houtside (byteSize (a ++ t)) hstart hend with
        ⟨a', d, b', hsplit, hle, hlt, hgrouped, hinert⟩
      have hsame : a ++ t ++ c :: (t' ++ b) = a' ++ d :: b' := by
        rw [← hsplit]
        simp
      rcases eq_of_char_at hsame hle hlt with ⟨rfl, rfl⟩
      exact ⟨hgrouped.settled, hinert⟩
    rcases List.exists_cons_of_ne_nil hne with ⟨first, more, hfirst⟩
    refine ⟨a, b, rfl, rfl, ?_, fun c hc => ?_⟩
    · simpa using (hchar [] first more hfirst).1
    · rcases List.append_of_mem hc with ⟨t, t', ht⟩
      exact (hchar t c t' ht).2
  · rintro ⟨a, b, rfl, rfl, ha, hinert⟩
    refine ⟨(mem_offsets_iff_bytes hne).1 ((mem_offsets_iff hne).2 ⟨a, b, rfl, rfl⟩), ?_⟩
    intro j hle hlt
    rcases exists_char_at (s := token) (j := j - byteSize a) (by omega) with
      ⟨t, c, t', rfl, hle', hlt'⟩
    have hbefore : Settled t := Settled.of_inert fun d hd => hinert d (List.mem_append_left _ hd)
    refine ⟨a ++ t, c, t' ++ b, by simp, ?_, ?_, grouped_of_settled (ha.append hbefore),
      hinert c (by simp)⟩
    · rw [byteSize_append]
      omega
    · rw [List.append_assoc, byteSize_append]
      omega

/-! ## What the mask shows -/

/-- What shows in the mask of a balanced text is a plain character. -/
theorem isInert_of_visible (hs : Balanced (a ++ c :: b))
    (h : (start.run a).encloses c = false) : isInert c = true := by
  have hrun := (settled_of_visible hs h).run
  rw [hrun] at h
  cases hinert : isInert c with
  | true => rfl
  | false =>
      rcases eq_of_not_inert hinert with rfl | rfl | rfl | rfl
      · cases h
      · cases h
      · cases h
      · -- a closing parenthesis would close nothing
        have hdips := (hs.right hrun).2
        simp [dips, Scan.dips, advance, start] at hdips

theorem maskGroups_around (ha : Settled a) (ht : ∀ c ∈ token, isInert c = true) (b : Text) :
    maskGroups (a ++ token ++ b) = maskGroups a ++ token ++ maskGroups b := by
  rw [maskGroups_append (ha.append (.of_inert ht)).run, maskGroups_append ha.run, maskGroups_inert ht]

theorem exists_of_maskGroups_eq (hs : Balanced s) (hne : token ≠ []) (hnul : '\x00' ∉ token)
    (h : maskGroups s = p ++ token ++ r) :
    ∃ a b, s = a ++ token ++ b ∧ maskGroups a = p ∧ maskGroups b = r ∧ Settled a ∧
      ∀ c ∈ token, isInert c = true := by
  rcases exists_of_mask_eq_append hnul hne h with ⟨a, b, rfl, hp, hvisible, hr⟩
  have ha : Settled a := by
    rw [List.append_assoc] at hs
    exact settled_of_visible hs hvisible
  have hinert : ∀ c ∈ token, isInert c = true := by
    intro c hc
    rcases List.append_of_mem hc with ⟨t, t', rfl⟩
    have hshown : maskGroups (a ++ (t ++ c :: t') ++ b) = p ++ t ++ c :: (t' ++ r) := by
      rw [h]
      simp
    rcases exists_of_mask_eq (fun hzero => hnul (hzero ▸ hc)) hshown with
      ⟨a', b', hsplit, -, hvisible', -⟩
    rw [hsplit] at hs
    exact isInert_of_visible hs hvisible'
  refine ⟨a, b, rfl, hp, ?_, ha, hinert⟩
  rwa [ha.run, run_inert hinert] at hr

theorem mem_offsets_maskGroups_iff (hs : Balanced s) (hne : token ≠ []) (hnul : '\x00' ∉ token) :
    i ∈ offsets token (maskGroups s) ↔ OccursOutside token i s := by
  rw [mem_offsets_iff hne, occursOutside_iff hne]
  constructor
  · rintro ⟨p, r, hmask, rfl⟩
    rcases exists_of_maskGroups_eq hs hne hnul hmask with ⟨a, b, rfl, rfl, -, ha, hinert⟩
    exact ⟨a, b, rfl, byteSize_mask _ _ _, ha, hinert⟩
  · rintro ⟨a, b, rfl, rfl, ha, hinert⟩
    exact ⟨maskGroups a, maskGroups b, maskGroups_around ha hinert b, (byteSize_mask _ _ _).symm⟩

/-! ## Whole words -/

theorem isWordChar_of_not_inert (h : isInert c = false) : isWordChar c = false := by
  rcases eq_of_not_inert h with rfl | rfl | rfl | rfl <;> decide

/-- Where nothing is open only quotes and parentheses are hidden, which belong to no word. -/
theorem isWordChar_of_hidden (h : start.encloses c = true) : isWordChar c = false := by
  cases hinert : isInert c with
  | true =>
      rw [encloses_inert hinert rfl (Int.le_refl 0)] at h
      cases h
  | false => exact isWordChar_of_not_inert hinert

/-- At its end a settled text continues a word just if its mask does. -/
theorem getLast?_maskGroups_any (ha : Settled a) :
    (maskGroups a).getLast?.any isWordChar = a.getLast?.any isWordChar := by
  rcases List.eq_nil_or_concat a with rfl | ⟨front, c, rfl⟩
  · rfl
  · rw [List.concat_eq_append] at ha ⊢
    have hmask : maskGroups (front ++ [c]) =
        maskGroups front ++ if (start.run front).encloses c then nuls c.utf8Size else [c] := by
      simp [maskGroups, mask_append, mask, nuls]
    rw [hmask, List.getLast?_concat]
    split
    case isTrue hhidden =>
      have hword : isWordChar c = false := by
        cases hinert : isInert c with
        | true =>
            -- a plain character changes no state, so nothing is open before it either
            have hrun : start.run front = start := by
              rw [← advance_inert hinert (start.run front), ← run_nil ((start.run front).advance c),
                ← run_cons, ← run_append, ha.run]
            rw [hrun] at hhidden
            exact isWordChar_of_hidden hhidden
        | false => exact isWordChar_of_not_inert hinert
      rw [getLast?_append_nuls c.utf8Size_pos, Option.any_some, Option.any_some, hword]
      decide
    case isFalse => rw [List.getLast?_concat]

/-- At its front any text continues a word just if its mask does. -/
theorem head?_maskGroups_any (b : Text) :
    (maskGroups b).head?.any isWordChar = b.head?.any isWordChar := by
  cases b with
  | nil => rfl
  | cons c b =>
      have hmask : maskGroups (c :: b) =
          (if start.encloses c then nuls c.utf8Size else [c]) ++ mask encloses (start.advance c) b := rfl
      rw [hmask]
      split
      case isTrue hhidden =>
        rw [head?_nuls_append c.utf8Size_pos, List.head?_cons, Option.any_some, Option.any_some,
          isWordChar_of_hidden hhidden]
        decide
      case isFalse => rfl

theorem mem_wordOffsets_maskGroups_iff (hs : Balanced s) (hne : token ≠ [])
    (hnul : '\x00' ∉ token) : i ∈ wordOffsets token (maskGroups s) ↔
      OccursOutside token i s ∧ WordBounded i (byteSize token) s := by
  rw [mem_wordOffsets_iff hne, occursOutside_iff hne]
  constructor
  · rintro ⟨p, r, hmask, rfl, hbefore, hafter⟩
    rcases exists_of_maskGroups_eq hs hne hnul hmask with ⟨a, b, rfl, rfl, rfl, ha, hinert⟩
    rw [getLast?_maskGroups_any ha] at hbefore
    rw [head?_maskGroups_any] at hafter
    rw [maskGroups, byteSize_mask]
    exact ⟨⟨a, b, rfl, rfl, ha, hinert⟩, wordBounded_iff.2 ⟨hbefore, hafter⟩⟩
  · rintro ⟨⟨a, b, rfl, rfl, ha, hinert⟩, hbounded⟩
    rcases wordBounded_iff.1 hbounded with ⟨hbefore, hafter⟩
    refine ⟨maskGroups a, maskGroups b, maskGroups_around ha hinert b, (byteSize_mask _ _ _).symm, ?_, ?_⟩
    · rwa [getLast?_maskGroups_any ha]
    · rwa [head?_maskGroups_any]

/-! ## The outcome of a search -/

theorem firstIndex?_eq_some_iff_isLeast (hs : Balanced s) (hne : token ≠ []) (hnul : '\x00' ∉ token) :
    firstIndex? token s = some i ↔ IsLeast {j | OccursOutside token j s} i := by
  rw [firstIndex?_eq, head?_offsets_eq_some_iff]
  simp only [mem_offsets_maskGroups_iff hs hne hnul]

theorem firstIndex?_eq_none_iff_forall (hs : Balanced s) (hne : token ≠ []) (hnul : '\x00' ∉ token) :
    firstIndex? token s = none ↔ ∀ j, ¬OccursOutside token j s := by
  rw [firstIndex?_eq, List.head?_eq_none_iff, List.eq_nil_iff_forall_not_mem]
  simp only [mem_offsets_maskGroups_iff hs hne hnul]

theorem lastWord?_eq_some_iff_isGreatest (hs : Balanced s) (hne : token ≠ []) (hnul : '\x00' ∉ token) :
    lastWord? token s = some i ↔
      IsGreatest {j | OccursOutside token j s ∧ WordBounded j (byteSize token) s} i := by
  rw [lastWord?_eq, getLast?_wordOffsets_eq_some_iff]
  simp only [mem_wordOffsets_maskGroups_iff hs hne hnul]

theorem lastWord?_eq_none_iff_forall (hs : Balanced s) (hne : token ≠ []) (hnul : '\x00' ∉ token) :
    lastWord? token s = none ↔
      ∀ j, ¬(OccursOutside token j s ∧ WordBounded j (byteSize token) s) := by
  rw [lastWord?_eq, List.getLast?_eq_none_iff, List.eq_nil_iff_forall_not_mem]
  simp only [mem_wordOffsets_maskGroups_iff hs hne hnul]

/-- The text is cut at byte `i` and behind the token there, between characters: both pieces are balanced, no
literal is open at the first cut, and the masks of the pieces make up that of the text. -/
structure Parted (s token : Text) (i : Nat) (a b : Text) : Prop where
  whole : s = a ++ token ++ b
  size : byteSize a = i
  sides : sidesOf i (byteSize token) s = (a, b)
  front : Balanced a
  closed : QuoteClosed a
  back : Balanced b
  masks : maskGroups s = maskGroups a ++ token ++ maskGroups b

theorem exists_parted (hs : Balanced s) (hne : token ≠ []) (h : OccursOutside token i s) :
    ∃ a b, Parted s token i a b := by
  rcases (occursOutside_iff hne).1 h with ⟨a, b, rfl, rfl, ha, hinert⟩
  have hfront : Settled (a ++ token) := ha.append (.of_inert hinert)
  exact ⟨a, b, rfl, rfl, sidesOf_byteSize a token b, ha.balanced, ha.quoteClosed, hs.right hfront.run,
    maskGroups_around ha hinert b⟩

/-- In a balanced text the search for a token finds the least byte at which it stands outside literals and
groups, and the search for a word the greatest one at which it does so as a whole word; each fails only if
there is none.  The text can be cut around what is found. -/
theorem indices_are_extreme (hs : Balanced s) (hne : token ≠ []) (hnul : '\x00' ∉ token) :
    (∀ i, firstIndex? token s = some i ↔ IsLeast {j | OccursOutside token j s} i) ∧
      (firstIndex? token s = none ↔ ∀ j, ¬OccursOutside token j s) ∧
      (∀ i, lastWord? token s = some i ↔
        IsGreatest {j | OccursOutside token j s ∧ WordBounded j (byteSize token) s} i) ∧
      (lastWord? token s = none ↔
        ∀ j, ¬(OccursOutside token j s ∧ WordBounded j (byteSize token) s)) ∧
      ∀ i, firstIndex? token s = some i ∨ lastWord? token s = some i →
        ∃ a b, Parted s token i a b := by
  refine ⟨fun i => firstIndex?_eq_some_iff_isLeast hs hne hnul, firstIndex?_eq_none_iff_forall hs hne hnul,
    fun i => lastWord?_eq_some_iff_isGreatest hs hne hnul, lastWord?_eq_none_iff_forall hs hne hnul, ?_⟩
  rintro i (hfirst | hlast)
  · exact exists_parted hs hne ((firstIndex?_eq_some_iff_isLeast hs hne hnul).1 hfirst).1
  · exact exists_parted hs hne ((lastWord?_eq_some_iff_isGreatest hs hne hnul).1 hlast).1.1

/-- Of five places of a word one is in a literal, one in a group and one in a longer word. -/
theorem indices_of_hidden_words :
    let s := "Größe = 'it''s OR (' OR (a OR b)OR c XOR d".toList
    let word := "OR".toList
    Balanced s ∧ word ≠ [] ∧ '\x00' ∉ word ∧ IsLeast {j | OccursOutside word j s} 23 ∧
      IsGreatest {j | OccursOutside word j s ∧ WordBounded j (byteSize word) s} 34 ∧
      ∃ a b, Parted s word 34 a b := by
  intro s word
  have hs : Balanced s := by decide
  have hne : word ≠ [] := by decide
  have hnul : '\x00' ∉ word := by decide
  have h := indices_are_extreme hs hne hnul
  have hlast : lastWord? word s = some 34 := by decide
  exact ⟨hs, hne, hnul, (h.1 23).1 (by decide), (h.2.2.1 34).1 hlast, h.2.2.2.2 34 (Or.inr hlast)⟩

end Expression
end RecordFilter
