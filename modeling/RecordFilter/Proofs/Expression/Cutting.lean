import RecordFilter.Proofs.Expression.Frame

/-!
# Cutting — where a text around one literal is cut

A literal shows as NUL characters in a mask, so what is searched for there stands in the text before
the literal or in the text behind it (`wordOffsets_fill`, `offsets_fill`).  A cut at such a place
leaves a frame on one side and a text without the literal on the other (`Cuts`), and it is the same
cut whatever the literal holds.
-/

namespace RecordFilter
namespace Expression

open Text Scan

variable {P S p r x name needle word : Text} {i : Nat} {hides : Scan → Char → Bool}

/-! ## Masks of a filled frame -/

theorem mask_fill (hh : ∀ q c, q.quotes c = true → hides q c = true) (h : Framed P S) (x : Text) :
    mask hides start (fill P S x) =
      mask hides start P ++ nuls (byteSize (Quoted.literal x)) ++ mask hides (start.run P) S := by
  calc
    mask hides start (fill P S x) =
        mask hides start P ++ mask hides (start.run P) (Quoted.literal x) ++
          mask hides (start.run (P ++ Quoted.literal x)) S := by
      rw [fill, mask_append, mask_append]
    _ = mask hides start P ++ nuls (byteSize (Quoted.literal x)) ++ mask hides (start.run P) S := by
      rw [mask_literal hh h.plain, run_append, run_literal h.plain]

theorem encloses_of_quotes (q : Scan) (c : Char) (h : q.quotes c = true) : q.encloses c = true := by
  simp [encloses, h]

theorem nuls_literal_ne_nil (x : Text) : nuls (byteSize (Quoted.literal x)) ≠ [] := by
  have hsize : byteSize (Quoted.literal x) ≠ 0 := by
    have hlen := length_le_byteSize (Quoted.literal x)
    simp only [Quoted.literal, List.cons_append, List.length_cons] at hlen ⊢
    omega
  simpa [nuls] using hsize

/-- Where a word stands in a mask of a filled frame: in front of the literal, or behind it. -/
theorem wordOffsets_fill (hh : ∀ q c, q.quotes c = true → hides q c = true) (h : Framed P S)
    (hw : word ≠ []) (hnul : '\x00' ∉ word) (x : Text) :
    wordOffsets word (mask hides start (fill P S x)) =
      wordOffsets word (mask hides start P) ++
        (wordOffsets word (mask hides (start.run P) S)).map
          (byteSize P + byteSize (Quoted.literal x) + ·) := by
  -- hidden bytes are no part of a word, so they separate what stands on either side
  have hgap : Separates word (nuls (byteSize (Quoted.literal x))) := by
    intro c hc
    rw [List.eq_of_mem_replicate hc]
    exact ⟨hnul, rfl⟩
  rw [mask_fill hh h, wordOffsets_append_gap hw hgap (nuls_literal_ne_nil x), byteSize_mask,
    byteSize_nuls]

theorem offsets_fill (hh : ∀ q c, q.quotes c = true → hides q c = true) (h : Framed P S)
    (hn : needle ≠ []) (hnul : '\x00' ∉ needle) (x : Text) :
    offsets needle (mask hides start (fill P S x)) =
      offsets needle (mask hides start P) ++
        (offsets needle (mask hides (start.run P) S)).map
          (byteSize P + byteSize (Quoted.literal x) + ·) := by
  have hgap : ∀ c ∈ nuls (byteSize (Quoted.literal x)), c ∉ needle := by
    intro c hc
    rw [List.eq_of_mem_replicate hc]
    exact hnul
  rw [mask_fill hh h, offsets_append_gap hn hgap (nuls_literal_ne_nil x), byteSize_mask,
    byteSize_nuls]

/-- A field that is named in a filled frame is named outside the literal. -/
theorem mentions_fill (h : Framed P S) (hnul : '\x00' ∉ name) (x y : Text) :
    mentions name (fill P S x) = mentions name (fill P S y) := by
  by_cases hname : name = []
  · subst hname
    rfl
  · have hiff : ∀ z, mentions name (fill P S z) = true ↔
        wordOffsets name (maskQuotes P) ≠ [] ∨
          wordOffsets name (mask Scan.quotes (start.run P) S) ≠ [] := by
      intro z
      rw [mentions_iff, maskQuotes, wordOffsets_fill (fun _ _ hc => hc) h hname hnul, ne_eq,
        List.append_eq_nil_iff, List.map_eq_nil_iff, Classical.not_and_iff_not_or_not, maskQuotes]
    rw [Bool.eq_iff_iff, hiff x, hiff y]

/-! ## The same cut at every literal -/

/-- The two sides of `word` in a filled frame, as functions of the literal. -/
inductive Cuts (word P S : Text) : (Text → Text × Text) → Prop where
  | front {P₁ P₂ : Text} : P = P₁ ++ word ++ P₂ → Framed P₂ S →
      Cuts word P S fun x => (P₁, fill P₂ S x)
  | back {S₁ S₂ : Text} : S = S₁ ++ word ++ S₂ → Framed P S₁ →
      Cuts word P S fun x => (fill P S₁ x, S₂)

theorem exists_cuts_front (hw : ∀ c ∈ word, isInert c = true) (hnul : '\x00' ∉ word)
    (hne : word ≠ []) (h : Framed P S) (hi : i ∈ offsets word (maskGroups P)) :
    ∃ sides, Cuts word P S sides ∧
      ∀ x, sidesOf i (byteSize word) (fill P S x) = sides x := by
  rcases (mem_offsets_iff hne).1 hi with ⟨p, r, hmask, rfl⟩
  -- the word is visible, so the text behind it begins outside literals
  rcases exists_of_mask_eq_append hnul hne hmask with ⟨P₁, P₂, rfl, rfl, hvisible, -⟩
  have hplain : (start.run (P₁ ++ word)).zone = .plain := by
    rw [run_append, run_inert hw]
    exact zone_of_visible hvisible
  refine ⟨_, Cuts.front rfl (h.right hplain), fun x => ?_⟩
  have hfill : fill (P₁ ++ word ++ P₂) S x = P₁ ++ word ++ fill P₂ S x := by
    simp [fill]
  rw [byteSize_mask, hfill, sidesOf_byteSize]

theorem exists_cuts_back (hnul : '\x00' ∉ word) (hne : word ≠ []) (h : Framed P S)
    (hi : i ∈ offsets word (mask encloses (start.run P) S)) :
    ∃ sides, Cuts word P S sides ∧
      ∀ x, sidesOf (byteSize P + byteSize (Quoted.literal x) + i) (byteSize word) (fill P S x) =
        sides x := by
  rcases (mem_offsets_iff hne).1 hi with ⟨p, r, hmask, rfl⟩
  rcases exists_of_mask_eq_append hnul hne hmask with ⟨S₁, S₂, rfl, rfl, -, -⟩
  rw [List.append_assoc] at h
  refine ⟨_, Cuts.back rfl h.left, fun x => ?_⟩
  have hsize : byteSize P + byteSize (Quoted.literal x) + byteSize S₁ = byteSize (fill P S₁ x) := by
    simp [fill, Nat.add_assoc]
  have hfill : fill P (S₁ ++ word ++ S₂) x = fill P S₁ x ++ word ++ S₂ := by
    simp [fill]
  rw [byteSize_mask, hsize, hfill, sidesOf_byteSize]

theorem offsets_of_wordOffsets (h : i ∈ wordOffsets word x) : i ∈ offsets word x := by
  rcases List.mem_map.1 h with ⟨o, ho, rfl⟩
  exact List.mem_map_of_mem (List.mem_filter.1 ho).1

end Expression
end RecordFilter
