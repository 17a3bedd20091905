import RecordFilter.Proofs.Comparison.Literals
import RecordFilter.Proofs.Condition.Connectives

/-!
# Literals — no literal acts as structure

Two texts that differ in one literal only are both read or both refused, and the two trees differ in
that literal only (`read_around_literal`).  No word, relation, parenthesis, quotation mark or field in
a literal acts as structure, whatever stands around it; only the number of its single quotes counts,
because the check for unknown names counts them.
-/

namespace RecordFilter
namespace Condition

open Text Expression Scan

variable {schema : Schema} {P S s x y raw raw' : Text} {op : Connective} {i : Nat}
  {a b c tree : Condition}

/-! ## The connective to split at -/

/-- A connective of a filled frame stands in front of the literal or behind it. -/
theorem stands_fill_iff (h : Framed P S) (x : Text) :
    Stands op i (fill P S x) ↔
      Stands op i P ∨ ∃ j ∈ wordOffsets op.keyword (mask encloses (start.run P) S),
        i = byteSize P + byteSize (Quoted.literal x) + j := by
  rw [Stands, maskGroups, wordOffsets_fill encloses_of_quotes h (keyword_ne_nil op)
    (nul_not_mem_keyword op), List.mem_append, List.mem_map]
  constructor
  · rintro (hfront | ⟨j, hj, rfl⟩)
    · exact Or.inl hfront
    · exact Or.inr ⟨j, hj, rfl⟩
  · rintro (hfront | ⟨j, hj, rfl⟩)
    · exact Or.inl hfront
    · exact Or.inr ⟨j, hj, rfl⟩

/-- A root in front of the literal is the root whatever the literal holds. -/
theorem rootConnective?_fill_front (h : Framed P S)
    (hroot : rootConnective? (fill P S x) = some (i, op)) (hfront : Stands op i P) (y : Text) :
    rootConnective? (fill P S y) = some (i, op) := by
  rcases rootConnective?_spec hroot with ⟨-, hlast⟩
  -- the root lies before the end of `P`, and all that stands behind the literal lies after it
  have hle : i ≤ byteSize P := by
    rcases exists_of_stands hfront with ⟨p, q, rfl, rfl⟩
    simp only [byteSize_append]
    omega
  refine rootConnective?_eq_some_iff.2 ⟨(stands_fill_iff h y).2 (Or.inl hfront), ?_⟩
  intro op' j hj
  rcases (stands_fill_iff h y).1 hj with hin | ⟨k, hk, rfl⟩
  · exact hlast op' j ((stands_fill_iff h x).2 (Or.inl hin))
  · -- what stands behind the literal binds tighter, since the root stands in front of it
    have hbehind := hlast op' _ ((stands_fill_iff h x).2 (Or.inr ⟨k, hk, rfl⟩))
    have hsize : byteSize (Quoted.literal x) ≠ 0 := by
      have hlen := length_le_byteSize (Quoted.literal x)
      simp only [Quoted.literal, List.cons_append, List.length_cons] at hlen ⊢
      omega
    refine ⟨fun hweak => ?_, fun hop => ?_⟩
    · have hlt := (hbehind.1 hweak).2
      omega
    · have hlt := hbehind.2 hop
      omega

/-- A root behind the literal moves with the size of the literal. -/
theorem rootConnective?_fill_back (h : Framed P S) {k : Nat}
    (hroot : rootConnective? (fill P S x) =
      some (byteSize P + byteSize (Quoted.literal x) + k, op))
    (hk : k ∈ wordOffsets op.keyword (mask encloses (start.run P) S)) (y : Text) :
    rootConnective? (fill P S y) = some (byteSize P + byteSize (Quoted.literal y) + k, op) := by
  rcases rootConnective?_spec hroot with ⟨-, hlast⟩
  refine rootConnective?_eq_some_iff.2 ⟨(stands_fill_iff h y).2 (Or.inr ⟨k, hk, rfl⟩), ?_⟩
  intro op' j hj
  -- whatever stands before the literal stands before the root, with `x` and with `y`
  rcases (stands_fill_iff h y).1 hj with hin | ⟨l, hl, rfl⟩
  · have hle : j ≤ byteSize P := by
      rcases exists_of_stands hin with ⟨p, q, rfl, rfl⟩
      simp only [byteSize_append]
      omega
    have hfront := hlast op' j ((stands_fill_iff h x).2 (Or.inl hin))
    exact ⟨fun hweak => ⟨(hfront.1 hweak).1, by omega⟩, fun _ => by omega⟩
  · have hbehind := hlast op' _ ((stands_fill_iff h x).2 (Or.inr ⟨l, hl, rfl⟩))
    refine ⟨fun hweak => ⟨(hbehind.1 hweak).1, ?_⟩, fun hop => ?_⟩
    · have hle := (hbehind.1 hweak).2
      omega
    · have hle := hbehind.2 hop
      omega

theorem split?_fill (h : Framed P S) :
    (∀ x, split? (fill P S x) = none) ∨
      ∃ op sides, Cuts op.keyword P S sides ∧ ∀ x, split? (fill P S x) = some (op, sides x) := by
  have hsplit : ∀ {x op i sides}, rootConnective? (fill P S x) = some (i, op) →
      sidesOf i (byteSize op.keyword) (fill P S x) = sides →
      split? (fill P S x) = some (op, sides) := by
    rintro x op i sides hroot rfl
    rw [split?, hroot]
    rfl
  -- the root is found with the empty literal, and moved to the others
  cases hroot : rootConnective? (fill P S []) with
  | none =>
      refine Or.inl fun x => split?_eq_none_iff.2 fun op i hi => ?_
      have hclear := rootConnective?_eq_none_iff.1 hroot
      rcases (stands_fill_iff h x).1 hi with hfront | ⟨j, hj, -⟩
      · exact hclear op i ((stands_fill_iff h []).2 (Or.inl hfront))
      · exact hclear op _ ((stands_fill_iff h []).2 (Or.inr ⟨j, hj, rfl⟩))
  | some found =>
      rcases found with ⟨i, op⟩
      have hne := keyword_ne_nil op
      have hnul := nul_not_mem_keyword op
      refine Or.inr ⟨op, ?_⟩
      rcases (stands_fill_iff h []).1 (rootConnective?_spec hroot).1 with hfront | ⟨k, hk, rfl⟩
      · rcases exists_cuts_front (isInert_of_mem_keyword op) hnul hne h
          (offsets_of_wordOffsets hfront) with ⟨sides, hcuts, hsides⟩
        exact ⟨sides, hcuts, fun x =>
          hsplit (rootConnective?_fill_front h hroot hfront x) (hsides x)⟩
      · rcases exists_cuts_back hnul hne h (offsets_of_wordOffsets hk) with ⟨sides, hcuts, hsides⟩
        exact ⟨sides, hcuts, fun x => hsplit (rootConnective?_fill_back h hroot hk x) (hsides x)⟩

/-! ## Truth values and negations -/

theorem truthOf?_fill (P S x : Text) : truthOf? (fill P S x) = none := by
  have hne : ∀ b, fill P S x ≠ truthWord b := by
    intro b heq
    have hmem := quote_mem_fill P S x
    rw [heq] at hmem
    cases b <;> exact absurd hmem (by decide)
  rw [truthOf?, if_neg (hne true), if_neg (hne false)]

theorem negated?_fill (h : Framed P S) :
    (∀ x, negated? (fill P S x) = none) ∨
      ∃ P', Framed P' S ∧ ∀ x, negated? (fill P S x) = some (fill P' S x) := by
  -- the quote of the literal is no letter of NOT, so NOT lies in `P` as a whole
  have hprefix : ∀ x, notKeyword.isPrefixOf (fill P S x) = notKeyword.isPrefixOf P := by
    intro x
    rw [fill_eq]
    exact isPrefixOf_append_cons (by decide) _ _
  cases hnot : notKeyword.isPrefixOf P with
  | false =>
      apply Or.inl
      intro x
      rw [negated?, hprefix, hnot]
      rfl
  | true =>
      rcases List.isPrefixOf_iff_prefix.1 hnot with ⟨P', rfl⟩
      have hframed : Framed P' S := h.right rfl
      have hdrop : ∀ x, (fill (notKeyword ++ P') S x).drop notKeyword.length = fill P' S x := by
        intro x
        rw [fill, List.append_assoc, List.append_assoc, List.drop_left, ← List.append_assoc]
        rfl
      cases hword : (P'.head?.or (some '\'')).any (fun c => c.isAlphanum || c == '_') with
      | true =>
          apply Or.inl
          intro x
          rw [negated?, hprefix, hnot, if_pos rfl, hdrop]
          simp only [head?_fill, hword]
          rfl
      | false =>
          refine Or.inr ⟨P', hframed, fun x => ?_⟩
          rw [negated?, hprefix, hnot, if_pos rfl, hdrop]
          simp only [head?_fill, hword]
          rfl

/-! ## The trees -/

/-- The trees have the same shape, connectives, relations, fields and numbers.  They differ in the
literal of one comparison, which is `x` in the first and `y` in the second, and in the texts that the
nodes above it were read from. -/
inductive Differs (x y : Text) : Condition → Condition → Prop where
  | comparison {raw raw' : Text} {r : Comparison.Relation} {swapped : Bool} {field : Text} :
      Differs x y (.comparison ⟨raw, r, swapped, .text field x⟩)
        (.comparison ⟨raw', r, swapped, .text field y⟩)
  | negation {a b : Condition} {raw raw' : Text} :
      Differs x y a b → Differs x y (.negation a raw) (.negation b raw')
  | left {op : Connective} {a b c : Condition} {raw raw' : Text} :
      Differs x y a b → Differs x y (.binary op a c raw) (.binary op b c raw')
  | right {op : Connective} {a b c : Condition} {raw raw' : Text} :
      Differs x y a b → Differs x y (.binary op c a raw) (.binary op c b raw')

/-- What is read around one literal is read around any other that has as many quotes. -/
theorem reads_fill (hnames : schema.HasWordNames) (h : Framed P S)
    (hcount : x.count '\'' = y.count '\'') (hreads : Reads schema s tree) (hs : s = fill P S x) :
    ∃ tree', Reads schema (fill P S y) tree' ∧ Differs x y tree tree' := by
  -- each rule is used on the same cut of the frame, so the derivation carries over rule by rule
  induction hreads generalizing P S with
  | truth htidy _ htruth =>
      subst hs
      rcases tidy_fill h htidy with ⟨P', S', -, rfl, -⟩
      rw [truthOf?_fill] at htruth
      cases htruth
  | @binary _ _ _ _ op a b htidy _ _ hsplit hleft hright ha hb iha ihb =>
      subst hs
      rcases tidy_fill h htidy with ⟨P', S', h', rfl, htidy'⟩
      rcases split?_fill h' with hnone | ⟨op', sides, hcuts, hsome⟩
      · rw [hnone] at hsplit
        cases hsplit
      · rw [hsome] at hsplit
        cases hcuts with
        | front _ hframed =>
            -- the connective stands before the literal, which is on its right side
            cases hsplit
            rcases ihb hframed rfl with ⟨b', hb', hdiffers⟩
            refine ⟨.binary op a b' (fill P' S' y), ?_, Differs.right hdiffers⟩
            exact Reads.binary (htidy' y) (fill_ne_nil _ _ _) (truthOf?_fill _ _ _) (hsome y) hleft
              (allBlank_fill _ _ _) ha hb'
        | back _ hframed =>
            cases hsplit
            rcases iha hframed rfl with ⟨a', ha', hdiffers⟩
            refine ⟨.binary op a' b (fill P' S' y), ?_, Differs.left hdiffers⟩
            exact Reads.binary (htidy' y) (fill_ne_nil _ _ _) (truthOf?_fill _ _ _) (hsome y)
              (allBlank_fill _ _ _) hright ha' hb
  | negation htidy _ _ hsplit hneg _ _ ih =>
      subst hs
      rcases tidy_fill h htidy with ⟨P', S', h', rfl, htidy'⟩
      rcases split?_fill h' with hnone | ⟨op', sides, -, hsome⟩
      · rcases negated?_fill h' with hnone' | ⟨P'', hframed, hsome'⟩
        · rw [hnone'] at hneg
          cases hneg
        · rw [hsome'] at hneg
          cases hneg
          rcases ih hframed rfl with ⟨child', hchild', hdiffers⟩
          refine ⟨.negation child' (fill P' S' y), ?_, Differs.negation hdiffers⟩
          exact Reads.negation (htidy' y) (fill_ne_nil _ _ _) (truthOf?_fill _ _ _) (hnone y)
            (hsome' y) (allBlank_fill _ _ _) hchild'
      · rw [hsome] at hsplit
        cases hsplit
  | comparison htidy _ _ hsplit hneg hc =>
      subst hs
      rcases tidy_fill h htidy with ⟨P', S', h', rfl, htidy'⟩
      rcases split?_fill h' with hnone | ⟨op', sides, -, hsome⟩
      · rcases negated?_fill h' with hnone' | ⟨P'', -, hsome'⟩
        · rcases Comparison.read_fill hnames h' hcount hc with
            ⟨raw, raw', r, swapped, field, rfl, hc'⟩
          refine ⟨.comparison ⟨raw', r, swapped, .text field y⟩, ?_, Differs.comparison⟩
          exact Reads.comparison (htidy' y) (fill_ne_nil _ _ _) (truthOf?_fill _ _ _) (hnone y)
            (hnone' y) hc'
        · rw [hsome'] at hneg
          cases hneg
      · rw [hsome] at hsplit
        cases hsplit

/-- Two filters that differ in one literal are both read or both refused, and the trees differ in that
literal only. -/
theorem read_around_literal (hnames : schema.HasWordNames) (hP : QuoteClosed P)
    (hlast : P.getLast? ≠ some '\'') (hfirst : S.head? ≠ some '\'')
    (hcount : x.count '\'' = y.count '\'') :
    (∃ a b, read schema (P ++ Quoted.literal x ++ S) = .ok a ∧
        read schema (P ++ Quoted.literal y ++ S) = .ok b ∧ Differs x y a b) ∨
      ∃ e e', read schema (P ++ Quoted.literal x ++ S) = .error e ∧
        read schema (P ++ Quoted.literal y ++ S) = .error e' := by
  have h : Framed P S := ⟨hP, hlast, hfirst⟩
  cases hx : read schema (P ++ Quoted.literal x ++ S) with
  | ok a =>
      rcases reads_fill hnames h hcount (read_sound hx) rfl with ⟨b, hb, hdiffers⟩
      exact Or.inl ⟨a, b, rfl, read_complete hb, hdiffers⟩
  | error e =>
      -- if the second text were read, the first would be too, by the same lemma
      cases hy : read schema (P ++ Quoted.literal y ++ S) with
      | error e' => exact Or.inr ⟨e, e', rfl, rfl⟩
      | ok b =>
          rcases reads_fill hnames h hcount.symm (read_sound hy) rfl with ⟨a, ha, -⟩
          have hread : read schema (P ++ Quoted.literal x ++ S) = .ok a := read_complete ha
          rw [hx] at hread
          cases hread

/-- The text of a condition in a literal stays a literal. -/
theorem read_around_injected_text :
    ∃ a b, read .default ("thing = ".toList ++ Quoted.literal "it's".toList ++ " ".toList) = .ok a ∧
      read .default ("thing = ".toList ++ Quoted.literal "' OR TRUE".toList ++ " ".toList) = .ok b ∧
      Differs "it's".toList "' OR TRUE".toList a b := by
  have htidy : ∀ s, Balanced s → trim s = "thing = 'it''s'".toList →
      tidy s = .ok "thing = 'it''s'".toList := by
    intro s hs htrim
    rw [tidy_of_balanced hs, unwrap_of_unwrapped, htrim]
    rw [htrim]
    rintro inner ⟨⟩
  have hfield : unwrap "thing".toList = "thing".toList :=
    unwrap_of_unwrapped (by rintro inner ⟨⟩)
  have hliteral : Comparison.readLiteral "thing = 'it''s'".toList "'it''s'".toList =
      .ok "it's".toList := rfl
  have hsides : ∃ c, Comparison.readSides .default "thing = 'it''s'".toList .eq "thing".toList
      "'it''s'".toList = .ok c := by
    have hnames : Comparison.namesField .default "thing".toList = true := by decide
    have hnumeric : mentions Schema.default.numeric "thing".toList = false := by decide
    have hallowed : Schema.default.isAllowed "thing".toList = true := by decide
    simp only [Comparison.readSides, Comparison.readOperands, hnames, hnumeric, hfield, hallowed,
      hliteral]
    exact ⟨_, rfl⟩
  have hread : ∃ a, read .default
      ("thing = ".toList ++ Quoted.literal "it's".toList ++ " ".toList) = .ok a := by
    rcases hsides with ⟨c, hc⟩
    have hsplit : Comparison.split? "thing = 'it''s'".toList =
        some (.eq, "thing".toList, "'it''s'".toList) := by decide
    have hcomparison : Comparison.read .default "thing = 'it''s'".toList = .ok c :=
      Comparison.read_eq_ok_iff.2 ⟨_, _, _, _, _, htidy _ (by decide) (by decide), by decide,
        Comparison.outermost_of_tidy (by decide) (by decide) (by decide), by decide, by decide,
        hsplit, hc⟩
    exact ⟨_, read_complete (Reads.comparison (htidy _ (by decide) (by decide)) (by decide)
      (by decide) (by decide) (by decide) hcomparison)⟩
  have hnames : Schema.default.HasWordNames := by decide
  rcases read_around_literal (P := "thing = ".toList) (S := " ".toList) (x := "it's".toList)
    (y := "' OR TRUE".toList) hnames (by decide) (by decide) (by decide) (by decide) with
    hboth | ⟨e, e', hrefused, -⟩
  · exact hboth
  · rcases hread with ⟨a, ha⟩
    rw [hrefused] at ha
    cases ha

end Condition
end RecordFilter
