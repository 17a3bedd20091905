import RecordFilter.Proofs.Arithmetic.Operands
import RecordFilter.Proofs.Comparison.Names
import RecordFilter.Proofs.Comparison.Reading
import RecordFilter.Proofs.Comparison.Residue
import RecordFilter.Proofs.Expression.Cutting

/-!
# Literals — comparisons around one literal

The reader of comparisons finds the relation, the field and the sides of a text in the same places
whatever a literal in it holds.  Only the check for unknown names looks at a literal at all: it counts
its quotes (`residue_fill`).
-/

namespace RecordFilter

namespace Comparison

open Text Expression Scan

variable {schema : Schema} {P S A u v x y raw : Text} {c : Char} {comparison : Comparison}
  {r : Relation}

/-! ## The relation -/

/-- The first relation of a list that occurs in a filled frame cuts it at the same place whatever the
literal holds. -/
theorem findSome?_fill (h : Framed P S) (rs : List Relation) :
    (∀ x, rs.findSome? (fun r => (firstIndex? r.symbol (fill P S x)).map (·, r)) = none) ∨
      ∃ r sides, Cuts r.symbol P S sides ∧ ∀ x, ∃ i,
        rs.findSome? (fun r => (firstIndex? r.symbol (fill P S x)).map (·, r)) = some (i, r) ∧
          sidesOf i (byteSize r.symbol) (fill P S x) = sides x := by
  induction rs with
  | nil => exact Or.inl fun _ => rfl
  | cons r rs ih =>
      have hne := symbol_ne_nil r
      have hnul := nul_not_mem_symbol r
      have hfirst : ∀ x, firstIndex? r.symbol (fill P S x) =
          (offsets r.symbol (maskGroups P)).head?.or
            ((offsets r.symbol (mask encloses (start.run P) S)).head?.map
              (byteSize P + byteSize (Quoted.literal x) + ·)) := by
        intro x
        rw [firstIndex?_eq, maskGroups, offsets_fill encloses_of_quotes h hne hnul,
          List.head?_append, List.head?_map]
        rfl
      -- the first occurrence is before the literal, behind it, or of a later relation of the list
      cases hfront : (offsets r.symbol (maskGroups P)).head? with
      | some i =>
          have hmem := List.mem_of_mem_head? hfront
          rcases exists_cuts_front (isInert_of_mem_symbol r) hnul hne h hmem with
            ⟨sides, hcuts, hsides⟩
          refine Or.inr ⟨r, sides, hcuts, fun x => ⟨i, ?_, hsides x⟩⟩
          rw [List.findSome?_cons, hfirst, hfront]
          rfl
      | none =>
          cases hback : (offsets r.symbol (mask encloses (start.run P) S)).head? with
          | some i =>
              have hmem := List.mem_of_mem_head? hback
              rcases exists_cuts_back hnul hne h hmem with ⟨sides, hcuts, hsides⟩
              refine Or.inr ⟨r, sides, hcuts, fun x => ⟨_, ?_, hsides x⟩⟩
              rw [List.findSome?_cons, hfirst, hfront, hback]
              rfl
          | none =>
              have hskip : ∀ x, (r :: rs).findSome?
                  (fun r => (firstIndex? r.symbol (fill P S x)).map (·, r)) =
                    rs.findSome? (fun r => (firstIndex? r.symbol (fill P S x)).map (·, r)) := by
                intro x
                rw [List.findSome?_cons, hfirst, hfront, hback]
                rfl
              simp only [hskip]
              exact ih

theorem split?_fill (h : Framed P S) :
    (∀ x, split? (fill P S x) = none) ∨
      ∃ r sides, Cuts r.symbol P S sides ∧
        ∀ x, split? (fill P S x) = some (r, trim (sides x).1, trim (sides x).2) := by
  rcases findSome?_fill h Relation.searchOrder with hnone | ⟨r, sides, hcuts, hsome⟩
  · apply Or.inl
    intro x
    rw [split?, rootRelation?, hnone]
    rfl
  · refine Or.inr ⟨r, sides, hcuts, fun x => ?_⟩
    rcases hsome x with ⟨i, hfound, hsides⟩
    rw [split?, rootRelation?, hfound, Option.map_some]
    simp only [hsides]

theorem namesField_fill (hnul : ∀ name ∈ schema.allowed, '\x00' ∉ name) (h : Framed P S)
    (x y : Text) : namesField schema (fill P S x) = namesField schema (fill P S y) := by
  rw [namesField, namesField, Bool.eq_iff_iff, List.any_eq_true, List.any_eq_true]
  constructor
  · rintro ⟨name, hname, hmentions⟩
    exact ⟨name, hname, (mentions_fill h (hnul name hname) x y) ▸ hmentions⟩
  · rintro ⟨name, hname, hmentions⟩
    exact ⟨name, hname, (mentions_fill h (hnul name hname) x y).symm ▸ hmentions⟩

/-! ## The check for unknown names -/

/-- Outside parentheses a literal counts as it stands. -/
theorem atDepthZero_literal (x : Text) : atDepthZero start (Quoted.literal x) = Quoted.literal x := by
  -- inside a literal no parenthesis counts, so the depth stays zero
  have hinner : ∀ x : Text, atDepthZero ⟨.single, 0⟩ (Quoted.encode x ++ ['\'']) =
      Quoted.encode x ++ ['\''] := by
    intro x
    induction x with
    | nil => rfl
    | cons c x ih =>
        by_cases hc : c = '\''
        · subst hc
          rw [Quoted.encode_quote]
          exact congrArg (fun t => '\'' :: '\'' :: t) ih
        · have hstay : (⟨.single, 0⟩ : Scan).advance c = ⟨.single, 0⟩ := by
            simp [advance, hc]
          rw [Quoted.encode_cons hc, List.cons_append, atDepthZero, hstay, ih]
          rfl
  exact congrArg ('\'' :: ·) (hinner x)

/-- If the parentheses of a tidy filled frame are closed before the literal, the check sees the
literal between what it sees of the frame. -/
theorem outermost_fill (hP : start.run P = start) (htrim : trim (fill P S x) = fill P S x)
    (hbalanced : Balanced (fill P S x)) :
    outermost (fill P S x) = .ok (fill (atDepthZero .start P) (atDepthZero .start S) x) := by
  have hzero : atDepthZero .start (fill P S x) =
      fill (atDepthZero .start P) (atDepthZero .start S) x := by
    calc
      atDepthZero .start (fill P S x) =
          atDepthZero .start P ++ atDepthZero (start.run P) (Quoted.literal x) ++
            atDepthZero (start.run (P ++ Quoted.literal x)) S := by
        rw [fill, atDepthZero_append, atDepthZero_append]
      _ = fill (atDepthZero .start P) (atDepthZero .start S) x := by
        rw [run_append, hP, atDepthZero_literal, run_literal rfl, fill]
  have hvisible : allBlank (atDepthZero .start (fill P S x)) = false := by
    rw [hzero, allBlank_fill]
  rw [outermost_of_tidy htrim hbalanced hvisible, hzero]

theorem outsideQuotes_open (s : Text) : outsideQuotes false ('\'' :: s) = outsideQuotes true s := rfl

/-- Of a literal only its quotes but the first one are outside quotes. -/
theorem outsideQuotes_withoutAll_encode {names : List Text} (hnames : ∀ name ∈ names, '\'' ∉ name)
    (x v : Text) :
    outsideQuotes true (withoutAll names (Quoted.encode x) ++ '\'' :: v) =
      List.replicate (x.count '\'' + 1) '\'' ++ outsideQuotes false v := by
  -- what stands inside quotes is passed over up to the quote that closes them
  have hskip : ∀ {w : Text} (t : Text), '\'' ∉ w →
      outsideQuotes true (w ++ '\'' :: t) = '\'' :: outsideQuotes false t := by
    intro w t hw
    induction w with
    | nil => rfl
    | cons c w ih =>
        have hc : c ≠ '\'' := fun hc => hw (hc ▸ List.mem_cons_self)
        rw [List.cons_append, outsideQuotes, if_neg hc, if_pos rfl]
        exact ih fun hmem => hw (List.mem_cons_of_mem _ hmem)
  induction hn : x.length using Nat.strongRecOn generalizing x with
  | ind n ih =>
      subst hn
      by_cases hquote : '\'' ∈ x
      · -- up to its first quote the text is its own encoded form
        rcases List.eq_append_cons_of_mem hquote with ⟨a, b, rfl, ha⟩
        have ha' : '\'' ∉ withoutAll names a := fun hmem => ha (mem_of_mem_withoutAll hmem)
        have hlen : b.length < (a ++ '\'' :: b).length := by
          simp only [List.length_append, List.length_cons]
          omega
        have hrest := ih b.length hlen b rfl
        have hempty := withoutAll_append_cons hnames [] (Quoted.encode b)
        rw [withoutAll_nil, List.nil_append, List.nil_append] at hempty
        rw [Quoted.encode_append, Quoted.encode_quote, Quoted.encode_of_no_quotes ha,
          withoutAll_append_cons hnames, hempty, List.append_assoc, List.cons_append, hskip _ ha',
          List.cons_append, outsideQuotes_open, hrest, List.count_append,
          List.count_eq_zero_of_not_mem ha, List.count_cons_self, Nat.zero_add]
        rfl
      · have hx' : '\'' ∉ withoutAll names x := fun hmem => hquote (mem_of_mem_withoutAll hmem)
        rw [Quoted.encode_of_no_quotes hquote, hskip _ hx', List.count_eq_zero_of_not_mem hquote]
        rfl

/-- The check counts the quotes of a literal and nothing else in it. -/
theorem residue_fill (hnames : ∀ name ∈ schema.allowed, '\'' ∉ name) (hu : '\'' ∉ u) (x : Text) :
    residue schema (fill u v x) =
      (withoutAll schema.allowed u ++ (List.replicate (x.count '\'' + 1) '\'' ++
        outsideQuotes false (withoutAll schema.allowed v))).filter counts := by
  have hu' : ∀ c ∈ withoutAll schema.allowed u, c ≠ '\'' := by
    rintro c hc rfl
    exact hu (mem_of_mem_withoutAll hc)
  have hliteral := outsideQuotes_withoutAll_encode hnames x (withoutAll schema.allowed v)
  calc
    residue schema (fill u v x) =
        (outsideQuotes false (withoutAll schema.allowed u ++
          '\'' :: (withoutAll schema.allowed (Quoted.encode x) ++
            '\'' :: withoutAll schema.allowed v))).filter counts := by
      rw [residue_eq, fill_eq, withoutAll_append_cons hnames, withoutAll_append_cons hnames]
    _ = (withoutAll schema.allowed u ++
          outsideQuotes true (withoutAll schema.allowed (Quoted.encode x) ++
            '\'' :: withoutAll schema.allowed v)).filter counts := by
      rw [outsideQuotes_append hu', outsideQuotes_open]
    _ = (withoutAll schema.allowed u ++ (List.replicate (x.count '\'' + 1) '\'' ++
          outsideQuotes false (withoutAll schema.allowed v))).filter counts := by
      rw [hliteral]

theorem hasUnknownName_fill (hnames : ∀ name ∈ schema.allowed, '\'' ∉ name) (hu : '\'' ∉ u)
    (hcount : x.count '\'' = y.count '\'') :
    hasUnknownName schema (fill u v x) = hasUnknownName schema (fill u v y) := by
  rw [hasUnknownName, hasUnknownName, residue_fill hnames hu, residue_fill hnames hu, hcount]

/-! ## The sides -/

theorem fill_nil (x : Text) : fill [] [] x = Quoted.literal x := List.append_nil _

/-- What holds a literal is not arithmetic. -/
theorem not_read_fill (hnames : schema.HasWordNames) {tree : Arithmetic} :
    Arithmetic.read schema (fill P S x) ≠ .ok tree := by
  intro hread
  -- the quote of the literal would have to be a character of arithmetic
  rcases Arithmetic.mem_of_reads (Arithmetic.read_sound hread) (quote_mem_fill P S x) with
    ⟨hname, -⟩ | hnumber | ⟨op, hop⟩ | hblank | hopen | hclose
  · exact (hnames.not_mem (by decide)).1 hname
  · cases hnumber
  · cases op <;> cases hop
  · cases hblank
  · cases hopen
  · cases hclose

/-- What holds a literal is not a bare field. -/
theorem isAllowed_unwrap_fill (hnames : schema.HasWordNames) (h : Framed P S) (x : Text) :
    schema.isAllowed (unwrap (fill P S x)) = false := by
  rcases unwrap_fill h with ⟨P', S', -, hunwrap⟩
  cases hallowed : schema.isAllowed (unwrap (fill P S x)) with
  | false => rfl
  | true =>
      rw [hunwrap] at hallowed
      have hmem := (hnames.not_mem (c := '\'') (by decide)).2 _ (List.contains_iff_mem.1 hallowed)
      exact absurd (quote_mem_fill P' S' x) hmem

theorem readLiteral_eq_ok_iff {s : Text} : readLiteral raw s = .ok x ↔ s = Quoted.literal x := by
  constructor
  · intro h
    unfold readLiteral at h
    split at h
    case h_1 => cases h
    case h_2 body hbody =>
      split at h
      case h_1 => cases h
      case h_2 z hdecode =>
        cases h
        rw [Quoted.body?_eq_some_iff.1 hbody, Quoted.decode_eq_some_iff.1 hdecode]
        rfl
  · rintro rfl
    rw [readLiteral, Quoted.body?_literal]
    simp only [Quoted.decode_encode]

theorem not_readOperands_fill_left (hnames : schema.HasWordNames) (h : Framed P S)
    {operands : Operands} : readOperands schema raw (fill P S x) A ≠ .ok operands := by
  intro hread
  unfold readOperands at hread
  split at hread
  case isTrue =>
    rcases bind_eq_ok_iff.1 hread with ⟨tree, harith, -⟩
    exact not_read_fill hnames harith
  case isFalse =>
    rw [isAllowed_unwrap_fill hnames h] at hread
    cases hread

/-- Beside a field a filled frame is read only if it is the literal alone. -/
theorem readOperands_fill_right (hnames : schema.HasWordNames) (h : Framed P S)
    {operands : Operands} (hread : readOperands schema raw A (fill P S x) = .ok operands) :
    P = [] ∧ S = [] ∧ '\'' ∉ A ∧ ∃ field, operands = .text field x ∧
      ∀ raw y, readOperands schema raw A (Quoted.literal y) = .ok (.text field y) := by
  unfold readOperands at hread ⊢
  split at hread
  case isTrue =>
    rcases bind_eq_ok_iff.1 hread with ⟨a, -, hrest⟩
    rcases bind_eq_ok_iff.1 hrest with ⟨b, hb, -⟩
    exact absurd hb (not_read_fill hnames)
  case isFalse hnumeric =>
    split at hread
    case isFalse => cases hread
    case isTrue hallowed =>
      have hA : '\'' ∉ A := by
        intro hmem
        have hname := (hnames.not_mem (c := '\'') (by decide)).2 _ (List.contains_iff_mem.1 hallowed)
        rcases mem_of_unwrap hmem with hin | hblank | hopen | hclose
        · exact hname hin
        · cases hblank
        · cases hopen
        · cases hclose
      rcases bind_eq_ok_iff.1 hread with ⟨z, hliteral, hoperands⟩
      cases hoperands
      rcases eq_of_fill_eq_literal h (readLiteral_eq_ok_iff.1 hliteral) with ⟨rfl, rfl, rfl⟩
      refine ⟨rfl, rfl, hA, unwrap A, rfl, fun raw y => ?_⟩
      rw [if_neg hnumeric, if_pos hallowed, readLiteral_eq_ok_iff.2 rfl]
      rfl

/-- With the literal on the right, the left side is the field. -/
theorem readSides_fill_right (hnames : schema.HasWordNames) (h : Framed P S)
    (hread : readSides schema raw r A (fill P S x) = .ok comparison) :
    P = [] ∧ S = [] ∧ '\'' ∉ A ∧ ∃ field, comparison = ⟨raw, r, false, .text field x⟩ ∧
      ∀ raw y, readSides schema raw r A (Quoted.literal y) = .ok ⟨raw, r, false, .text field y⟩ := by
  unfold readSides at hread
  split at hread
  case isTrue => cases hread
  case isFalse hempty =>
    have hA : A.isEmpty = false := by
      cases hA : A.isEmpty with
      | false => rfl
      | true => exact absurd (by rw [hA]; rfl) hempty
    split at hread
    case isTrue hfield =>
      rcases bind_eq_ok_iff.1 hread with ⟨operands, hoperands, hcomparison⟩
      cases hcomparison
      rcases readOperands_fill_right hnames h hoperands with ⟨rfl, rfl, hquote, field, rfl, hall⟩
      refine ⟨rfl, rfl, hquote, field, rfl, fun raw y => ?_⟩
      simp only [readSides, hA, hfield, hall]
      rfl
    case isFalse =>
      rcases bind_eq_ok_iff.1 hread with ⟨operands, hoperands, -⟩
      exact absurd hoperands (not_readOperands_fill_left hnames h)

/-- With the literal on the left, the right side is the field, and the sides are exchanged. -/
theorem readSides_fill_left (hnames : schema.HasWordNames) (h : Framed P S)
    (hread : readSides schema raw r (fill P S x) A = .ok comparison) :
    P = [] ∧ S = [] ∧ '\'' ∉ A ∧ ∃ field, comparison = ⟨raw, r, true, .text field x⟩ ∧
      ∀ raw y, readSides schema raw r (Quoted.literal y) A = .ok ⟨raw, r, true, .text field y⟩ := by
  unfold readSides at hread
  split at hread
  case isTrue => cases hread
  case isFalse hempty =>
    have hA : A.isEmpty = false := by
      cases hA : A.isEmpty with
      | false => rfl
      | true => exact absurd (by rw [hA, Bool.or_true]) hempty
    split at hread
    case isTrue =>
      rcases bind_eq_ok_iff.1 hread with ⟨operands, hoperands, -⟩
      exact absurd hoperands (not_readOperands_fill_left hnames h)
    case isFalse hfield =>
      rcases bind_eq_ok_iff.1 hread with ⟨operands, hoperands, hcomparison⟩
      cases hcomparison
      rcases readOperands_fill_right hnames h hoperands with ⟨rfl, rfl, hquote, field, rfl, hall⟩
      refine ⟨rfl, rfl, hquote, field, rfl, fun raw y => ?_⟩
      have hnul : ∀ name ∈ schema.allowed, '\x00' ∉ name := (hnames.not_mem (by decide)).2
      -- the literal names no field, whatever it holds
      have hunnamed : namesField schema (Quoted.literal y) = false := by
        rw [← fill_nil, ← namesField_fill hnul h x y]
        simpa using hfield
      simp only [readSides, hA, hunnamed, hall]
      rfl

/-- What is read from the sides of a filled frame is a field and the literal alone. -/
theorem readSides_cuts (hnames : schema.HasWordNames) (h : Framed P S) {sides : Text → Text × Text}
    (hbalanced : Balanced (fill P S x)) (hcuts : Cuts r.symbol P S sides)
    (hread : readSides schema raw r (trim (sides x).1) (trim (sides x).2) = .ok comparison) :
    start.run P = start ∧ '\'' ∉ P ∧ ∃ swapped field,
      comparison = ⟨raw, r, swapped, .text field x⟩ ∧
        ∀ raw y, readSides schema raw r (trim (sides y).1) (trim (sides y).2) =
          .ok ⟨raw, r, swapped, .text field y⟩ := by
  -- nothing but blanks stands beside the literal, on its own side of the relation
  have hquote : ∀ {t : Text}, allBlank t = true → '\'' ∉ t :=
    fun ht hmem => absurd (allBlank_iff.1 ht _ hmem) (by decide)
  cases hcuts with
  | @front P₁ P₂ hP hframed =>
      simp only [trim_fill] at hread ⊢
      rcases readSides_fill_right hnames hframed.trim hread with
        ⟨hfront, hback, hfield, field, rfl, hall⟩
      refine ⟨?_, ?_, false, field, rfl, ?_⟩
      · exact run_of_balanced_fill h hbalanced (allBlank_of_trimEnd_eq_nil hback)
      · subst hP
        intro hmem
        rcases List.mem_append.1 hmem with hmem | hmem
        · rcases List.mem_append.1 hmem with hmem | hmem
          · rcases mem_trim_or_isBlank hmem with htrim | hblank
            · exact hfield htrim
            · cases hblank
          · exact absurd (isInert_of_mem_symbol r _ hmem) (by decide)
        · exact hquote (allBlank_of_trimStart_eq_nil hfront) hmem
      · intro raw y
        rw [hfront, hback, fill_nil]
        exact hall raw y
  | @back S₁ S₂ hS hframed =>
      simp only [trim_fill] at hread ⊢
      rcases readSides_fill_left hnames hframed.trim hread with
        ⟨hfront, hback, hfield, field, rfl, hall⟩
      have hblank := allBlank_of_trimStart_eq_nil hfront
      refine ⟨run_blank hblank _, hquote hblank, true, field, rfl, ?_⟩
      intro raw y
      rw [hfront, hback, fill_nil]
      exact hall raw y

/-- A comparison that is read with one literal is read with any other that has as many quotes: the
same relation between the same field and the other literal. -/
theorem read_fill (hnames : schema.HasWordNames) (h : Framed P S)
    (hcount : x.count '\'' = y.count '\'') (hread : read schema (fill P S x) = .ok comparison) :
    ∃ raw raw' r swapped field, comparison = ⟨raw, r, swapped, .text field x⟩ ∧
      read schema (fill P S y) = .ok ⟨raw', r, swapped, .text field y⟩ := by
  rcases read_eq_ok_iff.1 hread with
    ⟨raw, outside, r, left, right, htidy, -, hout, hunknown, hfield, hsplit, hsides⟩
  rcases tidy_fill h htidy with ⟨P', S', h', rfl, hall⟩
  rcases split?_fill h' with hnone | ⟨r', sides, hcuts, hsome⟩
  · rw [hnone] at hsplit
    cases hsplit
  · rw [hsome] at hsplit
    cases hsplit
    rcases tidy_spec htidy with ⟨htrim, hbalanced, -⟩
    rcases tidy_spec (hall y) with ⟨htrim', hbalanced', -⟩
    rcases readSides_cuts hnames h' hbalanced hcuts hsides with
      ⟨hrun, hquote, swapped, field, rfl, hread'⟩
    have hquotes : ∀ name ∈ schema.allowed, '\'' ∉ name := (hnames.not_mem (by decide)).2
    have hnul : ∀ name ∈ schema.allowed, '\x00' ∉ name := (hnames.not_mem (by decide)).2
    -- no quote stands before the literal, so the check counts the same quotes for `x` and `y`
    have hvisible : '\'' ∉ atDepthZero .start P' := fun hmem => hquote (mem_of_mem_atDepthZero hmem)
    rw [outermost_fill hrun htrim hbalanced] at hout
    cases hout
    refine ⟨_, fill P' S' y, r, swapped, field, rfl, ?_⟩
    refine read_eq_ok_iff.2 ⟨_, _, r, _, _, hall y, fill_ne_nil _ _ _,
      outermost_fill hrun htrim' hbalanced', ?_, ?_, hsome y, hread' _ y⟩
    · rw [← hasUnknownName_fill hquotes hvisible hcount]
      exact hunknown
    · rw [namesField_fill hnul h' y x]
      exact hfield

end Comparison
end RecordFilter
