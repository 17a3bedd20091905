import RecordFilter.Proofs.Arithmetic.Precedence
import RecordFilter.Proofs.Comparison.Sides

/-!
# NumericSides — comparisons between two arithmetic expressions

Two balanced texts that are read as arithmetic, with a relation between them, are read as a numeric
comparison, unless the check for unknown names refuses them.  That check counts each sign, operator
and letter of a number outside parentheses, so it refuses long sums of known names and numbers
(`read_relation`).
-/

namespace RecordFilter
namespace Comparison

open Text Expression

variable {a b s w : Text} {c : Char} {r op : Relation} {tree left right : Arithmetic}

/-! ## The characters of arithmetic -/

/-- The characters of arithmetic over the default fields. -/
def isArithmeticChar (c : Char) : Bool :=
  "result".toList.contains c || Number.isNumberChar c || (Arithmetic.Operator.ofSymbol? c).isSome ||
    isBlank c || c == '(' || c == ')'

theorem identifier_numeric : Arithmetic.IsIdentifier Schema.default.numeric :=
  ⟨'r', "esult".toList, rfl, rfl, by decide⟩

theorem isArithmeticChar_of_read (h : Arithmetic.read .default s = .ok tree) (hc : c ∈ s) :
    isArithmeticChar c = true := by
  simp only [isArithmeticChar, Bool.or_eq_true, beq_iff_eq]
  rcases Arithmetic.mem_of_reads (Arithmetic.read_sound h) hc with
    ⟨hname, -⟩ | hnumber | ⟨op, rfl⟩ | hblank | hopen | hclose
  · exact Or.inl (Or.inl (Or.inl (Or.inl (Or.inl (List.contains_iff_mem.2 hname)))))
  · exact Or.inl (Or.inl (Or.inl (Or.inl (Or.inr hnumber))))
  · refine Or.inl (Or.inl (Or.inl (Or.inr ?_)))
    rw [Arithmetic.Operator.ofSymbol?_symbol]
    rfl
  · exact Or.inl (Or.inl (Or.inr hblank))
  · exact Or.inl (Or.inr hopen)
  · exact Or.inr hclose

/-- Arithmetic has no quotes, no relations, and not all letters of the other fields. -/
theorem not_mem_of_read (h : Arithmetic.read .default s = .ok tree)
    (hc : c ∈ "'\"<=>hqm".toList) : c ∉ s := by
  have hall : ∀ c ∈ "'\"<=>hqm".toList, isArithmeticChar c = false := by
    decide
  intro hmem
  have hchar := isArithmeticChar_of_read h hmem
  rw [hall c hc] at hchar
  cases hchar

theorem unrelated_of_read (h : Arithmetic.read .default s = .ok tree) : Unrelated s := by
  have hclass : ∀ c ∈ "<=>".toList, c ∈ "'\"<=>hqm".toList := by decide
  exact unrelated_of_not_mem fun c hc => not_mem_of_read h (hclass c hc)

theorem settled_of_read (hs : Balanced s) (h : Arithmetic.read .default s = .ok tree) : Settled s :=
  Arithmetic.settled_of_reads identifier_numeric hs (Arithmetic.read_sound h)

theorem notBlank_of_read (h : Arithmetic.read .default s = .ok tree) : allBlank s = false := by
  cases hblank : allBlank s with
  | false => rfl
  | true =>
      -- a blank text tidies as the empty one does, and that is refused
      rcases Arithmetic.exists_tidy_of_read h with ⟨raw, htidy, hne⟩
      have hnil : tidy [] = .ok [] := tidy_of_unwrapped (by decide) (by rintro inner ⟨⟩)
      have hempty : tidy s = tidy [] := tidy_congr (trim_of_allBlank hblank)
      rw [hempty, hnil] at htidy
      cases htidy
      exact absurd rfl hne

/-! ## Names -/

theorem no_quotes_of_read (h : Arithmetic.read .default s = .ok tree) :
    ∀ c ∈ s, c ≠ '\'' ∧ c ≠ '"' :=
  Arithmetic.not_quote_of_reads (by decide) (Arithmetic.read_sound h)

/-- Of the default fields arithmetic names the numeric one only. -/
theorem namesField_of_not_mem (h : ∀ c ∈ "hqm".toList, c ∉ s) :
    namesField .default s = mentions Schema.default.numeric s := by
  have hnone : ∀ name ∈ ["thing".toList, "quantity".toList, "time".toList],
      mentions name s = false := by
    intro name hname
    cases hmentions : mentions name s with
    | false => rfl
    | true =>
        exfalso
        -- each of the other names has a letter that the numeric field and numbers lack
        have hletter : ∃ c ∈ name, c ∈ "hqm".toList ∧ c ≠ '\x00' := by
          simp only [List.mem_cons, List.not_mem_nil, or_false] at hname
          rcases hname with rfl | rfl | rfl
          · exact ⟨'h', by decide, by decide, by decide⟩
          · exact ⟨'q', by decide, by decide, by decide⟩
          · exact ⟨'m', by decide, by decide, by decide⟩
        rcases hletter with ⟨c, hcn, hc, hnul⟩
        rcases mem_mask (mem_maskQuotes_of_mentions hmentions hcn) with hzero | hcs
        · exact hnul hzero
        · exact h c hc hcs
  have hthing := hnone "thing".toList (by decide)
  have hquantity := hnone "quantity".toList (by decide)
  have htime := hnone "time".toList (by decide)
  simp only [namesField, Schema.default, List.any_cons, List.any_nil, hthing, hquantity, htime,
    Bool.false_or, Bool.or_false]

/-! ## The check for unknown names -/

/-- How many characters outside parentheses are neither digits, points nor blanks, and not in the
name of the numeric field. -/
def leftover (s : Text) : Nat :=
  ((without Schema.default.numeric (atDepthZero .start s)).filter counts).length

/-- In arithmetic these are what the check counts. -/
theorem length_residue_of_read (h : Arithmetic.read .default s = .ok tree) :
    (residue .default (atDepthZero .start s)).length = leftover s := by
  have hnone : ∀ c ∈ "'hqm".toList, c ∉ atDepthZero .start s := by
    intro c hc hmem
    have hclass : ∀ c ∈ "'hqm".toList, c ∈ "'\"<=>hqm".toList := by decide
    exact not_mem_of_read h (hclass c hc) (mem_of_mem_atDepthZero hmem)
  -- of the known names only that of the numeric field can be cut out of arithmetic
  have hthing : without "thing".toList (atDepthZero .start s) = atDepthZero .start s :=
    without_eq_self (c := 'h') (by decide) (hnone 'h' (by decide))
  have hquantity : without "quantity".toList (atDepthZero .start s) = atDepthZero .start s :=
    without_eq_self (c := 'q') (by decide) (hnone 'q' (by decide))
  have htime : without "time".toList (without "result".toList (atDepthZero .start s)) =
      without "result".toList (atDepthZero .start s) :=
    without_eq_self (c := 'm') (by decide)
      (fun hmem => hnone 'm' (by decide) (mem_of_mem_withoutFrom hmem))
  have hnames : withoutAll Schema.default.allowed (atDepthZero .start s) =
      without "result".toList (atDepthZero .start s) := by
    simp only [withoutAll, Schema.default, List.foldl_cons, List.foldl_nil, hthing, hquantity, htime]
  have hquotes : ∀ c ∈ without "result".toList (atDepthZero .start s), c ≠ '\'' := by
    rintro c hc rfl
    exact hnone '\'' (by decide) (mem_of_mem_withoutFrom hc)
  rw [residue_eq, hnames, outsideQuotes_of_no_quotes hquotes]
  rfl

/-! ## Reading -/

/-- The side that names the numeric field is kept on the left. -/
theorem readSides_numeric (raw : Text) (r : Relation)
    (ha : Arithmetic.read .default a = .ok left) (hb : Arithmetic.read .default b = .ok right)
    (hfield : mentions Schema.default.numeric (trim a) = true ∨
      mentions Schema.default.numeric (trim b) = true) :
    readSides .default raw r (trim a) (trim b) =
      .ok (if mentions Schema.default.numeric (trim a) then ⟨raw, r, false, .numeric left right⟩
        else ⟨raw, r, true, .numeric right left⟩) := by
  have hempty : ∀ {t : Text} {tree : Arithmetic}, Arithmetic.read .default t = .ok tree →
      (trim t).isEmpty = false := by
    intro t tree ht
    have hblank := notBlank_of_read ht
    rw [← allBlank_trim] at hblank
    cases h : trim t with
    | nil =>
        rw [h] at hblank
        cases hblank
    | cons c rest => rfl
  have ha' : Arithmetic.read .default (trim a) = .ok left := by
    rw [← ha]
    exact Arithmetic.read_congr .default (trim_trim a)
  have hb' : Arithmetic.read .default (trim b) = .ok right := by
    rw [← hb]
    exact Arithmetic.read_congr .default (trim_trim b)
  have hnames : namesField .default (trim a) = mentions Schema.default.numeric (trim a) := by
    apply namesField_of_not_mem
    intro c hc
    have hclass : ∀ c ∈ "hqm".toList, c ∈ "'\"<=>hqm".toList := by decide
    exact not_mem_of_read ha' (hclass c hc)
  simp only [readSides, hempty ha, hempty hb, hnames, Bool.or_self]
  cases hleft : mentions Schema.default.numeric (trim a) with
  | true =>
      simp only [readOperands, hleft, ha', hb', bind, Except.bind]
      rfl
  | false =>
      have hright : mentions Schema.default.numeric (trim b) = true := by
        rcases hfield with h | h
        · rw [hleft] at h
          cases h
        · exact h
      simp only [readOperands, hright, ha', hb', bind, Except.bind]
      rfl

/-! ## The whole comparison -/

/-- The check counts what is left over of the two sides and the relation. -/
theorem hasUnknownName_relate (hsa : Balanced a) (ha : Arithmetic.read .default a = .ok left)
    (hb : Arithmetic.read .default b = .ok right) (r : Relation) :
    hasUnknownName .default (atDepthZero .start (trim (relate r a b))) =
      decide (3 < leftover a + r.symbol.length + leftover b) := by
  have hclosed : Closed .default (atDepthZero .start a) := by
    refine closed_of_no_quotes (by decide) fun c hc => ?_
    exact (no_quotes_of_read ha c (mem_of_mem_atDepthZero hc)).1
  rw [hasUnknownName, residue_relate Schema.hasWordNames_default (settled_of_read hsa ha) hclosed,
    List.length_append, List.length_append, length_residue_of_read ha, length_residue_of_read hb]

theorem namesField_relate_of_read (ha : Arithmetic.read .default a = .ok left)
    (hb : Arithmetic.read .default b = .ok right) (r : Relation) :
    namesField .default (trim (relate r a b)) =
      mentions Schema.default.numeric (trim (relate r a b)) := by
  apply namesField_of_not_mem
  intro c hc hmem
  have hclass : ∀ c ∈ "hqm".toList, c ∈ "'\"<=>hqm".toList ∧ c ≠ ' ' ∧ c ∉ r.symbol := by
    cases r <;> decide
  rcases hclass c hc with ⟨hc', hspace, hsymbol⟩
  rcases mem_relate (mem_of_mem_trim hmem) with h | h | h | h
  · exact not_mem_of_read ha hc' h
  · exact hspace h
  · exact hsymbol h
  · exact not_mem_of_read hb hc' h

/-- A field in a comparison stands in one of its sides, and still does when that side is trimmed. -/
theorem mentions_sides (hsa : Balanced a) (ha : Arithmetic.read .default a = .ok left)
    (hb : Arithmetic.read .default b = .ok right)
    (h : mentions Schema.default.numeric (trim (relate r a b)) = true) :
    mentions Schema.default.numeric (trim a) = true ∨
      mentions Schema.default.numeric (trim b) = true := by
  have hword := isWord_of_isIdentifier identifier_numeric
  have hsettled := (settled_of_read hsa ha).trimStart
  rw [trim_relate (notBlank_of_read ha) (notBlank_of_read hb),
    mentions_relate_iff hsettled hword] at h
  rcases h with h | h
  · have htrim := mentions_trim hword h
    rw [trim_trimStart] at htrim
    exact Or.inl htrim
  · have htrim := mentions_trim hword h
    rw [trim_trimEnd] at htrim
    exact Or.inr htrim

/-! ## Numeric comparisons -/

/-- The reader on two arithmetic texts with a relation between them. -/
theorem read_relate (hsa : Balanced a) (hsb : Balanced b)
    (ha : Arithmetic.read .default a = .ok left) (hb : Arithmetic.read .default b = .ok right)
    (r : Relation) :
    read .default (relate r a b) =
      if 3 < leftover a + r.symbol.length + leftover b then
        .error ⟨.unknownNames Schema.default.allowed, trim (relate r a b)⟩
      else if mentions Schema.default.numeric (trim (relate r a b)) then
        .ok (if mentions Schema.default.numeric (trim a) then
          ⟨trim (relate r a b), r, false, .numeric left right⟩
        else ⟨trim (relate r a b), r, true, .numeric right left⟩)
      else .error ⟨.noKnownField Schema.default.allowed, trim (relate r a b)⟩ := by
  -- the reader checks the names, looks for a field and reads the sides, in this order
  rw [read_relate_of_sides .default (settled_of_read hsa ha) (settled_of_read hsb hb)
    (unrelated_of_read ha) (unrelated_of_read hb), hasUnknownName_relate hsa ha hb,
    namesField_relate_of_read ha hb]
  cases hfield : mentions Schema.default.numeric (trim (relate r a b)) with
  | false => simp
  | true =>
      simp only [readSides_numeric _ r ha hb (mentions_sides hsa ha hb hfield), decide_eq_true_eq,
        Bool.not_true, if_true]
      rfl

/-- A field that one side names is named by the whole. -/
theorem mentions_trim_relate (hsa : Balanced a) (ha : Arithmetic.read .default a = .ok left)
    (r : Relation)
    (h : mentions Schema.default.numeric a = true ∨ mentions Schema.default.numeric b = true) :
    mentions Schema.default.numeric (trim (relate r a b)) = true := by
  have hword := isWord_of_isIdentifier identifier_numeric
  exact mentions_trim hword ((mentions_relate_iff (settled_of_read hsa ha) hword r b).2 h)

/-- Two arithmetic texts with a relation between them are a numeric comparison exactly if the check
finds at most three characters that it does not know, those of the relation included, and the whole
names the numeric field, as it does if one side names it. -/
theorem read_relation (hsa : Balanced a) (hsb : Balanced b)
    (ha : Arithmetic.read .default a = .ok left) (hb : Arithmetic.read .default b = .ok right)
    (r : Relation) :
    read .default (relate r a b) =
        (if 3 < leftover a + r.symbol.length + leftover b then
          .error ⟨.unknownNames Schema.default.allowed, trim (relate r a b)⟩
        else if mentions Schema.default.numeric (trim (relate r a b)) then
          .ok (if mentions Schema.default.numeric (trim a) then
            ⟨trim (relate r a b), r, false, .numeric left right⟩
          else ⟨trim (relate r a b), r, true, .numeric right left⟩)
        else .error ⟨.noKnownField Schema.default.allowed, trim (relate r a b)⟩) ∧
      (mentions Schema.default.numeric a = true ∨ mentions Schema.default.numeric b = true →
        mentions Schema.default.numeric (trim (relate r a b)) = true) := by
  refine ⟨?_, ?_⟩
  · exact read_relate hsa hsb ha hb r
  · exact mentions_trim_relate hsa ha r

/-- A number before the field: the sides are exchanged. -/
theorem read_number_less_than_field :
    ∃ x, Number.read? "2".toList = some x ∧
      read .default "2 < result".toList =
        .ok ⟨"2 < result".toList, .lt, true,
          .numeric (.field "result".toList) (.number "2".toList x)⟩ := by
  rcases (⟨_, rfl⟩ : ∃ x, Number.read? "2".toList = some x) with ⟨x, hx⟩
  refine ⟨x, hx, ?_⟩
  have hleaf : Arithmetic.readLeaf .default "2".toList = .ok (.number "2".toList x) := by
    have hnumeric : Schema.default.isNumeric "2".toList = false := by decide
    have hallowed : Schema.default.isAllowed "2".toList = false := by decide
    rw [Arithmetic.readLeaf, hnumeric, hallowed, hx]
    rfl
  have htwo : Arithmetic.read .default "2".toList = .ok (.number "2".toList x) :=
    Arithmetic.read_of_leaf (by decide) (Arithmetic.plain_number (Number.shape_of_read? hx)) hleaf
  have hresult : Arithmetic.read .default "result".toList = .ok (.field "result".toList) :=
    Arithmetic.read_of_leaf (by decide) (Arithmetic.plain_identifier identifier_numeric) rfl
  have hread := (read_relation (by decide) (by decide) htwo hresult .lt).1
  have hcount : ¬3 < leftover "2".toList + Relation.lt.symbol.length + leftover "result".toList := by
    decide
  have hfield : mentions Schema.default.numeric
      (trim (relate .lt "2".toList "result".toList)) = true := by
    decide
  have hleft : mentions Schema.default.numeric (trim "2".toList) = false := by decide
  rw [if_neg hcount, if_pos hfield, hleft] at hread
  exact hread

/-- A sum of four numbers, all of whose names are known, is refused for an unknown name. -/
theorem read_long_sum :
    Balanced "result".toList ∧ Balanced "1 + 2 + 3 + 4".toList ∧
      Arithmetic.read .default "result".toList = .ok (.field "result".toList) ∧
      (∃ tree, Arithmetic.read .default "1 + 2 + 3 + 4".toList = .ok tree) ∧
      mentions Schema.default.numeric "result".toList = true ∧
      read .default "result = 1 + 2 + 3 + 4".toList =
        .error ⟨.unknownNames Schema.default.allowed, "result = 1 + 2 + 3 + 4".toList⟩ := by
  have hresult : Arithmetic.read .default "result".toList = .ok (.field "result".toList) :=
    Arithmetic.read_of_leaf (by decide) (Arithmetic.plain_identifier identifier_numeric) rfl
  let plus : Link Arithmetic.Operator := ⟨[' '], .add, [' ']⟩
  let c : Chain Arithmetic.Operator Text := ⟨['1'], [(plus, ['2']), (plus, ['3']), (plus, ['4'])]⟩
  have hfits : Arithmetic.Fits .default c := by
    refine ⟨?_, ?_⟩
    · intro a ha
      simp only [c, Chain.items, List.map_cons, List.map_nil, List.mem_cons, List.not_mem_nil,
        or_false] at ha
      rcases ha with rfl | rfl | rfl | rfl
      · exact .number rfl (by decide)
      · exact .number rfl (by decide)
      · exact .number rfl (by decide)
      · exact .number rfl (by decide)
    · intro x hx
      simp only [c, List.mem_cons, List.not_mem_nil, or_false] at hx
      rcases hx with rfl | rfl | rfl
      · exact ⟨rfl, rfl, fun _ _ _ => by decide⟩
      · exact ⟨rfl, rfl, fun _ _ _ => by decide⟩
      · exact ⟨rfl, rfl, fun _ _ _ => by decide⟩
  have hsum : ∃ tree, Arithmetic.read .default "1 + 2 + 3 + 4".toList = .ok tree :=
    Arithmetic.exists_read_write identifier_numeric hfits
  refine ⟨by decide, by decide, hresult, hsum, by decide, ?_⟩
  rcases hsum with ⟨tree, hsum⟩
  have hread := read_relate (by decide) (by decide) hresult hsum .eq
  have hcount : 3 < leftover "result".toList + Relation.eq.symbol.length +
      leftover "1 + 2 + 3 + 4".toList := by
    decide
  rw [if_pos hcount] at hread
  exact hread

end Comparison
end RecordFilter
