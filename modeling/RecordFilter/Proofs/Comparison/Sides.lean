import RecordFilter.Proofs.Comparison.Names
import RecordFilter.Proofs.Comparison.Reading
import RecordFilter.Proofs.Comparison.Residue

/-!
# Sides — two texts with a relation between them

`relate r a b` is the text of a comparison.  If no relation stands in the sides outside literals and
groups, it is split between them, and what becomes of it is decided by the checks and by its sides
(`read_relate_of_sides`).  The check for unknown names adds up what it counts on the sides and the
relation itself (`residue_relate`), and the whole names a field if one of its sides does
(`namesField_relate`).
-/

namespace RecordFilter
namespace Comparison

open Text Expression

variable {schema : Schema} {a b w : Text} {c : Char} {r : Relation}

/-! ## The text of a comparison -/

/-- Two texts with a relation between them, and a space on either side of it. -/
def relate (r : Relation) (a b : Text) : Text := a ++ ' ' :: (r.symbol ++ ' ' :: b)

theorem mem_relate (h : c ∈ relate r a b) : c ∈ a ∨ c = ' ' ∨ c ∈ r.symbol ∨ c ∈ b := by
  rcases List.mem_append.1 h with h | h
  · exact Or.inl h
  · rcases List.mem_cons.1 h with h | h
    · exact Or.inr (Or.inl h)
    · rcases List.mem_append.1 h with h | h
      · exact Or.inr (Or.inr (Or.inl h))
      · rcases List.mem_cons.1 h with h | h
        · exact Or.inr (Or.inl h)
        · exact Or.inr (Or.inr (Or.inr h))

theorem settled_space : Settled [' '] := Settled.one rfl

theorem relate_eq (r : Relation) (a b : Text) :
    relate r a b = a ++ [' '] ++ r.symbol ++ ' ' :: b := by
  simp [relate]

theorem trim_sides (r : Relation) (a b : Text) :
    trim (a ++ r.symbol ++ b) = trimStart a ++ r.symbol ++ trimEnd b :=
  trim_between (symbol_ne_nil r) (by cases r <;> decide) a b

theorem trim_relate (ha : allBlank a = false) (hb : allBlank b = false) (r : Relation) :
    trim (relate r a b) = relate r (trimStart a) (trimEnd b) := by
  have hback : trimEnd (' ' :: b) = ' ' :: trimEnd b := trimEnd_append_of_not_allBlank [' '] hb
  rw [relate_eq, trim_sides, trimStart_append_of_not_allBlank ha, hback, relate_eq]

/-- No parentheses stand around a relation and its sides. -/
theorem tidy_sides (ha : Settled a) (hb : Settled b) (r : Relation) :
    tidy (a ++ r.symbol ++ b) = .ok (trim (a ++ r.symbol ++ b)) := by
  have hsymbol : Settled r.symbol := Settled.of_inert (isInert_of_mem_symbol r)
  refine tidy_of_unwrapped ((ha.append hsymbol).append hb).balanced ?_
  rw [trim_sides, List.append_assoc]
  by_cases hnil : trimStart a = []
  · -- the text begins with the relation
    rintro inner heq
    have hparen : '(' ∈ r.symbol := by
      obtain ⟨c, rest, hsymbol⟩ : ∃ c rest, r.symbol = c :: rest :=
        ⟨_, _, (List.cons_head_tail (symbol_ne_nil r)).symm⟩
      rw [hnil, hsymbol] at heq
      rw [hsymbol, (List.cons.inj heq).1]
      exact List.mem_cons_self
    exact absurd (isInert_of_mem_symbol r _ hparen) (by decide)
  · exact unwrapped_append ha.trimStart.balanced ha.trimStart.quoteClosed hnil
      (by simp [symbol_ne_nil r])

/-! ## The relation -/

/-- A mask goes piece by piece around a relation. -/
theorem mask_sides {hides : Scan → Char → Bool}
    (hvisible : ∀ c, isInert c = true → hides .start c = false) (ha : Settled a) (r : Relation)
    (b : Text) :
    mask hides .start (a ++ r.symbol ++ b) = mask hides .start a ++ r.symbol ++ mask hides .start b := by
  have hsymbol := isInert_of_mem_symbol r
  rw [mask_append, mask_append, Scan.run_append, ha.run, Scan.run_inert hsymbol,
    mask_of_visible hsymbol hvisible]

/-- No character of a relation stands in the text outside literals and groups. -/
def Unrelated (s : Text) : Prop := ∀ c ∈ "<=>".toList, c ∉ maskGroups s

theorem unrelated_of_not_mem (h : ∀ c ∈ "<=>".toList, c ∉ a) : Unrelated a := by
  intro c hc hmem
  rcases mem_mask hmem with rfl | hca
  · exact absurd hc (by decide)
  · exact h c hc hca

theorem Unrelated.append_space (ha : Settled a) (h : Unrelated a) : Unrelated (a ++ [' ']) := by
  have hspace : allBlank [' '] = true := rfl
  intro c hc hmem
  rw [maskGroups_append_blank ha.run hspace, List.mem_append, List.mem_singleton] at hmem
  rcases hmem with hmem | rfl
  · exact h c hc hmem
  · exact absurd hc (by decide)

theorem Unrelated.cons_space (h : Unrelated a) : Unrelated (' ' :: a) := by
  have hspace : allBlank [' '] = true := rfl
  have hmask : maskGroups (' ' :: a) = ' ' :: maskGroups a := maskGroups_blank_append hspace a
  intro c hc hmem
  rw [hmask, List.mem_cons] at hmem
  rcases hmem with rfl | hmem
  · exact absurd hc (by decide)
  · exact h c hc hmem

theorem Unrelated.trimStart (h : Unrelated a) : Unrelated (trimStart a) := by
  intro c hc hmem
  rcases exists_trimStart a with ⟨p, hp, heq⟩
  apply h c hc
  rw [heq, maskGroups_blank_append hp]
  exact List.mem_append_right _ hmem

theorem Unrelated.trimEnd (hs : Settled a) (h : Unrelated a) : Unrelated (trimEnd a) := by
  intro c hc hmem
  rcases exists_trimEnd a with ⟨q, hq, heq⟩
  apply h c hc
  rw [heq, maskGroups_append_blank hs.trimEnd.run hq]
  exact List.mem_append_left _ hmem

/-- Where no relation stands in the sides, the one between them is found. -/
theorem rootRelation?_sides (ha : Settled a) (hna : Unrelated a) (hnb : Unrelated b) (r : Relation) :
    rootRelation? (a ++ r.symbol ++ b) = some (byteSize a, r) := by
  have hclass : ∀ (r' : Relation), ∀ c ∈ r'.symbol, c ∈ "<=>".toList := by
    intro r'
    cases r' <;> decide
  have hmask : maskGroups (a ++ r.symbol ++ b) = maskGroups a ++ r.symbol ++ maskGroups b :=
    mask_sides (fun c hc => encloses_inert hc rfl (Int.le_refl 0)) ha r b
  -- each relation is found in the symbol of `r` or nowhere
  have hfound : ∀ r' : Relation, firstIndex? r'.symbol (a ++ r.symbol ++ b) =
      (offsets r'.symbol r.symbol).head?.map (byteSize a + ·) := by
    intro r'
    rw [firstIndex?_eq, hmask, offsets_between (symbol_ne_nil r')
      (fun c hc hmem => hna c (hclass r' c hmem) hc) (fun c hc hmem => hnb c (hclass r' c hmem) hc),
      List.head?_map, maskGroups, byteSize_mask]
  -- relations that hold the symbol of another one are searched for first
  unfold rootRelation?
  simp only [hfound, Relation.searchOrder, List.findSome?_cons, List.findSome?_nil]
  cases r <;> rfl

theorem split?_sides (ha : Settled a) (hna : Unrelated a) (hnb : Unrelated b) (r : Relation) :
    split? (a ++ r.symbol ++ b) = some (r, trim a, trim b) := by
  rw [split?, rootRelation?_sides ha hna hnb r, Option.map_some]
  simp only [sidesOf_byteSize]

/-! ## Quotes and names -/

/-- A field is named on one side of a gap. -/
theorem namesField_gap {g : Text} (hnames : schema.HasWordNames) (ha : Settled a) (hne : g ≠ [])
    (hgap : ∀ c ∈ g, isInert c = true ∧ isWordChar c = false) (b : Text) :
    namesField schema (a ++ g ++ b) = true ↔
      namesField schema a = true ∨ namesField schema b = true := by
  have hgapped : ∀ name ∈ schema.allowed,
      mentions name (a ++ g ++ b) = true ↔ mentions name a = true ∨ mentions name b = true :=
    fun name hname => mentions_gap_iff ha (hnames name (List.mem_cons_of_mem _ hname)) hne hgap b
  simp only [namesField, List.any_eq_true]
  constructor
  · rintro ⟨name, hname, hmentions⟩
    exact ((hgapped name hname).1 hmentions).imp (⟨name, hname, ·⟩) (⟨name, hname, ·⟩)
  · rintro (⟨name, hname, h⟩ | ⟨name, hname, h⟩)
    · exact ⟨name, hname, (hgapped name hname).2 (Or.inl h)⟩
    · exact ⟨name, hname, (hgapped name hname).2 (Or.inr h)⟩

theorem namesField_sides (hnames : schema.HasWordNames) (ha : Settled a) (r : Relation) (b : Text) :
    namesField schema (a ++ r.symbol ++ b) = true ↔
      namesField schema a = true ∨ namesField schema b = true :=
  namesField_gap hnames ha (symbol_ne_nil r) (by cases r <;> decide) b

theorem relate_eq_gap (r : Relation) (a b : Text) :
    relate r a b = a ++ (' ' :: (r.symbol ++ [' '])) ++ b := by
  simp [relate]

theorem gap_relate (r : Relation) :
    ∀ c ∈ ' ' :: (r.symbol ++ [' ']), isInert c = true ∧ isWordChar c = false := by
  cases r <;> decide

theorem namesField_relate (hnames : schema.HasWordNames) (ha : Settled a) (r : Relation) (b : Text) :
    namesField schema (relate r a b) = true ↔
      namesField schema a = true ∨ namesField schema b = true := by
  rw [relate_eq_gap]
  exact namesField_gap hnames ha (List.cons_ne_nil _ _) (gap_relate r) b

theorem mentions_relate_iff (ha : Settled a) (hw : IsWord w) (r : Relation) (b : Text) :
    mentions w (relate r a b) = true ↔ mentions w a = true ∨ mentions w b = true := by
  rw [relate_eq_gap]
  exact mentions_gap_iff ha hw (List.cons_ne_nil _ _) (gap_relate r) b

/-- Trimming hides no field. -/
theorem namesField_trim (hnames : schema.HasWordNames) (h : namesField schema a = true) :
    namesField schema (trim a) = true := by
  rcases List.any_eq_true.1 h with ⟨name, hname, hmentions⟩
  exact List.any_eq_true.2
    ⟨name, hname, mentions_trim (hnames name (List.mem_cons_of_mem _ hname)) hmentions⟩

/-! ## Characters outside parentheses -/

theorem atDepthZero_sides (ha : Settled a) (r : Relation) (b : Text) :
    atDepthZero .start (a ++ r.symbol ++ b) =
      atDepthZero .start a ++ r.symbol ++ atDepthZero .start b := by
  have hsymbol := isInert_of_mem_symbol r
  rw [atDepthZero_append, atDepthZero_append, Scan.run_append, ha.run, Scan.run_inert hsymbol,
    atDepthZero_inert hsymbol]

theorem atDepthZero_relate (ha : Settled a) (r : Relation) (b : Text) :
    atDepthZero .start (relate r a b) =
      atDepthZero .start a ++ ' ' :: (r.symbol ++ ' ' :: atDepthZero .start b) := by
  have hfront : atDepthZero .start (a ++ [' ']) = atDepthZero .start a ++ [' '] := by
    rw [atDepthZero_append, ha.run]
    rfl
  have hback : atDepthZero .start (' ' :: b) = ' ' :: atDepthZero .start b := rfl
  rw [relate_eq, atDepthZero_sides (ha.append settled_space), hfront, hback]
  simp

/-! ## Reading -/

/-- The reader on two settled texts with a relation right between them. -/
theorem read_sides (schema : Schema) (ha : Settled a) (hb : Settled b) (hna : Unrelated a)
    (hnb : Unrelated b) (r : Relation) :
    read schema (a ++ r.symbol ++ b) =
      if hasUnknownName schema (atDepthZero .start (trim (a ++ r.symbol ++ b))) then
        .error ⟨.unknownNames schema.allowed, trim (a ++ r.symbol ++ b)⟩
      else if !namesField schema (trim (a ++ r.symbol ++ b)) then
        .error ⟨.noKnownField schema.allowed, trim (a ++ r.symbol ++ b)⟩
      else readSides schema (trim (a ++ r.symbol ++ b)) r (trim a) (trim b) := by
  have htidy := tidy_sides ha hb r
  have hne : trim (a ++ r.symbol ++ b) ≠ [] := by
    rw [trim_sides]
    simp [symbol_ne_nil r]
  -- the relation itself stands outside parentheses
  have hvisible : allBlank (atDepthZero .start (trim (a ++ r.symbol ++ b))) = false := by
    have hsymbol : allBlank r.symbol = false := by
      cases r <;> decide
    rw [trim_sides, atDepthZero_sides ha.trimStart]
    simp [hsymbol]
  have hsplit : split? (trim (a ++ r.symbol ++ b)) = some (r, trim a, trim b) := by
    rw [trim_sides, split?_sides ha.trimStart hna.trimStart (hnb.trimEnd hb), trim_trimStart,
      trim_trimEnd]
  have hout := outermost_of_tidy (trim_trim _) (tidy_spec htidy).2.1 hvisible
  rw [read_of_tidy htidy hne hout, hsplit]

/-- The reader on two settled texts with a relation and spaces between them. -/
theorem read_relate_of_sides (schema : Schema) (ha : Settled a) (hb : Settled b) (hna : Unrelated a)
    (hnb : Unrelated b) (r : Relation) :
    read schema (relate r a b) =
      if hasUnknownName schema (atDepthZero .start (trim (relate r a b))) then
        .error ⟨.unknownNames schema.allowed, trim (relate r a b)⟩
      else if !namesField schema (trim (relate r a b)) then
        .error ⟨.noKnownField schema.allowed, trim (relate r a b)⟩
      else readSides schema (trim (relate r a b)) r (trim a) (trim b) := by
  have hleft : trim (a ++ [' ']) = trim a := trim_append_of_allBlank_right a rfl
  have hright : trim (' ' :: b) = trim b := trim_append_of_allBlank_left (a := [' ']) rfl b
  have hread := read_sides schema (ha.append settled_space) (settled_space.append hb)
    (hna.append_space ha) hnb.cons_space r
  rw [hleft, List.singleton_append, hright] at hread
  rw [relate_eq]
  exact hread

/-! ## The check for unknown names -/

/-- No name is cut out of a relation. -/
theorem residue_symbol (hnames : schema.HasWordNames) (r : Relation) :
    residue schema r.symbol = r.symbol := by
  have hsymbol : ∀ c ∈ r.symbol, (c.isAlphanum || c == '_') = false := by
    cases r <;> decide
  have hkept : withoutAll schema.allowed r.symbol = r.symbol :=
    withoutAll_eq_self fun name hname c hc hmem =>
      (hnames.not_mem (hsymbol c hmem)).2 name hname hc
  rw [residue_eq, hkept]
  cases r <;> decide

/-- The check adds up what it counts on both sides and the relation. -/
theorem residue_relate (hnames : schema.HasWordNames) (ha : Settled a)
    (hclosed : Closed schema (atDepthZero .start a)) (r : Relation) (b : Text) :
    residue schema (atDepthZero .start (trim (relate r a b))) =
      residue schema (atDepthZero .start a) ++ r.symbol ++ residue schema (atDepthZero .start b) := by
  have hspace : ∀ name ∈ schema.allowed, ' ' ∉ name := hnames.blank_not_mem rfl
  have hsymbol : Closed schema r.symbol := closed_of_no_quotes hspace (by cases r <;> decide)
  rw [residue_trim (fun _ hc => hnames.blank_not_mem hc), atDepthZero_relate ha, hclosed, hsymbol,
    residue_symbol hnames, List.append_assoc]

end Comparison
end RecordFilter
