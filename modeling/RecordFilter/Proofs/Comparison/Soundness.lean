import Mathlib.Data.List.Basic
import RecordFilter.Proofs.Comparison.Fields
import RecordFilter.Proofs.Comparison.NumericSides
import RecordFilter.Proofs.Comparison.Operands

/-!
# Soundness — what a comparison over the default fields can be

The reader finds its relation by a fixed order of search and not by position, chooses the kind of
comparison by a word search, and its check for unknown names is lax.  Still, what it accepts has one
relation outside literals, in parentheses or not, between a bare field and one literal or between two
arithmetic expressions of which the kept left one reads the numeric field (`read_comparison`).
-/

namespace RecordFilter

open Text Expression

/-! ## Leaves -/

namespace Arithmetic

/-- Every leaf is a number as it is written, or the field of this name. -/
def LeavesFrom (name : Text) : Arithmetic → Prop
  | .number raw x => Number.read? raw = some x
  | .field f => f = name
  | .binary _ left right _ => left.LeavesFrom name ∧ right.LeavesFrom name

variable {schema : Schema} {s : Text} {tree : Arithmetic}

theorem leavesFrom_of_readLeaf (h : readLeaf schema s = .ok tree) : tree.LeavesFrom schema.numeric := by
  unfold readLeaf at h
  split at h
  case isTrue hnumeric =>
    cases h
    have heq : schema.numeric = s := eq_of_beq hnumeric
    exact heq.symm
  case isFalse =>
    split at h
    case isTrue => cases h
    case isFalse =>
      split at h
      case h_1 x hx =>
        cases h
        exact hx
      case h_2 => cases h

theorem leavesFrom_of_reads (h : Reads schema s tree) : tree.LeavesFrom schema.numeric := by
  induction h with
  | leaf _ _ _ hleaf => exact leavesFrom_of_readLeaf hleaf
  | binary _ _ _ _ _ _ _ iha ihb => exact ⟨iha, ihb⟩

end Arithmetic

namespace Comparison

variable {a b s t front other w raw : Text} {c : Char} {r : Relation} {tree : Arithmetic}
  {operands : Operands} {comparison : Comparison} {hides : Scan → Char → Bool}

/-! ## The relations in a text -/

/-- The relations in a text with their offsets, from left to right and each as long as it can be.  The
first `skip` characters belong to a relation already found. -/
def relationsFrom : Nat → Nat → Text → List (Nat × Relation)
  | _, _, [] => []
  | skip + 1, offset, c :: rest => relationsFrom skip (offset + c.utf8Size) rest
  | 0, offset, c :: rest =>
      match Relation.searchOrder.find? fun r => r.symbol.isPrefixOf (c :: rest) with
      | some r => (offset, r) :: relationsFrom (r.symbol.length - 1) (offset + c.utf8Size) rest
      | none => relationsFrom 0 (offset + c.utf8Size) rest

/-- The relations that a mask shows. -/
def relations (hides : Scan → Char → Bool) (s : Text) : List (Nat × Relation) :=
  relationsFrom 0 0 (mask hides .start s)

/-- A text without the characters of relations. -/
def Relationless (s : Text) : Prop := ∀ c ∈ "<=>".toList, c ∉ s

theorem Relationless.tail (h : Relationless (c :: s)) : Relationless s :=
  fun d hd hmem => h d hd (List.mem_cons_of_mem _ hmem)

theorem Relationless.mask (h : Relationless s) (hides : Scan → Char → Bool) (q : Scan) :
    Relationless (mask hides q s) := by
  intro c hc hmem
  rcases mem_mask hmem with rfl | hs
  · exact absurd hc (by decide)
  · exact h c hc hs

theorem find?_of_not_mem (hc : c ∉ "<=>".toList) (s : Text) :
    Relation.searchOrder.find? (fun r => r.symbol.isPrefixOf (c :: s)) = none := by
  rw [List.find?_eq_none]
  intro r _ hstarts
  have hfirst : ∃ d rest, r.symbol = d :: rest ∧ d ∈ "<=>".toList := by
    cases r <;> exact ⟨_, _, rfl, by decide⟩
  rcases hfirst with ⟨d, rest, hsymbol, hd⟩
  rw [hsymbol, List.isPrefixOf_iff_prefix, List.cons_prefix_cons] at hstarts
  exact hc (hstarts.1 ▸ hd)

/-- A symbol that no other symbol goes on from is read as it was written. -/
theorem find?_symbol (hb : Relationless b) (r : Relation) :
    Relation.searchOrder.find? (fun r' => r'.symbol.isPrefixOf (r.symbol ++ b)) = some r := by
  have hnot : ∀ d ∈ "<=>".toList, [d].isPrefixOf b = false := by
    intro d hd
    cases b with
    | nil => rfl
    | cons c b =>
        have hne : d ≠ c := fun heq => hb d hd (heq ▸ List.mem_cons_self)
        simp [List.isPrefixOf, hne]
  -- `<` and `>` begin longer symbols, but neither `=` nor `>` follows
  have heq := hnot '=' (by decide)
  have hgt := hnot '>' (by decide)
  cases r <;>
    simp [Relation.searchOrder, Relation.symbol, List.find?_cons, List.isPrefixOf] <;> simp_all

theorem relationsFrom_append (ha : Relationless a) (offset : Nat) (t : Text) :
    relationsFrom 0 offset (a ++ t) = relationsFrom 0 (offset + byteSize a) t := by
  induction a generalizing offset with
  | nil => rfl
  | cons c a ih =>
      have hc : c ∉ "<=>".toList := fun hc => ha c hc List.mem_cons_self
      rw [List.cons_append, relationsFrom, find?_of_not_mem hc]
      simp only [ih ha.tail, byteSize_cons, Nat.add_assoc]

theorem relationsFrom_relationless (ha : Relationless a) (offset : Nat) :
    relationsFrom 0 offset a = [] := by
  rw [← List.append_nil a, relationsFrom_append ha]
  rfl

theorem relationsFrom_skip (a : Text) (offset : Nat) (b : Text) :
    relationsFrom a.length offset (a ++ b) = relationsFrom 0 (offset + byteSize a) b := by
  induction a generalizing offset with
  | nil => rfl
  | cons c a ih =>
      rw [List.length_cons, List.cons_append, relationsFrom, ih, byteSize_cons, Nat.add_assoc]

theorem relationsFrom_symbol (hb : Relationless b) (r : Relation) (offset : Nat) :
    relationsFrom 0 offset (r.symbol ++ b) = [(offset, r)] := by
  have hfind := find?_symbol hb r
  obtain ⟨d, rest, hsymbol⟩ : ∃ d rest, r.symbol = d :: rest :=
    ⟨_, _, (List.cons_head_tail (symbol_ne_nil r)).symm⟩
  rw [hsymbol, List.cons_append] at hfind ⊢
  rw [relationsFrom, hfind]
  simp only [hsymbol, List.length_cons, Nat.add_sub_cancel, relationsFrom_skip,
    relationsFrom_relationless hb]

/-- One relation stands between two sides without any. -/
theorem relations_of_sides (hvisible : ∀ c, isInert c = true → hides .start c = false)
    (hsettled : Settled a) (ha : Relationless (mask hides .start a))
    (hb : Relationless (mask hides .start b)) (r : Relation) :
    relations hides (a ++ r.symbol ++ b) = [(byteSize a, r)] := by
  rw [relations, mask_sides hvisible hsettled, List.append_assoc, relationsFrom_append ha,
    relationsFrom_symbol hb, byteSize_mask, Nat.zero_add]

/-! ## Sides -/

/-- What a mask shows of a text is a blank at an end, or shown of the trimmed text. -/
theorem mem_mask_trim (h : c ∈ mask hides .start s) :
    c = '\x00' ∨ isBlank c = true ∨ c ∈ mask hides .start (trim s) := by
  rcases exists_trim s with ⟨p, q, hp, hq, hs⟩
  generalize trim s = t at hs ⊢
  subst hs
  rw [mask_append, mask_append, Scan.run_append, Scan.run_blank hp] at h
  have hblank : ∀ {w : Text} {q : Scan}, allBlank w = true → c ∈ mask hides q w →
      c = '\x00' ∨ isBlank c = true := fun hw hc => (mem_mask hc).imp_right (allBlank_iff.1 hw c)
  rcases List.mem_append.1 h with h | h
  · rcases List.mem_append.1 h with h | h
    · exact (hblank hp h).imp_right Or.inl
    · exact Or.inr (Or.inr h)
  · exact (hblank hq h).imp_right Or.inl

theorem relationless_of_trim (h : Relationless (mask hides .start (trim s))) :
    Relationless (mask hides .start s) := by
  intro c hc hmem
  rcases mem_mask_trim hmem with rfl | hblank | htrim
  · exact absurd hc (by decide)
  · have hvisible : ∀ c ∈ "<=>".toList, isBlank c = false := by decide
    rw [hvisible c hc] at hblank
    cases hblank
  · exact h c hc htrim

/-- Neither a field, nor a literal, nor arithmetic shows a relation. -/
theorem Paired.relationless (hh : ∀ q c, q.quotes c = true → hides q c = true)
    (h : Paired .default front other operands) :
    Relationless (mask hides .start front) ∧ Relationless (mask hides .start other) := by
  cases h with
  | numeric _ ha hb =>
      have harithmetic : ∀ {t : Text} {tree : Arithmetic}, Arithmetic.read .default t = .ok tree →
          Relationless t := by
        intro t tree hread c hc
        have hclass : ∀ c ∈ "<=>".toList, c ∈ "'\"<=>hqm".toList := by decide
        exact not_mem_of_read hread (hclass c hc)
      exact ⟨(harithmetic ha).mask hides _, (harithmetic hb).mask hides _⟩
  | @text x _ hallowed hliteral =>
      have hfield : Relationless front := by
        intro c hc hmem
        have hclass : ∀ c ∈ "<=>".toList, (c.isAlphanum || c == '_') = false ∧ isBlank c = false ∧
            c ≠ '(' ∧ c ≠ ')' := by decide
        rcases hclass c hc with ⟨hword, hblank, hopen, hclose⟩
        rcases mem_of_unwrap hmem with hname | hblank' | rfl | rfl
        · exact (Schema.hasWordNames_default.not_mem hword).2 _ hallowed hname
        · rw [hblank] at hblank'
          cases hblank'
        · exact hopen rfl
        · exact hclose rfl
      refine ⟨hfield.mask hides _, ?_⟩
      intro c hc hmem
      rw [hliteral, mask_literal hh rfl] at hmem
      rw [List.eq_of_mem_replicate hmem] at hc
      exact absurd hc (by decide)

/-! ## Names -/

variable {schema : Schema}

theorem namesField_of_literal (hnames : schema.HasWordNames) {x : Text} (h : trim s = Quoted.literal x) :
    namesField schema s = false := by
  refine Bool.eq_false_iff.2 fun hnamed => ?_
  rcases List.any_eq_true.1 hnamed with ⟨name, hname, hmentions⟩
  cases name with
  | nil => cases hmentions
  | cons c rest =>
      have hword := hnames (c :: rest) (List.mem_cons_of_mem _ hname) c List.mem_cons_self
      rcases mem_mask_trim (mem_maskQuotes_of_mentions hmentions List.mem_cons_self) with
        rfl | hblank | hmem
      · cases hword
      · exact hnames.blank_not_mem hblank _ hname List.mem_cons_self
      · rw [h, mask_literal (fun _ _ hq => hq) rfl] at hmem
        rw [List.eq_of_mem_replicate hmem] at hword
        cases hword

/-- Arithmetic that names the numeric field reads it. -/
theorem readsField_of_mentions (h : Arithmetic.read .default s = .ok tree)
    (hmentions : mentions Schema.default.numeric s = true) : tree.readsField = true := by
  -- no number and no operator has the first letter of the field
  have hletter : 'r' ∈ s := by
    have hmem := mem_maskQuotes_of_mentions (c := 'r') hmentions (by decide)
    exact (mem_mask hmem).resolve_left (by decide)
  rcases Arithmetic.mem_of_reads (Arithmetic.read_sound h) hletter with
    ⟨-, hreads⟩ | hnumber | ⟨op, hop⟩ | hblank | hopen | hclose
  · exact hreads
  · cases hnumber
  · cases op <;> cases hop
  · cases hblank
  · cases hopen
  · cases hclose

/-! ## What is read -/

/-- `Admitted front other operands`: the sides of a comparison over the default fields are a bare text
field and one literal, or two arithmetic expressions, and these are its operands. -/
inductive Admitted (front other : Text) : Operands → Prop where
  | text {x : Text} :
      unwrap front ∈ Schema.default.allowed → unwrap front ≠ Schema.default.numeric →
      trim other = Quoted.literal x → Admitted front other (.text (unwrap front) x)
  | numeric {left right : Arithmetic} :
      Arithmetic.read .default front = .ok left → Arithmetic.read .default other = .ok right →
      left.LeavesFrom Schema.default.numeric → right.LeavesFrom Schema.default.numeric →
      left.readsField = true → Admitted front other (.numeric left right)

/-- A bare field that is not seen as the numeric one is another, since something is named. -/
theorem unwrap_ne_numeric (hnumeric : mentions Schema.default.numeric (trim front) = false)
    (hnamed : namesField .default front = true) : unwrap front ≠ Schema.default.numeric := by
  intro heq
  have hchars : ∀ c ∈ front, c ∈ Schema.default.numeric ∨ isBlank c = true ∨ c = '(' ∨ c = ')' :=
    fun c hc => heq ▸ mem_of_unwrap hc
  -- every other field has one of these letters, and the numeric one has none
  have hletters : ∀ c ∈ "hqm".toList, c ∉ front := by
    intro c hc hmem
    have hclass : ∀ c ∈ "hqm".toList, c ∉ Schema.default.numeric ∧ isBlank c = false ∧ c ≠ '(' ∧
        c ≠ ')' := by decide
    rcases hclass c hc with ⟨hname, hblank, hopen, hclose⟩
    rcases hchars c hmem with h | h | h | h
    · exact hname h
    · rw [hblank] at h
      cases h
    · exact hopen h
    · exact hclose h
  rw [namesField_of_not_mem hletters] at hnamed
  have htrim := mentions_trim (isWord_of_isIdentifier identifier_numeric) hnamed
  rw [hnumeric] at htrim
  cases htrim

theorem Paired.admitted (h : Paired .default (trim front) (trim other) operands)
    (hnamed : namesField .default front = true ∨ namesField .default other = true) :
    Admitted front other operands := by
  generalize hfront : trim front = front', hother : trim other = other' at h
  cases h with
  | @numeric left right hmentions ha hb =>
      subst hfront hother
      refine .numeric ?_ ?_ ?_ ?_ (readsField_of_mentions ha hmentions)
      · rwa [Arithmetic.read_congr .default (trim_trim front)] at ha
      · rwa [Arithmetic.read_congr .default (trim_trim other)] at hb
      · exact Arithmetic.leavesFrom_of_reads (Arithmetic.read_sound ha)
      · exact Arithmetic.leavesFrom_of_reads (Arithmetic.read_sound hb)
  | @text x hmentions hallowed hliteral =>
      subst hfront hother
      rw [unwrap_trim] at hallowed ⊢
      refine .text hallowed (unwrap_ne_numeric hmentions ?_) hliteral
      -- a literal names nothing, so the field does
      refine hnamed.resolve_right ?_
      rw [namesField_of_literal Schema.hasWordNames_default hliteral]
      decide

/-- `comparison.StandsBetween a b`: its text is `a` and `b` with its relation between them and no other
outside literals, in parentheses or not; `a` and `b` are its operands, exchanged if `a` names no field. -/
structure StandsBetween (a b : Text) (comparison : Comparison) : Prop where
  raw_eq : comparison.raw = a ++ comparison.written.symbol ++ b
  outside_literals : relations Scan.quotes comparison.raw = [(byteSize a, comparison.written)]
  outside_groups : relations Scan.encloses comparison.raw = [(byteSize a, comparison.written)]
  swapped_iff : comparison.swapped = true ↔ namesField .default (trim a) = false
  sides : Admitted (fieldSide comparison.swapped a b) (otherSide comparison.swapped a b)
    comparison.operands

theorem standsBetween_of_read (h : read .default s = .ok comparison) :
    tidy s = .ok comparison.raw ∧ ∃ a b, comparison.StandsBetween a b := by
  rcases exists_sides_of_read h with
    ⟨a, b, htidy, hraw, hsettled, -, -, hnamed, hswapped, hpaired⟩
  have hrelations : ∀ hides : Scan → Char → Bool, (∀ q c, q.quotes c = true → hides q c = true) →
      (∀ c, isInert c = true → hides .start c = false) →
      relations hides comparison.raw = [(byteSize a, comparison.written)] := by
    intro hides hh hvisible
    rcases hpaired.relationless hh with ⟨hfront, hother⟩
    have hfront' := relationless_of_trim hfront
    have hother' := relationless_of_trim hother
    rw [hraw]
    -- neither side shows a relation, whichever of them has the field
    cases hcase : comparison.swapped with
    | false =>
        rw [hcase] at hfront' hother'
        exact relations_of_sides hvisible hsettled hfront' hother' comparison.written
    | true =>
        rw [hcase] at hfront' hother'
        exact relations_of_sides hvisible hsettled hother' hfront' comparison.written
  rw [hraw] at hnamed
  have hsides := (namesField_sides Schema.hasWordNames_default hsettled _ b).1 hnamed
  refine ⟨htidy, a, b, hraw, ?_, ?_, ?_, hpaired.admitted ?_⟩
  · exact hrelations _ (fun _ _ hq => hq) (fun c hc => quotes_inert hc rfl)
  · exact hrelations _ encloses_of_quotes (fun c hc => encloses_inert hc rfl (Int.le_refl 0))
  · rw [hswapped, Bool.not_eq_true']
  · cases comparison.swapped with
    | false => exact hsides
    | true => exact hsides.symm

/-- A text that is read as a comparison over the default fields has exactly one relation outside literals,
that of the comparison.  It stands outside parentheses, between a bare text field and one literal or
between two arithmetic expressions over the numeric field of which the kept left one reads it.  A text
with no relation or a chain of them is not read. -/
theorem read_comparison (s : Text) :
    (∀ comparison, read .default s = .ok comparison →
      tidy s = .ok comparison.raw ∧ ∃ a b, comparison.StandsBetween a b) ∧
      ∀ raw, tidy s = .ok raw → (relations Scan.quotes raw).length ≠ 1 →
        ∃ e, read .default s = .error e := by
  refine ⟨fun _ => standsBetween_of_read, ?_⟩
  intro raw htidy hcount
  cases hread : read .default s with
  | error e => exact ⟨e, rfl⟩
  | ok comparison =>
      exfalso
      rcases standsBetween_of_read hread with ⟨htidy', a, b, hbetween⟩
      rw [htidy] at htidy'
      cases htidy'
      rw [hbetween.outside_literals] at hcount
      exact hcount rfl

/-- A relation in a literal counts for nothing, and a chain of two is refused. -/
theorem read_relation_in_literal :
    let s := "'<' = (thing)".toList
    let chain := "thing = time = 'x'".toList
    let comparison : Comparison := ⟨s, .eq, true, .text "thing".toList "<".toList⟩
    read .default s = .ok comparison ∧ tidy s = .ok comparison.raw ∧
      (∃ a b, comparison.StandsBetween a b) ∧ tidy chain = .ok chain ∧
      (relations Scan.quotes chain).length = 2 ∧ ∃ e, read .default chain = .error e := by
  intro s chain comparison
  have hread : read .default s = .ok comparison := by decide +kernel
  have htidy : tidy chain = .ok chain := by decide +kernel
  have hcount : (relations Scan.quotes chain).length = 2 := by decide
  have hsound := (read_comparison s).1 comparison hread
  have hchain := (read_comparison chain).2 chain htidy (by rw [hcount]; decide)
  exact ⟨hread, hsound.1, hsound.2, htidy, hcount, hchain⟩

end Comparison
end RecordFilter
