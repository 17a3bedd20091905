import Mathlib.Data.List.Basic
import RecordFilter.Proofs.Comparison.NumericSides
import RecordFilter.Proofs.Comparison.Fields
import RecordFilter.Proofs.Comparison.Operands

/-!
# Converse — a comparison and its mirror image

The side that names a field is kept on the left, whichever side it was written on.  So `b < a` and `a > b`
are read as the same comparison if `a` names a field and `b` does not (`read_converse`): both orders pass
the same checks and have the same operands and the same effective relation.

The checks run on the whole text before its sides are known, and count the same in either order only
because the quotes of a side that is read are closed where the side ends (`Comparable`).

A name that only trimming shows makes a difference: a no-break space beside a field continues the word,
and the sides are trimmed before fields are looked for in them.
-/

namespace RecordFilter
namespace Comparison

open Text Expression

variable {schema : Schema} {a b s x : Text} {r : Relation} {swapped : Bool}
  {operands operands' : Operands} {comparison : Comparison}

/-! ## A literal between blanks -/

/-- The check looks at a literal between blanks as it stands. -/
theorem atDepthZero_of_trim (h : trim s = Quoted.literal x) :
    ∃ p q, allBlank p = true ∧ allBlank q = true ∧ atDepthZero .start s = fill p q x := by
  rcases exists_trim s with ⟨p, q, hp, hq, hs⟩
  refine ⟨p, q, hp, hq, ?_⟩
  calc
    atDepthZero .start s = atDepthZero .start (p ++ Quoted.literal x ++ q) := by
      rw [← h]
      exact congrArg _ hs
    _ = fill p q x := by
      rw [atDepthZero_append, atDepthZero_append, Scan.run_append, Scan.run_blank hp,
        run_literal rfl, atDepthZero_inert (isInert_of_allBlank hp), atDepthZero_literal,
        atDepthZero_inert (isInert_of_allBlank hq), fill]

theorem quote_not_mem_of_allBlank (h : allBlank s = true) : '\'' ∉ s := by
  intro hmem
  have hblank := allBlank_iff.1 h _ hmem
  cases hblank

/-- The quotes of a literal are closed at its end. -/
theorem closed_literal (hnames : schema.HasWordNames) (h : trim s = Quoted.literal x) :
    Closed schema (atDepthZero .start s) := by
  rcases atDepthZero_of_trim h with ⟨p, q, hp, hq, hzero⟩
  have hquotes : ∀ name ∈ schema.allowed, '\'' ∉ name := (hnames.not_mem (by decide)).2
  have hsplit : ∀ v, residue schema (fill p v x) =
      (withoutAll schema.allowed p ++ List.replicate (x.count '\'' + 1) '\'').filter counts ++
        residue schema v := by
    intro v
    rw [residue_fill hquotes (quote_not_mem_of_allBlank hp), ← List.append_assoc, List.filter_append,
      residue_eq]
  have hblanks : ∀ {q : Text}, allBlank q = true → ∀ t, residue schema (q ++ t) = residue schema t :=
    fun hq t => residue_blank_append hq
      (fun c hc => hnames.blank_not_mem (allBlank_iff.1 hq c hc)) t
  intro t
  have hspace : allBlank (q ++ [' ']) = true := by
    simp [hq]
    rfl
  have hback : residue schema (q ++ ' ' :: t) = residue schema t := by
    simpa using hblanks hspace t
  have hnone : residue schema q = [] := by
    have hq' := hblanks hq []
    rwa [List.append_nil, residue_nil] at hq'
  have hfill : fill p q x ++ ' ' :: t = fill p (q ++ ' ' :: t) x := by
    simp [fill]
  rw [hzero, hfill, hsplit, hsplit, hback, hnone, List.append_nil]

/-! ## Sides that are read -/

/-- Two sides that are read together leave no quote open. -/
theorem Paired.closed (hnames : schema.HasWordNames) (h : Paired schema (trim a) (trim b) operands) :
    Closed schema (atDepthZero .start a) ∧ Closed schema (atDepthZero .start b) := by
  have hspace : ∀ name ∈ schema.allowed, ' ' ∉ name := hnames.blank_not_mem rfl
  have hquote := hnames.not_mem (c := '\'') (by decide)
  have hclosed : ∀ {s : Text}, '\'' ∉ trim s → Closed schema (atDepthZero .start s) := by
    intro s hs
    refine closed_of_no_quotes hspace ?_
    rintro c hc rfl
    rcases mem_trim_or_isBlank (mem_of_mem_atDepthZero hc) with htrim | hblank
    · exact hs htrim
    · cases hblank
  generalize hfront : trim a = front, hother : trim b = other at h
  cases h with
  | numeric _ hreada hreadb =>
      have hnumeric : ∀ c ∈ schema.numeric, c ≠ '\'' ∧ c ≠ '"' :=
        IsWord.no_quotes (hnames _ List.mem_cons_self)
      have hexpression : ∀ {t : Text} {tree : Arithmetic}, Arithmetic.read schema t = .ok tree →
          '\'' ∉ t := by
        intro t tree hread hmem
        exact (Arithmetic.not_quote_of_reads hnumeric (Arithmetic.read_sound hread) _ hmem).1 rfl
      exact ⟨hclosed (hfront ▸ hexpression hreada), hclosed (hother ▸ hexpression hreadb)⟩
  | text _ hallowed hliteral =>
      refine ⟨hclosed (hfront ▸ fun hmem => ?_), closed_literal hnames (hother.trans hliteral)⟩
      rcases mem_of_unwrap hmem with hname | hblank | hopen | hclose
      · exact hquote.2 _ hallowed hname
      · cases hblank
      · cases hopen
      · cases hclose

theorem Paired.unique (h : Paired schema a b operands) (h' : Paired schema a b operands') :
    operands = operands' := by
  have hread : readOperands schema [] a b = .ok operands := readOperands_eq_ok_iff.2 h
  rw [readOperands_eq_ok_iff.2 h'] at hread
  cases hread
  rfl

/-- The check counts the same characters whichever side the field stands on. -/
theorem length_residue_relate (hnames : schema.HasWordNames) (ha : Settled a)
    (h : Paired schema (trim (fieldSide swapped a b)) (trim (otherSide swapped a b)) operands)
    (r : Relation) :
    (residue schema (atDepthZero .start (trim (relate r a b)))).length =
      (residue schema (atDepthZero .start (fieldSide swapped a b))).length + r.symbol.length +
        (residue schema (atDepthZero .start (otherSide swapped a b))).length := by
  rcases h.closed hnames with ⟨hfront, hother⟩
  cases swapped with
  | false =>
      have ha' : Closed schema (atDepthZero .start a) := hfront
      rw [residue_relate hnames ha ha', List.length_append, List.length_append]
      rfl
  | true =>
      have ha' : Closed schema (atDepthZero .start a) := hother
      rw [residue_relate hnames ha ha', List.length_append, List.length_append]
      simp only [fieldSide, otherSide, if_true]
      omega

/-- What the reader asks of the field side `front` and the other side, in either order, with `n`
characters of a relation between them. -/
structure Comparable (schema : Schema) (n : Nat) (front other : Text) (operands : Operands) : Prop where
  ne_nil : trim front ≠ [] ∧ trim other ≠ []
  known : (residue schema (atDepthZero .start front)).length + n +
    (residue schema (atDepthZero .start other)).length ≤ 3
  paired : Paired schema (trim front) (trim other) operands

/-- Settled sides around a relation, of which some side names a field. -/
theorem read_relate_eq_ok_iff (hnames : schema.HasWordNames) (ha : Settled a) (hb : Settled b)
    (hna : Unrelated a) (hnb : Unrelated b)
    (hfield : namesField schema a = true ∨ namesField schema b = true)
    (hswapped : swapped = !namesField schema (trim a)) :
    read schema (relate r a b) = .ok comparison ↔
      comparison = ⟨trim (relate r a b), r, swapped, comparison.operands⟩ ∧
        Comparable schema r.symbol.length (fieldSide swapped a b) (otherSide swapped a b)
          comparison.operands := by
  have hwhole : namesField schema (trim (relate r a b)) = true :=
    namesField_trim hnames ((namesField_relate hnames ha r b).2 hfield)
  have hne : trim (fieldSide swapped a b) ≠ [] ∧ trim (otherSide swapped a b) ≠ [] ↔
      trim a ≠ [] ∧ trim b ≠ [] := by
    cases swapped
    · exact Iff.rfl
    · exact And.comm
  rw [read_relate_of_sides schema ha hb hna hnb, hwhole, hasUnknownName, Bool.not_true,
    if_neg Bool.false_ne_true]
  constructor
  · intro h
    split at h
    case isTrue => cases h
    case isFalse hknown =>
      rcases readSides_eq_ok_iff.1 h with ⟨hleft, hright, hraw, hwritten, hside, hpaired⟩
      rw [hside, ← hswapped, fieldSide_trim, otherSide_trim] at hpaired
      rw [length_residue_relate hnames ha hpaired] at hknown
      refine ⟨?_, hne.2 ⟨hleft, hright⟩, by simpa using hknown, hpaired⟩
      rw [← hraw, ← hwritten, hswapped, ← hside]
  · rintro ⟨heq, hboth, hknown, hpaired⟩
    rw [← length_residue_relate hnames ha hpaired] at hknown
    rw [if_neg (by simpa using hknown), readSides_eq_ok_iff, heq]
    rw [← fieldSide_trim, ← otherSide_trim] at hpaired
    exact ⟨(hne.1 hboth).1, (hne.1 hboth).2, rfl, rfl, hswapped, hpaired⟩

/-! ## The mirror image -/

theorem length_symbol_converse (r : Relation) : r.converse.symbol.length = r.symbol.length := by
  cases r <;> rfl

/-- A comparison is known from its operands and its effective relation but for its text and the way it
was written. -/
theorem eq_of_effective {c d : Comparison} (hoperands : c.operands = d.operands)
    (heffective : c.effective = d.effective) :
    c.complexity = d.complexity ∧ c.text = d.text ∧ ∀ record, c.holds record = d.holds record := by
  refine ⟨?_, ?_, fun record => ?_⟩
  · rw [complexity, complexity, hoperands]
  · rw [text, text, hoperands, heffective]
  · rw [holds, holds, hoperands, heffective]

/-- A side `a` that names a field and a side `b` that, trimmed, names none, with no relation in them
outside literals and groups: `b` before a relation and `a` behind it are read exactly if `a` before its
converse and `b` behind that are.  Then they are the same comparison but for its text, the relation as it
was written and the side of the field. -/
theorem read_converse (hnames : schema.HasIdentifierNames) (ha : Settled a) (hb : Settled b)
    (hna : Unrelated a) (hnb : Unrelated b) (hfield : namesField schema a = true)
    (hother : namesField schema (trim b) = false) (r : Relation) :
    ((∃ c, read schema (relate r b a) = .ok c) ↔
        ∃ d, read schema (relate r.converse a b) = .ok d) ∧
      ∀ c d, read schema (relate r b a) = .ok c → read schema (relate r.converse a b) = .ok d →
        c = ⟨trim (relate r b a), r, true, c.operands⟩ ∧
          d = ⟨trim (relate r.converse a b), r.converse, false, c.operands⟩ ∧
          c.effective = d.effective ∧ c.complexity = d.complexity ∧ c.text = d.text ∧
          ∀ record, c.holds record = d.holds record := by
  have hword := hnames.hasWordNames
  have hlast : ∀ c, read schema (relate r b a) = .ok c ↔
      c = ⟨trim (relate r b a), r, true, c.operands⟩ ∧
        Comparable schema r.symbol.length a b c.operands :=
    fun c => read_relate_eq_ok_iff hword hb ha hnb hna (Or.inr hfield) (by simp [hother])
  have hfirst : ∀ d, read schema (relate r.converse a b) = .ok d ↔
      d = ⟨trim (relate r.converse a b), r.converse, false, d.operands⟩ ∧
        Comparable schema r.symbol.length a b d.operands := by
    intro d
    rw [← length_symbol_converse]
    refine read_relate_eq_ok_iff hword ha hb hna hnb (Or.inl hfield) ?_
    rw [namesField_trim hword hfield]
    rfl
  refine ⟨⟨?_, ?_⟩, ?_⟩
  · rintro ⟨c, hc⟩
    exact ⟨⟨_, _, _, c.operands⟩, (hfirst _).2 ⟨rfl, ((hlast c).1 hc).2⟩⟩
  · rintro ⟨d, hd⟩
    exact ⟨⟨_, _, _, d.operands⟩, (hlast _).2 ⟨rfl, ((hfirst d).1 hd).2⟩⟩
  · intro c d hc hd
    rcases (hlast c).1 hc with ⟨hceq, hcomparable⟩
    rcases (hfirst d).1 hd with ⟨hdeq, hcomparable'⟩
    have hoperands : d.operands = c.operands := hcomparable'.paired.unique hcomparable.paired
    have heffective : c.effective = d.effective := by
      rw [hceq, hdeq]
      rfl
    rw [hoperands] at hdeq
    exact ⟨hceq, hdeq, heffective, eq_of_effective hoperands.symm heffective⟩

/-- A literal with a relation in it, before a field in parentheses. -/
theorem read_literal_less_than_field :
    ∃ c d, read .default "'x < y' < (thing)".toList = .ok c ∧
      read .default "(thing) > 'x < y'".toList = .ok d ∧
      c = ⟨"'x < y' < (thing)".toList, .lt, true, .text "thing".toList "x < y".toList⟩ ∧
      d = ⟨"(thing) > 'x < y'".toList, .gt, false, .text "thing".toList "x < y".toList⟩ ∧
      c.effective = d.effective ∧ c.complexity = d.complexity ∧ c.text = d.text ∧
      ∀ record, c.holds record = d.holds record := by
  have hunrelated : Unrelated "(thing)".toList ∧ Unrelated "'x < y'".toList := by
    unfold Unrelated
    decide
  have hnames : Schema.default.HasIdentifierNames := by decide
  have hconverse := read_converse (a := "(thing)".toList) (b := "'x < y'".toList) hnames
    ⟨by decide, by decide⟩ ⟨by decide, by decide⟩ hunrelated.1 hunrelated.2 (by decide) (by decide) .lt
  have hc : read .default "'x < y' < (thing)".toList =
      .ok ⟨"'x < y' < (thing)".toList, .lt, true, .text "thing".toList "x < y".toList⟩ := by
    decide +kernel
  rcases hconverse.1.1 ⟨_, hc⟩ with ⟨d, hd⟩
  rcases hconverse.2 _ d hc hd with ⟨-, hdeq, hsame⟩
  exact ⟨_, d, hc, hd, rfl, hdeq, hsame⟩

/-- A no-break space hides the field beside it until the side is trimmed, and then the sides are not
exchanged. -/
theorem read_field_before_no_break_space :
    let a := "result".toList
    let b := "result\u00a0".toList
    Schema.default.HasIdentifierNames ∧ Settled a ∧ Settled b ∧ Unrelated a ∧ Unrelated b ∧
      namesField .default a = true ∧ namesField .default b = false ∧
      ∃ c d, read .default (relate .lt b a) = .ok c ∧
        read .default (relate Relation.lt.converse a b) = .ok d ∧
        c.effective ≠ d.effective ∧ c.text ≠ d.text := by
  intro a b
  have hunrelated : Unrelated a ∧ Unrelated b := by
    unfold Unrelated
    decide
  have ha : Arithmetic.read .default a = .ok (.field a) := Arithmetic.read_numeric identifier_numeric
  have hb : Arithmetic.read .default b = .ok (.field a) := by
    rw [← ha]
    exact Arithmetic.read_congr .default (by decide)
  have hc := read_relate (by decide) (by decide) hb ha .lt
  have hd := read_relate (by decide) (by decide) ha hb .gt
  rw [if_neg (by decide), if_pos (by decide), if_pos (by decide)] at hc hd
  exact ⟨by decide, ⟨by decide, by decide⟩, ⟨by decide, by decide⟩, hunrelated.1, hunrelated.2,
    by decide, by decide, _, _, hc, hd, by decide, by decide⟩

end Comparison
end RecordFilter
