import RecordFilter.Proofs.Comparison.Fields
import RecordFilter.Proofs.Comparison.Operands

/-!
# NameOrder — the order in which a schema lists its names

The readers ask whether a name is listed, so the order of the list makes no difference to them
(`Schema.SameNames`).  Only the check for unknown names goes through the list in order and cuts one name
after another out of the text: a name that is part of a later one spoils it.  So a field may be refused
beside a literal or a number, and another order of the same names may let it through
(`read_listed_fields`).
-/

namespace RecordFilter

open Text Expression

variable {schema schema' : Schema} {raw left right front other s : Text}

/-- The same names in any order, and the same numeric field. -/
structure Schema.SameNames (schema schema' : Schema) : Prop where
  numeric : schema'.numeric = schema.numeric
  allowed : ∀ name, name ∈ schema'.allowed ↔ name ∈ schema.allowed

theorem Schema.SameNames.isAllowed (h : schema.SameNames schema') (name : Text) :
    schema'.isAllowed name = schema.isAllowed name := by
  rw [Bool.eq_iff_iff, Schema.isAllowed, Schema.isAllowed, List.contains_iff_mem,
    List.contains_iff_mem]
  exact h.allowed name

/-! ## Arithmetic -/

namespace Arithmetic

variable {tree : Arithmetic}

theorem readLeaf_of_sameNames (h : schema.SameNames schema') (s : Text) :
    readLeaf schema' s = readLeaf schema s := by
  rw [readLeaf, readLeaf, h.isAllowed, Schema.isNumeric, Schema.isNumeric, h.numeric]

theorem Reads.of_sameNames (h : schema.SameNames schema') (hreads : Reads schema s tree) :
    Reads schema' s tree := by
  induction hreads with
  | leaf htidy hne hsplit hleaf =>
      exact Reads.leaf htidy hne hsplit ((readLeaf_of_sameNames h _).trans hleaf)
  | binary htidy hne hsplit hleft hright _ _ iha ihb =>
      exact Reads.binary htidy hne hsplit hleft hright iha ihb

theorem read_of_sameNames (h : schema.SameNames schema') (hread : read schema s = .ok tree) :
    read schema' s = .ok tree :=
  read_complete ((read_sound hread).of_sameNames h)

end Arithmetic

/-! ## Comparisons -/

namespace Comparison

variable {comparison : Comparison} {operands : Operands} {r : Relation}

theorem namesField_of_sameNames (h : schema.SameNames schema') (s : Text) :
    namesField schema' s = namesField schema s := by
  rw [Bool.eq_iff_iff, namesField, namesField, List.any_eq_true, List.any_eq_true]
  constructor
  · rintro ⟨name, hname, hmentions⟩
    exact ⟨name, (h.allowed name).1 hname, hmentions⟩
  · rintro ⟨name, hname, hmentions⟩
    exact ⟨name, (h.allowed name).2 hname, hmentions⟩

theorem Paired.of_sameNames (h : schema.SameNames schema')
    (hpaired : Paired schema front other operands) :
    Paired schema' front other operands := by
  cases hpaired with
  | numeric hnumeric ha hb =>
      rw [← h.numeric] at hnumeric
      exact .numeric hnumeric (Arithmetic.read_of_sameNames h ha) (Arithmetic.read_of_sameNames h hb)
  | text hnumeric hallowed hliteral =>
      rw [← h.numeric] at hnumeric
      exact .text hnumeric ((h.allowed _).2 hallowed) hliteral

theorem readSides_of_sameNames (h : schema.SameNames schema')
    (hread : readSides schema raw r left right = .ok comparison) :
    readSides schema' raw r left right = .ok comparison := by
  rcases readSides_eq_ok_iff.1 hread with ⟨hleft, hright, hraw, hwritten, hswapped, hpaired⟩
  rw [← namesField_of_sameNames h] at hswapped
  exact readSides_eq_ok_iff.2 ⟨hleft, hright, hraw, hwritten, hswapped, hpaired.of_sameNames h⟩

/-- With the same names in another order a text that is read is read as the same comparison, or it is
refused by the check for unknown names. -/
theorem read_of_sameNames (h : schema.SameNames schema') (hread : read schema s = .ok comparison) :
    ∃ outside, outermost comparison.raw = .ok outside ∧
      read schema' s =
        if hasUnknownName schema' outside then .error ⟨.unknownNames schema'.allowed, comparison.raw⟩
        else .ok comparison := by
  rcases read_eq_ok_iff.1 hread with
    ⟨raw, outside, r, left, right, htidy, hne, hout, -, hfield, hsplit, hsides⟩
  rw [(readSides_eq_ok_iff.1 hsides).2.2.1]
  refine ⟨outside, hout, ?_⟩
  have hsides' := readSides_of_sameNames h hsides
  rw [read_of_tidy htidy hne hout, namesField_of_sameNames h, hfield, hsplit]
  simp only [hsides', Bool.not_true, Bool.false_eq_true, if_false]

/-- Each field of a schema is read beside a literal without quotes, and the numeric one beside a number
of digits, unless the check for unknown names leaves too much of it over.  It leaves nothing over if no
name that is listed before the field is a proper part of it.  Another order of the names gives no other
comparison, but the check may refuse the text. -/
theorem read_listed_fields (hnames : schema.HasIdentifierNames) (hvalid : schema.problem? = none) :
    (∀ f ∈ schema.allowed, f ≠ schema.numeric → ∀ x : Text, '\'' ∉ x →
      read schema (relate .eq f ('\'' :: x ++ ['\''])) =
        if 1 < (residue schema f).length then
          .error ⟨.unknownNames schema.allowed, relate .eq f ('\'' :: x ++ ['\''])⟩
        else .ok ⟨relate .eq f ('\'' :: x ++ ['\'']), .eq, false, .text f x⟩) ∧
      (∀ n : Text, n ≠ [] → (∀ c ∈ n, c.isDigit = true) →
        read schema (relate .gt schema.numeric n) =
          if 2 < (residue schema schema.numeric).length then
            .error ⟨.unknownNames schema.allowed, relate .gt schema.numeric n⟩
          else
            .ok ⟨relate .gt schema.numeric n, .gt, false, .numeric (.field schema.numeric)
              (.number n (Number.nearest (Number.digitsValue n) 0))⟩) ∧
      (∀ front f back, schema.allowed = front ++ f :: back →
        (∀ name ∈ front, name <:+: f → name = f) → residue schema f = []) ∧
      ∀ allowed', schema.allowed.Perm allowed' → ∀ s comparison, read schema s = .ok comparison →
        ∃ outside, outermost comparison.raw = .ok outside ∧
          read ⟨allowed', schema.numeric⟩ s =
            if hasUnknownName ⟨allowed', schema.numeric⟩ outside then
              .error ⟨.unknownNames allowed', comparison.raw⟩
            else .ok comparison := by
  refine ⟨?_, ?_, ?_, ?_⟩
  · intro f hf hnumeric x hx
    have hne : f ≠ [] := (Arithmetic.plain_identifier (hnames f (List.mem_cons_of_mem _ hf))).ne_nil
    have hread := read_text_field hnames.hasWordNames hf hne hnumeric .eq x
    have hliteral : Quoted.literal x = '\'' :: x ++ ['\''] := by
      rw [Quoted.literal, Quoted.encode_of_no_quotes hx]
    have hcount : 3 < (residue schema f).length + Relation.eq.symbol.length + (x.count '\'' + 1) ↔
        1 < (residue schema f).length := by
      rw [List.count_eq_zero_of_not_mem hx]
      simp only [Relation.symbol, List.length_cons, List.length_nil]
      omega
    rw [hliteral] at hread
    simpa only [hcount] using hread
  · intro n hne hn
    have hread := read_numeric_field hnames (Schema.numeric_mem_of_problem? hvalid) hne hn .gt
    have hcount : 3 < (residue schema schema.numeric).length + Relation.gt.symbol.length ↔
        2 < (residue schema schema.numeric).length := by
      simp only [Relation.symbol, List.length_cons, List.length_nil]
      omega
    simpa only [hcount] using hread
  · intro front f back hallowed hfront
    rw [residue_eq, hallowed, withoutAll_needle hfront]
    rfl
  · intro allowed' hperm s comparison hread
    have hsame : schema.SameNames ⟨allowed', schema.numeric⟩ := ⟨rfl, fun _ => hperm.symm.mem_iff⟩
    exact read_of_sameNames hsame hread

/-- A field that is listed before a part of it is read. -/
theorem read_field_before_part :
    read ⟨["thing_name".toList, "name".toList, "result".toList], "result".toList⟩
        "thing_name = 'x'".toList =
      .ok ⟨"thing_name = 'x'".toList, .eq, false, .text "thing_name".toList "x".toList⟩ := by
  have hnames : Schema.HasIdentifierNames
      ⟨["thing_name".toList, "name".toList, "result".toList], "result".toList⟩ := by
    decide
  have hread := (read_listed_fields hnames rfl).1 "thing_name".toList (by decide) (by decide)
    "x".toList (by decide)
  rw [if_neg (by decide)] at hread
  exact hread

/-- A field that is listed behind a part of it is refused for an unknown name. -/
theorem read_field_after_part :
    Schema.HasIdentifierNames
        ⟨["name".toList, "thing_name".toList, "result".toList], "result".toList⟩ ∧
      Schema.problem? ⟨["name".toList, "thing_name".toList, "result".toList], "result".toList⟩ = none ∧
      read ⟨["name".toList, "thing_name".toList, "result".toList], "result".toList⟩
          "thing_name = 'x'".toList =
        .error ⟨.unknownNames ["name".toList, "thing_name".toList, "result".toList],
          "thing_name = 'x'".toList⟩ := by
  have hnames : Schema.HasIdentifierNames
      ⟨["name".toList, "thing_name".toList, "result".toList], "result".toList⟩ := by
    decide
  refine ⟨hnames, rfl, ?_⟩
  have hread := read_text_field (f := "thing_name".toList) hnames.hasWordNames (by decide) (by decide)
    (by decide) .eq "x".toList
  rw [if_pos (by decide)] at hread
  exact hread

end Comparison
end RecordFilter
