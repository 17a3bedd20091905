import RecordFilter.Proofs.Arithmetic.Reading
import RecordFilter.Proofs.Arithmetic.Root

/-!
# Operands — what stands between operators

An operand is the numeric field, a number, or an expression in parentheses.  Operands are settled
(`IsOperand.settled`), their masks show no operator (`IsOperand.plain`) and they can be read
(`IsOperand.read`).
-/

namespace RecordFilter
namespace Arithmetic

open Text Expression Number

variable {schema : Schema} {a s : Text} {c : Char} {tree : Arithmetic}

/-- What may stand beside an operator. -/
inductive IsOperand (schema : Schema) : Text → Prop where
  | field : IsOperand schema schema.numeric
  /-- A number that is not the name of another field. -/
  | number {a : Text} {x : Float} : Number.read? a = some x →
      (a ∈ schema.allowed → a = schema.numeric) → IsOperand schema a
  | group {e : Text} {tree : Arithmetic} : Balanced e → read schema e = .ok tree →
      IsOperand schema ('(' :: e ++ [')'])

/-! ## The characters of what can be read -/

theorem mem_of_readLeaf (h : readLeaf schema s = .ok tree) (hc : c ∈ s) :
    (c ∈ schema.numeric ∧ tree.readsField = true) ∨ isNumberChar c = true := by
  unfold readLeaf at h
  split at h
  case isTrue hnumeric =>
    have heq : schema.numeric = s := by
      simpa [Schema.isNumeric] using hnumeric
    cases h
    exact Or.inl ⟨heq ▸ hc, rfl⟩
  case isFalse =>
    split at h
    case isTrue => cases h
    case isFalse =>
      split at h
      case h_1 x hx => exact Or.inr ((shape_of_read? hx).isNumberChar_of_mem hc)
      case h_2 => cases h

/-- Apart from the numeric field, where the tree reads it, and numbers, expressions have operators,
parentheses and blanks. -/
theorem mem_of_reads (h : Reads schema s tree) (hc : c ∈ s) :
    (c ∈ schema.numeric ∧ tree.readsField = true) ∨ isNumberChar c = true ∨
      (∃ op : Operator, c = op.symbol) ∨ isBlank c = true ∨ c = '(' ∨ c = ')' := by
  induction h with
  | leaf htidy _ _ hleaf =>
      rcases mem_of_tidy htidy hc with hraw | hlost
      · rcases mem_of_readLeaf hleaf hraw with hname | hnumber
        · exact Or.inl hname
        · exact Or.inr (Or.inl hnumber)
      · exact Or.inr (Or.inr (Or.inr hlost))
  | @binary s raw left right op a b htidy _ hsplit _ _ _ _ iha ihb =>
      -- a character is lost in tidying, is the operator, or stands on one of its sides
      rcases mem_of_tidy htidy hc with hraw | hlost
      · rw [(split?_eq_some hsplit).1] at hraw
        rcases List.mem_append.1 hraw with hleft | hrest
        · refine (iha hleft).imp_left fun ⟨hname, hreads⟩ => ⟨hname, ?_⟩
          rw [readsField, hreads, Bool.true_or]
        · rcases List.mem_cons.1 hrest with hop | hright
          · exact Or.inr (Or.inr (Or.inl ⟨op, hop⟩))
          · refine (ihb hright).imp_left fun ⟨hname, hreads⟩ => ⟨hname, ?_⟩
            rw [readsField, hreads, Bool.or_true]
      · exact Or.inr (Or.inr (Or.inr hlost))

theorem isOperandChar_of_mem_identifier (h : IsIdentifier s) (hc : c ∈ s) :
    isOperandChar c = true := by
  rcases h with ⟨d, rest, rfl, hd, hrest⟩
  rcases List.mem_cons.1 hc with rfl | hc
  · simp [isOperandChar, Char.isAlphanum, hd]
  · have hword := hrest c hc
    simp only [isOperandChar, Bool.or_eq_true] at hword ⊢
    exact Or.inl (Or.inl hword)

theorem toNat_lt_of_isOperandChar (hc : isOperandChar c = true) : c.toNat < 0x80 := by
  simp only [isOperandChar, Bool.or_eq_true, beq_iff_eq] at hc
  rcases hc with ((halnum | rfl) | rfl) | rfl
  · exact toNat_lt_of_isAlphanum halnum
  · decide
  · decide
  · decide

/-- Characters of names and numbers are no structure. -/
theorem isInert_of_leaf (h : isOperandChar c = true ∨ isNumberChar c = true) :
    isInert c = true ∧ isBlank c = false := by
  have hascii : c.toNat < 0x80 := by
    rcases h with h | h
    · exact toNat_lt_of_isOperandChar h
    · exact toNat_lt_of_isNumberChar h
  have hall : ∀ n : Fin 0x80, (!(isOperandChar (Char.ofNat n) || isNumberChar (Char.ofNat n)) ||
      (isInert (Char.ofNat n) && !isBlank (Char.ofNat n))) = true := by
    decide +kernel
  have hcase := of_ascii
    (p := fun c => !(isOperandChar c || isNumberChar c) || (isInert c && !isBlank c)) hall hascii
  have hclass : (isOperandChar c || isNumberChar c) = true := Bool.or_eq_true_iff.2 h
  simpa [hclass] using hcase

theorem not_quote_of_identifier (h : IsIdentifier s) : ∀ c ∈ s, c ≠ '\'' ∧ c ≠ '"' := by
  intro c hc
  have hinert := (isInert_of_leaf (Or.inl (isOperandChar_of_mem_identifier h hc))).1
  constructor <;> rintro rfl <;> cases hinert

/-- Where the numeric field has no quotes, an expression has none. -/
theorem not_quote_of_reads (hname : ∀ c ∈ schema.numeric, c ≠ '\'' ∧ c ≠ '"')
    (h : Reads schema s tree) : ∀ c ∈ s, c ≠ '\'' ∧ c ≠ '"' := by
  intro c hc
  rcases mem_of_reads h hc with ⟨hname', -⟩ | hnumber | ⟨op, rfl⟩ | hblank | rfl | rfl
  · exact hname c hname'
  · constructor <;> rintro rfl <;> cases hnumber
  · cases op <;> decide
  · constructor <;> rintro rfl <;> cases hblank
  · decide
  · decide

theorem settled_of_reads (hname : IsIdentifier schema.numeric) (hs : Balanced s)
    (h : Reads schema s tree) : Settled s :=
  ⟨hs, Scan.zone_run_of_no_quotes (not_quote_of_reads (not_quote_of_identifier hname) h) rfl⟩

/-- A leaf without operators is read as it stands. -/
theorem read_of_leaf (hinert : ∀ c ∈ a, isInert c = true ∧ isBlank c = false) (hplain : Plain a)
    (hleaf : readLeaf schema a = .ok tree) : read schema a = .ok tree := by
  have hinert' : ∀ c ∈ a, isInert c = true := fun c hc => (hinert c hc).1
  have htrim : trim a = a :=
    trim_eq_self (fun c hc => (hinert c (List.mem_of_mem_head? hc)).2)
      (fun c hc => (hinert c (List.mem_of_getLast? hc)).2)
  have hunwrapped : Unwrapped (trim a) := by
    intro inner heq
    rw [htrim] at heq
    have hparen := hinert' '(' (by simp [heq])
    cases hparen
  have htidy : tidy a = .ok a := by
    rw [tidy_of_unwrapped (balanced_inert hinert') hunwrapped, htrim]
  -- nothing of a leaf is hidden, so its mask is the leaf, and that shows no operator
  have hnone : operators a = [] := by
    have hopens : Opens [] a := by
      refine ⟨?_, fun c _ _ => rfl⟩
      intro c hc
      cases hc
    rw [operators, maskGroups_inert hinert']
    exact hplain.silent [] 0 hopens
  exact read_complete (.leaf htidy hplain.ne_nil (split?_eq_none_iff.2 hnone) hleaf)

theorem read_numeric (hname : IsIdentifier schema.numeric) :
    read schema schema.numeric = .ok (.field schema.numeric) := by
  refine read_of_leaf (fun c hc => ?_) (plain_identifier hname) ?_
  · exact isInert_of_leaf (Or.inl (isOperandChar_of_mem_identifier hname hc))
  · simp [readLeaf, Schema.isNumeric]

theorem read_number {x : Float} (hx : Number.read? a = some x) (hallowed : a ∉ schema.allowed)
    (hnumeric : a ≠ schema.numeric) : read schema a = .ok (.number a x) := by
  have hshape := shape_of_read? hx
  refine read_of_leaf (fun c hc => ?_) (plain_number hshape) ?_
  · exact isInert_of_leaf (Or.inr (hshape.isNumberChar_of_mem hc))
  · simp [readLeaf, Schema.isNumeric, Schema.isAllowed, hnumeric.symm, hallowed, hx]

/-! ## Operands -/

namespace IsOperand

/-- The operands without parentheses are made of inert characters. -/
theorem leaf_or_group (hname : IsIdentifier schema.numeric) (h : IsOperand schema a) :
    ((∀ c ∈ a, isInert c = true ∧ isBlank c = false) ∧ Plain a ∧
        ∃ tree, readLeaf schema a = .ok tree) ∨
      ∃ e tree, a = '(' :: e ++ [')'] ∧ Settled e ∧ Arithmetic.read schema e = .ok tree := by
  cases h with
  | field =>
      refine Or.inl ⟨?_, plain_identifier hname, .field schema.numeric, ?_⟩
      · intro c hc
        exact isInert_of_leaf (Or.inl (isOperandChar_of_mem_identifier hname hc))
      · simp [readLeaf, Schema.isNumeric]
  | @number a x hread hother =>
      have hshape := shape_of_read? hread
      refine Or.inl ⟨?_, plain_number hshape, ?_⟩
      · intro c hc
        exact isInert_of_leaf (Or.inr (hshape.isNumberChar_of_mem hc))
      · -- a number may be spelled like the numeric field, and is then read as the field
        by_cases hnumeric : schema.isNumeric a = true
        · exact ⟨.field a, by simp [readLeaf, hnumeric]⟩
        · have hallowed : schema.isAllowed a = false := by
            cases h : schema.isAllowed a with
            | false => rfl
            | true =>
                have heq := hother (List.contains_iff_mem.1 h)
                simp [Schema.isNumeric, heq] at hnumeric
          exact ⟨.number a x, by simp [readLeaf, hnumeric, hallowed, hread]⟩
  | @group e tree hbalanced hread =>
      exact Or.inr ⟨e, tree, rfl, settled_of_reads hname hbalanced (read_sound hread), hread⟩

theorem settled (hname : IsIdentifier schema.numeric) (h : IsOperand schema a) : Settled a := by
  rcases h.leaf_or_group hname with ⟨hinert, -, -⟩ | ⟨e, tree, rfl, he, -⟩
  · exact Settled.of_inert fun c hc => (hinert c hc).1
  · exact he.group

/-- The mask shows no operator, and only a sign of the operand itself at the front. -/
theorem plain (hname : IsIdentifier schema.numeric) (h : IsOperand schema a) :
    Plain (maskGroups a) ∧
      ∀ c, (maskGroups a).head? = some c → IsPlusMinus c → a.head? = some c := by
  rcases h.leaf_or_group hname with ⟨hinert, hplain, -⟩ | ⟨e, tree, rfl, he, -⟩
  · have hmask : maskGroups a = a := maskGroups_inert fun c hc => (hinert c hc).1
    rw [hmask]
    exact ⟨hplain, fun c hc _ => hc⟩
  · -- a group is hidden as a whole, parentheses included
    rw [maskGroups_group he.balanced he.quoteClosed]
    have hsize : byteSize ('(' :: e ++ [')']) ≠ 0 := by
      have hlen := length_le_byteSize ('(' :: e ++ [')'])
      simp only [List.cons_append, List.length_cons] at hlen ⊢
      omega
    refine ⟨plain_nuls hsize, ?_⟩
    intro c hc hsign
    rw [List.eq_of_mem_replicate (List.mem_of_mem_head? hc)] at hsign
    rcases hsign with h | h <;> cases h

theorem ne_nil (hname : IsIdentifier schema.numeric) (h : IsOperand schema a) : a ≠ [] := by
  rcases h.leaf_or_group hname with ⟨-, hplain, -⟩ | ⟨e, tree, rfl, -, -⟩
  · exact hplain.ne_nil
  · exact List.cons_ne_nil _ _

/-- No blank stands at an end of an operand. -/
theorem ends (hname : IsIdentifier schema.numeric) (h : IsOperand schema a) :
    (∀ c, a.head? = some c → isBlank c = false) ∧ ∀ c, a.getLast? = some c → isBlank c = false := by
  rcases h.leaf_or_group hname with ⟨hinert, -, -⟩ | ⟨e, tree, rfl, -, -⟩
  · exact ⟨fun c hc => (hinert c (List.mem_of_mem_head? hc)).2,
      fun c hc => (hinert c (List.mem_of_getLast? hc)).2⟩
  · refine ⟨?_, ?_⟩
    · rintro c ⟨⟩
      rfl
    · intro c hc
      rw [List.getLast?_concat] at hc
      cases hc
      rfl

theorem read (hname : IsIdentifier schema.numeric) (h : IsOperand schema a) :
    ∃ tree, Arithmetic.read schema a = .ok tree := by
  rcases h.leaf_or_group hname with ⟨hinert, hplain, tree, hleaf⟩ | ⟨e, tree, rfl, he, hread⟩
  · exact ⟨tree, read_of_leaf hinert hplain hleaf⟩
  · exact ⟨tree, (read_group schema he).2 hread⟩

end IsOperand

end Arithmetic
end RecordFilter
