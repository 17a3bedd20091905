import RecordFilter.Proofs.Number.Shape
import RecordFilter.Proofs.Text.Trimming
import RecordFilter.Arithmetic.Reader

/-!
# Operators — which characters of a mask are operators

The reader looks back from each sign to tell an operator from the sign of a number and from that of
an exponent.  A piece of a mask is `Plain` if it shows no operator wherever an operand may begin, and
if a sign behind it is one.  Numbers, names and hidden groups are plain.
-/

namespace RecordFilter
namespace Arithmetic

open Text Number

variable {a b before gap m s : Text} {c : Char} {i offset : Nat} {op : Operator}

/-- A name of ASCII letters, digits and underscores that begins with a letter. -/
def IsIdentifier (s : Text) : Prop :=
  ∃ c rest, s = c :: rest ∧ c.isAlpha = true ∧ ∀ d ∈ rest, (d.isAlphanum || d == '_') = true

instance (s : Text) : Decidable (IsIdentifier s) :=
  match s with
  | [] => isFalse (by rintro ⟨c, rest, h, -⟩; cases h)
  | c :: rest =>
      decidable_of_iff (c.isAlpha = true ∧ ∀ d ∈ rest, (d.isAlphanum || d == '_') = true)
        ⟨fun h => ⟨c, rest, rfl, h⟩, by rintro ⟨d, more, h, hd⟩; cases h; exact hd⟩

/-! ## Characters -/

theorem ofSymbol?_eq_some_iff : Operator.ofSymbol? c = some op ↔ c = op.symbol := by
  constructor
  · intro h
    unfold Operator.ofSymbol? at h
    repeat' split at h
    all_goals cases h
    all_goals assumption
  · rintro rfl
    exact Operator.ofSymbol?_symbol op

/-- A class of characters that has no symbol of an operator in it. -/
theorem ofSymbol?_eq_none {p : Char → Bool} (hp : ∀ op : Operator, p op.symbol = false)
    (hc : p c = true) : Operator.ofSymbol? c = none := by
  cases h : Operator.ofSymbol? c with
  | none => rfl
  | some op =>
      rw [ofSymbol?_eq_some_iff.1 h, hp op] at hc
      cases hc

theorem ofSymbol?_of_isBlank (hc : isBlank c = true) : Operator.ofSymbol? c = none :=
  ofSymbol?_eq_none (by intro op; cases op <;> decide) hc

/-- The characters of names and unsigned numbers, and those that stand for hidden bytes. -/
def isOperandChar (c : Char) : Bool := c.isAlphanum || c == '_' || c == '.' || c == '\x00'

theorem ofSymbol?_of_isOperandChar (hc : isOperandChar c = true) : Operator.ofSymbol? c = none :=
  ofSymbol?_eq_none (by intro op; cases op <;> decide) hc

theorem isOperandChar_of_inMantissa (hc : inMantissa c = true) : isOperandChar c = true := by
  rcases Bool.or_eq_true_iff.1 hc with hdigit | hpoint
  · simp [isOperandChar, Char.isAlphanum, hdigit]
  · simp [isOperandChar, hpoint]

theorem isOperandChar_of_isExponentMark (hc : isExponentMark c = true) :
    isOperandChar c = true := by
  rcases Bool.or_eq_true_iff.1 hc with he | he
  · rw [beq_iff_eq.1 he]
    decide
  · rw [beq_iff_eq.1 he]
    decide

theorem isOperandChar_of_mem_wordLetters : ∀ c ∈ wordLetters, isOperandChar c = true := by
  decide

theorem isBlank_of_isOperandChar (hc : isOperandChar c = true) : isBlank c = false := by
  -- these characters are ASCII, where both classes can be compared one by one
  have hascii : c.toNat < 0x80 := by
    simp only [isOperandChar, Bool.or_eq_true, beq_iff_eq] at hc
    rcases hc with ((halnum | rfl) | rfl) | rfl
    · exact toNat_lt_of_isAlphanum halnum
    · decide
    · decide
    · decide
  have hall : ∀ n : Fin 0x80,
      (!isOperandChar (Char.ofNat n) || !isBlank (Char.ofNat n)) = true := by
    decide
  have hcase := of_ascii (p := fun c => !isOperandChar c || !isBlank c) hall hascii
  simpa [hc] using hcase

/-! ## The scan over pieces -/

theorem operatorsFrom_cons (before : Text) (offset : Nat) (c : Char) (rest : Text) :
    operatorsFrom before offset (c :: rest) =
      ((operatorAt? before c).map (offset, ·)).toList ++
        operatorsFrom (c :: before) (offset + c.utf8Size) rest := by
  rw [operatorsFrom]
  cases operatorAt? before c <;> rfl

theorem operatorsFrom_append (before : Text) (offset : Nat) (a b : Text) :
    operatorsFrom before offset (a ++ b) =
      operatorsFrom before offset a ++
        operatorsFrom (a.reverse ++ before) (offset + byteSize a) b := by
  induction a generalizing before offset with
  | nil => simp [operatorsFrom]
  | cons c a ih =>
      rw [List.cons_append, operatorsFrom_cons, operatorsFrom_cons, ih]
      simp [Nat.add_assoc]

theorem mem_operatorsFrom_iff :
    (i, op) ∈ operatorsFrom before offset s ↔
      ∃ p c q, s = p ++ c :: q ∧ i = offset + byteSize p ∧
        operatorAt? (p.reverse ++ before) c = some op := by
  induction s generalizing before offset with
  | nil => simp [operatorsFrom]
  | cons d s ih =>
      rw [operatorsFrom_cons, List.mem_append, ih]
      constructor
      · rintro (hfront | ⟨p, c, q, rfl, rfl, hop⟩)
        · have hop : operatorAt? before d = some op ∧ offset = i := by
            simpa [Option.map_eq_some_iff] using hfront
          exact ⟨[], d, s, rfl, by simp [hop.2], by simpa using hop.1⟩
        · exact ⟨d :: p, c, q, rfl, by simp [Nat.add_assoc], by simpa using hop⟩
      · rintro ⟨p, c, q, heq, rfl, hop⟩
        cases p with
        | nil =>
            rcases List.cons.inj heq with ⟨rfl, rfl⟩
            have hop' : operatorAt? before d = some op := by
              simpa using hop
            exact Or.inl (by simp [hop'])
        | cons x p =>
            rcases List.cons.inj heq with ⟨rfl, rfl⟩
            exact Or.inr ⟨p, c, q, rfl, by simp [Nat.add_assoc], by simpa using hop⟩

/-- Operators are listed from left to right. -/
theorem operatorsFrom_pairwise (before : Text) (offset : Nat) (s : Text) :
    (operatorsFrom before offset s).Pairwise (·.1 < ·.1) ∧
      ∀ o ∈ operatorsFrom before offset s, offset ≤ o.1 := by
  induction s generalizing before offset with
  | nil => simp [operatorsFrom]
  | cons c s ih =>
      rcases ih (c :: before) (offset + c.utf8Size) with ⟨hsorted, hfrom⟩
      have hpos := c.utf8Size_pos
      have hlater : ∀ o ∈ operatorsFrom (c :: before) (offset + c.utf8Size) s, offset < o.1 := by
        intro o ho
        have hle := hfrom o ho
        omega
      rw [operatorsFrom_cons]
      cases operatorAt? before c with
      | none => exact ⟨hsorted, fun o ho => Nat.le_of_lt (hlater o ho)⟩
      | some op =>
          refine ⟨List.pairwise_cons.2 ⟨hlater, hsorted⟩, ?_⟩
          intro o ho
          rcases List.mem_cons.1 ho with rfl | ho
          · exact Nat.le_refl _
          · exact Nat.le_of_lt (hlater o ho)

theorem symbol_of_operatorAt? (h : operatorAt? before c = some op) : c = op.symbol := by
  unfold operatorAt? at h
  split at h
  case h_1 => cases h
  case h_2 op' hop =>
    split at h
    case isTrue => cases h
    case isFalse =>
      cases h
      exact ofSymbol?_eq_some_iff.1 hop

theorem operatorAt?_of_none (h : Operator.ofSymbol? c = none) (before : Text) :
    operatorAt? before c = none := by
  rw [operatorAt?, h]

theorem operatorsFrom_of_none (h : ∀ c ∈ s, Operator.ofSymbol? c = none) (before : Text)
    (offset : Nat) : operatorsFrom before offset s = [] := by
  induction s generalizing before offset with
  | nil => rfl
  | cons c s ih =>
      rw [operatorsFrom_cons, operatorAt?_of_none (h c List.mem_cons_self),
        ih (fun d hd => h d (List.mem_cons_of_mem _ hd))]
      rfl

/-- A symbol where operands are joined is an operator. -/
theorem operatorAt?_of_joins (op : Operator) (h : joinsOperands before = true) :
    operatorAt? before op.symbol = some op := by
  simp [operatorAt?, Operator.ofSymbol?_symbol, h]

/-- A sign where no operands are joined is not. -/
theorem operatorAt?_sign (hc : c = '+' ∨ c = '-') (h : joinsOperands before = false) :
    operatorAt? before c = none := by
  rcases hc with rfl | rfl
  · simp [operatorAt?, Operator.ofSymbol?, Operator.tier, h]
  · simp [operatorAt?, Operator.ofSymbol?, Operator.tier, h]

/-! ## Where an operand may begin -/

/-- No name or number ends right before this place. -/
def Fresh (before : Text) : Prop :=
  ∀ c, before.head? = some c → inMantissa c = false ∧ (c.isAlphanum || c == '_') = false

/-- A plus or minus. -/
def IsPlusMinus (c : Char) : Prop := c = '+' ∨ c = '-'

/-- An operand may begin here, and if it begins with a sign, the sign is its own. -/
def Opens (before m : Text) : Prop :=
  Fresh before ∧ ∀ c, m.head? = some c → IsPlusMinus c → joinsOperands before = false

/-- The mask of one operand. -/
structure Plain (m : Text) : Prop where
  ne_nil : m ≠ []
  /-- It shows no operator. -/
  silent : ∀ before offset, Opens before m → operatorsFrom before offset m = []
  /-- It ends in no blank and no operator. -/
  last : ∀ c, m.getLast? = some c → isBlank c = false ∧ Operator.ofSymbol? c = none
  /-- It ends in no mark of an exponent. -/
  closed : ∀ before, Fresh before → endsInExponentMark (m.reverse ++ before) = false

theorem fresh_cons (h : inMantissa c = false) (h' : (c.isAlphanum || c == '_') = false)
    (before : Text) : Fresh (c :: before) := by
  rintro d ⟨⟩
  exact ⟨h, h'⟩

theorem fresh_of_isBlank (hc : isBlank c = true) (before : Text) : Fresh (c :: before) := by
  have hnot : isOperandChar c = false := by
    cases h : isOperandChar c with
    | false => rfl
    | true =>
        rw [isBlank_of_isOperandChar h] at hc
        cases hc
  have hmantissa : inMantissa c = false := by
    cases h : inMantissa c with
    | false => rfl
    | true =>
        rw [isOperandChar_of_inMantissa h] at hnot
        cases hnot
  simp only [isOperandChar, Bool.or_eq_false_iff] at hnot
  exact fresh_cons hmantissa (by simp [hnot]) before

theorem fresh_symbol (op : Operator) (before : Text) : Fresh (op.symbol :: before) := by
  cases op <;> exact fresh_cons (by decide) (by decide) before

/-! ## Plain pieces -/

theorem endsInExponentMark_cons (c : Char) (before : Text) :
    endsInExponentMark (c :: before) =
      (isExponentMark c && !(before.takeWhile inMantissa).isEmpty &&
        !(before.dropWhile inMantissa).head?.any fun c => c.isAlphanum || c == '_') := rfl

theorem endsInExponentMark_of_not_mark (hc : isExponentMark c = false) (before : Text) :
    endsInExponentMark (c :: before) = false := by
  rw [endsInExponentMark_cons, hc, Bool.false_and, Bool.false_and]

/-- A mantissa and the mark behind it are the beginning of an exponent. -/
theorem endsInExponentMark_of_mantissa (hne : m ≠ []) (hm : ∀ c ∈ m, inMantissa c = true)
    (hc : isExponentMark c = true) (hfresh : Fresh before) :
    endsInExponentMark (c :: (m.reverse ++ before)) = true := by
  have hm' : ∀ c ∈ m.reverse, inMantissa c = true := fun c h => hm c (List.mem_reverse.1 h)
  -- looking back from the mark, the reader passes the mantissa and stops at `before`
  have htake : ((m.reverse ++ before).takeWhile inMantissa).isEmpty = false := by
    rw [List.takeWhile_append_of_pos hm']
    simp [hne]
  have hdrop : ((m.reverse ++ before).dropWhile inMantissa).head?.any
      (fun c => c.isAlphanum || c == '_') = false := by
    rw [List.dropWhile_append_of_pos hm']
    cases before with
    | nil => rfl
    | cons d before =>
        rcases hfresh d rfl with ⟨hd, hword⟩
        rw [List.dropWhile_cons_of_neg (by simp [hd])]
        exact hword
  rw [endsInExponentMark_cons, hc, htake, hdrop]
  rfl

/-- Behind a mantissa and the mark of an exponent stands no operator. -/
theorem joinsOperands_of_mantissa (hne : m ≠ []) (hm : ∀ c ∈ m, inMantissa c = true)
    (hc : isExponentMark c = true) (hfresh : Fresh before) :
    joinsOperands (c :: (m.reverse ++ before)) = false := by
  have hends := endsInExponentMark_of_mantissa hne hm hc hfresh
  have hblank : isAsciiBlank c = false := by
    rcases Bool.or_eq_true_iff.1 hc with he | he
    · rw [beq_iff_eq.1 he]
      decide
    · rw [beq_iff_eq.1 he]
      decide
  simp [joinsOperands, hblank, hends]

theorem not_mark_of_isBlank (hc : isBlank c = true) : isExponentMark c = false := by
  cases h : isExponentMark c with
  | false => rfl
  | true =>
      rw [isBlank_of_isOperandChar (isOperandChar_of_isExponentMark h)] at hc
      cases hc

/-- Behind a blank no exponent goes on. -/
theorem endsInExponentMark_of_gap (hne : gap ≠ []) (hgap : allBlank gap = true) (before : Text) :
    endsInExponentMark (gap.reverse ++ before) = false := by
  rcases List.eq_nil_or_concat gap with rfl | ⟨init, c, rfl⟩
  · exact absurd rfl hne
  · have hc : isBlank c = true := allBlank_iff.1 hgap c (by simp)
    simp [endsInExponentMark_of_not_mark (not_mark_of_isBlank hc)]

theorem plain_of_isOperandChar (hne : m ≠ []) (hm : ∀ c ∈ m, isOperandChar c = true)
    (hclosed : ∀ before, Fresh before → endsInExponentMark (m.reverse ++ before) = false) :
    Plain m := by
  have hnone : ∀ c ∈ m, Operator.ofSymbol? c = none :=
    fun c hc => ofSymbol?_of_isOperandChar (hm c hc)
  refine ⟨hne, fun before offset _ => operatorsFrom_of_none hnone before offset, ?_, hclosed⟩
  intro c hc
  have hmem : c ∈ m := List.mem_of_getLast? hc
  exact ⟨isBlank_of_isOperandChar (hm c hmem), hnone c hmem⟩

theorem closed_of_last (hne : m ≠ []) (h : ∀ c ∈ m.getLast?, isExponentMark c = false)
    (before : Text) : endsInExponentMark (m.reverse ++ before) = false := by
  rcases List.eq_nil_or_concat m with rfl | ⟨front, c, rfl⟩
  · exact absurd rfl hne
  · have hc : isExponentMark c = false := h c (by simp)
    have hrev : (front.concat c).reverse ++ before = c :: (front.reverse ++ before) := by
      simp
    rw [hrev]
    exact endsInExponentMark_of_not_mark hc _

/-- Hidden bytes. -/
theorem plain_nuls {n : Nat} (hn : n ≠ 0) : Plain (List.replicate n '\x00') := by
  have hne : List.replicate n '\x00' ≠ [] := by
    simpa using hn
  refine plain_of_isOperandChar hne ?_ ?_
  · intro c hc
    rw [List.eq_of_mem_replicate hc]
    rfl
  · intro before _
    refine closed_of_last hne ?_ before
    intro c hc
    rw [List.eq_of_mem_replicate (List.mem_of_getLast? hc)]
    rfl

theorem not_inMantissa_of_isAlpha (hc : c.isAlpha = true) : inMantissa c = false := by
  have hall : ∀ n : Fin 0x80, (!(Char.ofNat n).isAlpha || !inMantissa (Char.ofNat n)) = true := by
    decide
  have hcase := of_ascii (p := fun c => !c.isAlpha || !inMantissa c) hall (toNat_lt_of_isAlpha hc)
  simpa [hc] using hcase

/-- Going back over digits in a name one meets another character of the name. -/
theorem wordChar_before_digits (hc : c.isAlpha = true)
    (ha : ∀ x ∈ a, (x.isAlphanum || x == '_') = true) (before : Text) :
    ((a ++ c :: before).dropWhile inMantissa).head?.any (fun c => c.isAlphanum || c == '_') = true := by
  induction a with
  | nil => simp [not_inMantissa_of_isAlpha hc, Char.isAlphanum, hc]
  | cons x a ih =>
      -- a digit or point of the name is passed, and any other character of it is the one met
      cases hx : inMantissa x with
      | true =>
          rw [List.cons_append, List.dropWhile_cons_of_pos hx]
          exact ih (fun y hy => ha y (List.mem_cons_of_mem _ hy))
      | false =>
          rw [List.cons_append, List.dropWhile_cons_of_neg (by simp [hx])]
          exact ha x List.mem_cons_self

theorem plain_identifier (h : IsIdentifier m) : Plain m := by
  rcases h with ⟨c, rest, rfl, hc, hrest⟩
  have hchar : ∀ d ∈ c :: rest, isOperandChar d = true := by
    intro d hd
    rcases List.mem_cons.1 hd with rfl | hd
    · simp [isOperandChar, Char.isAlphanum, hc]
    · have hword := hrest d hd
      simp only [isOperandChar, Bool.or_eq_true] at hword ⊢
      exact Or.inl (Or.inl hword)
  apply plain_of_isOperandChar (List.cons_ne_nil c rest) hchar
  intro before hfresh
  rcases List.eq_nil_or_concat rest with rfl | ⟨front, d, rfl⟩
  · -- a name of one letter: no digit stands before it
    have htake : before.takeWhile inMantissa = [] := by
      cases before with
      | nil => rfl
      | cons x before => simp [(hfresh x rfl).1]
    have hrev : [c].reverse ++ before = c :: before := rfl
    rw [hrev, endsInExponentMark_cons, htake]
    simp
  · -- a longer name: an `e` at its end has a letter of the name before the digits
    have hfront : ∀ x ∈ front.reverse, (x.isAlphanum || x == '_') = true :=
      fun x hx => hrest x (by simp [List.mem_reverse.1 hx])
    have hrev : (c :: front.concat d).reverse ++ before = d :: (front.reverse ++ c :: before) := by
      simp
    rw [hrev, endsInExponentMark_cons, wordChar_before_digits hc hfront]
    simp

/-! ## Numbers -/

theorem isOperandChar_of_isDigit (hc : c.isDigit = true) : isOperandChar c = true :=
  isOperandChar_of_inMantissa (by simp [inMantissa, hc])

theorem not_mark_of_inMantissa (hc : inMantissa c = true) : isExponentMark c = false := by
  cases h : isExponentMark c with
  | false => rfl
  | true =>
      rcases Bool.or_eq_true_iff.1 h with he | he
      · rw [beq_iff_eq.1 he] at hc
        cases hc
      · rw [beq_iff_eq.1 he] at hc
        cases hc

/-- The part of a number behind its sign shows no operator. -/
theorem operatorsFrom_unsigned (h : UnsignedShape s) (hfresh : Fresh before) (offset : Nat) :
    operatorsFrom before offset s = [] := by
  cases h with
  | word _ hs =>
      exact operatorsFrom_of_none
        (fun c hc => ofSymbol?_of_isOperandChar (isOperandChar_of_mem_wordLetters c (hs c hc))) _ _
  | decimal _ hs =>
      exact operatorsFrom_of_none
        (fun c hc => ofSymbol?_of_isOperandChar (isOperandChar_of_inMantissa (hs c hc))) _ _
  | @scientific mantissa sign digits mark hne hmantissa hmark hsign _ hdigits =>
      have hm : ∀ c ∈ mantissa, Operator.ofSymbol? c = none :=
        fun c hc => ofSymbol?_of_isOperandChar (isOperandChar_of_inMantissa (hmantissa c hc))
      have he := ofSymbol?_of_isOperandChar (isOperandChar_of_isExponentMark hmark)
      have hd : ∀ c ∈ digits, Operator.ofSymbol? c = none :=
        fun c hc => ofSymbol?_of_isOperandChar (isOperandChar_of_isDigit (hdigits c hc))
      -- the sign of the exponent is the only character that could be an operator
      have hjoins := joinsOperands_of_mantissa hne hmantissa hmark hfresh
      rw [operatorsFrom_append, operatorsFrom_of_none hm, operatorsFrom_cons,
        operatorAt?_of_none he]
      rcases hsign with rfl | rfl | rfl
      · simp [operatorsFrom_of_none hd]
      · simp [operatorsFrom_cons, operatorAt?_sign (Or.inl rfl) hjoins, operatorsFrom_of_none hd]
      · simp [operatorsFrom_cons, operatorAt?_sign (Or.inr rfl) hjoins, operatorsFrom_of_none hd]

theorem unsignedShape_last (h : UnsignedShape s) :
    ∀ c, s.getLast? = some c → isOperandChar c = true ∧ isExponentMark c = false := by
  cases h with
  | word _ hs =>
      intro c hc
      have hall : ∀ c ∈ wordLetters, isExponentMark c = false := by
        decide
      have hmem := hs c (List.mem_of_getLast? hc)
      exact ⟨isOperandChar_of_mem_wordLetters c hmem, hall c hmem⟩
  | decimal _ hs =>
      intro c hc
      have hmem := hs c (List.mem_of_getLast? hc)
      exact ⟨isOperandChar_of_inMantissa hmem, not_mark_of_inMantissa hmem⟩
  | @scientific mantissa sign digits mark _ _ _ _ hne hdigits =>
      intro c hc
      have hlast : digits.getLast? = some c := by
        cases hd : digits.getLast? with
        | none => exact absurd (List.getLast?_eq_none_iff.1 hd) hne
        | some d => simpa [List.getLast?_append, List.getLast?_cons, hd] using hc
      have hdigit := hdigits c (List.mem_of_getLast? hlast)
      have hmantissa : inMantissa c = true := by
        simp [inMantissa, hdigit]
      exact ⟨isOperandChar_of_isDigit hdigit, not_mark_of_inMantissa hmantissa⟩

theorem unsignedShape_ne_nil (h : UnsignedShape s) : s ≠ [] := by
  cases h with
  | word hne _ => exact hne
  | decimal hne _ => exact hne
  | scientific hne _ _ _ _ _ => simp

theorem plain_number (h : NumberShape m) : Plain m := by
  rcases h with ⟨sign, body, rfl, hsign, hbody⟩
  have hne := unsignedShape_ne_nil hbody
  have hlast : ∀ c, (sign ++ body).getLast? = some c →
      isOperandChar c = true ∧ isExponentMark c = false := by
    intro c hc
    cases hb : body.getLast? with
    | none => exact absurd (List.getLast?_eq_none_iff.1 hb) hne
    | some d =>
        rw [List.getLast?_append, hb] at hc
        exact unsignedShape_last hbody c (hb.trans hc)
  refine ⟨by simp [hne], ?_, ?_, ?_⟩
  · intro before offset hopens
    -- behind its own sign the number begins as it would behind an operator
    rcases hopens with ⟨hfresh, hjoins⟩
    have hplus := fun rest => fresh_symbol .add rest
    have hminus := fun rest => fresh_symbol .sub rest
    rcases hsign with rfl | rfl | rfl
    · exact operatorsFrom_unsigned hbody hfresh offset
    · rw [operatorsFrom_append, operatorsFrom_cons,
        operatorAt?_sign (Or.inl rfl) (hjoins '+' rfl (Or.inl rfl))]
      exact operatorsFrom_unsigned hbody (hplus before) _
    · rw [operatorsFrom_append, operatorsFrom_cons,
        operatorAt?_sign (Or.inr rfl) (hjoins '-' rfl (Or.inr rfl))]
      exact operatorsFrom_unsigned hbody (hminus before) _
  · intro c hc
    have hchar := (hlast c hc).1
    exact ⟨isBlank_of_isOperandChar hchar, ofSymbol?_of_isOperandChar hchar⟩
  · intro before _
    exact closed_of_last (by simp [hne]) (fun c hc => (hlast c hc).2) before

/-! ## Behind operands and behind operators -/

/-- Whatever blanks stand between, a sign behind an operand joins. -/
theorem joinsOperands_of_plain (hm : Plain m) (hfresh : Fresh before) (hgap : allBlank gap = true) :
    joinsOperands (gap.reverse ++ (m.reverse ++ before)) = true := by
  rcases List.eq_nil_or_concat m with rfl | ⟨front, d, hfront⟩
  · exact absurd rfl hm.ne_nil
  · have hd := hm.last d (by simp [hfront])
    have hvisible : isAsciiBlank d = false := by
      cases h : isAsciiBlank d with
      | false => rfl
      | true =>
          rw [isBlank_of_isAsciiBlank h] at hd
          cases hd.1
    have hends : endsInExponentMark (gap.reverse ++ (m.reverse ++ before)) = false := by
      by_cases hne : gap = []
      · subst hne
        exact hm.closed before hfresh
      · exact endsInExponentMark_of_gap hne hgap _
    -- the first character that is not an ASCII blank is another blank, or the end of the operand
    have hfind : ∃ c, (gap.reverse ++ (m.reverse ++ before)).find? (fun c => !isAsciiBlank c) =
        some c ∧ Operator.ofSymbol? c = none := by
      rw [List.find?_append]
      cases h : gap.reverse.find? (fun c => !isAsciiBlank c) with
      | some x =>
          have hx : x ∈ gap := List.mem_reverse.1 (List.mem_of_find?_eq_some h)
          exact ⟨x, rfl, ofSymbol?_of_isBlank (allBlank_iff.1 hgap x hx)⟩
      | none => exact ⟨d, by simp [hfront, hvisible], hd.2⟩
    rcases hfind with ⟨c, hc, hnone⟩
    simp [joinsOperands, hc, hnone, hends]

/-- Behind an operator and ASCII blanks a sign joins nothing. -/
theorem joinsOperands_symbol (op : Operator) (hgap : ∀ c ∈ gap, isAsciiBlank c = true)
    (before : Text) : joinsOperands (gap.reverse ++ op.symbol :: before) = false := by
  have hnone : gap.reverse.find? (fun c => !isAsciiBlank c) = none := by
    refine List.find?_eq_none.2 ?_
    intro c hc
    simp [hgap c (List.mem_reverse.1 hc)]
  -- past the ASCII blanks the reader looks at the operator itself
  have hsymbol : isAsciiBlank op.symbol = false := by
    cases op <;> decide
  simp [joinsOperands, List.find?_append, hnone, hsymbol, Operator.ofSymbol?_symbol]

/-- Any other blank before a sign makes it an operator. -/
theorem joinsOperands_of_other_blank (hgap : allBlank gap = true)
    (hother : ∃ c ∈ gap, isAsciiBlank c = false) (before : Text) :
    joinsOperands (gap.reverse ++ before) = true := by
  rcases hother with ⟨c, hc, hvisible⟩
  have hends := endsInExponentMark_of_gap (List.ne_nil_of_mem hc) hgap before
  -- looking back, the reader stops at that blank or at one behind it
  cases hfind : gap.reverse.find? (fun c => !isAsciiBlank c) with
  | none =>
      have hnot := List.find?_eq_none.1 hfind c (List.mem_reverse.2 hc)
      simp [hvisible] at hnot
  | some d =>
      have hd : d ∈ gap := List.mem_reverse.1 (List.mem_of_find?_eq_some hfind)
      have hnone := ofSymbol?_of_isBlank (allBlank_iff.1 hgap d hd)
      simp [joinsOperands, List.find?_append, hfind, hnone, hends]

end Arithmetic
end RecordFilter
