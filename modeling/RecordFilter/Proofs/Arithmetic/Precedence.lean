import RecordFilter.Proofs.Precedence.Dialect
import RecordFilter.Proofs.Arithmetic.Operands

/-!
# Precedence — the tree of an arithmetic expression

An expression is a chain of operands between operators, with or without blanks around them.  The
reader gives it the tree of that chain: powers bind tightest, then products, then sums, and the
operators of each tier group to the left.  Balanced texts of any other form are refused.

Any white space may stand around an operator, with one exception: before an operand that begins with
a sign only the five ASCII blanks may.
-/

namespace RecordFilter
namespace Arithmetic

open Text Expression Number

variable {schema : Schema} {a b before m s x y : Text} {offset : Nat} {tree : Arithmetic}
  {c : Chain Operator Text} {l : Link Operator} {left right rest : List (Link Operator × Text)}

/-- The language of operators: sums bind loosest, powers tightest. -/
def dialect : Dialect Operator Arithmetic := ⟨fun op => [op.symbol], tiers, Arithmetic.binary⟩

/-- The blanks of a link before the operand `b`. -/
structure GapsFit (l : Link Operator) (b : Text) : Prop where
  before : allBlank l.before = true
  after : allBlank l.after = true
  sign : ∀ c, b.head? = some c → IsPlusMinus c → ∀ d ∈ l.after, isAsciiBlank d = true

/-- Operands, with blanks around each operator or none. -/
def Fits (schema : Schema) (c : Chain Operator Text) : Prop :=
  (∀ a ∈ c.items, IsOperand schema a) ∧ ∀ x ∈ c.rest, GapsFit x.1 x.2

/-! ## Chains -/

theorem write_single (a : Text) : dialect.write ⟨a, []⟩ = a := by
  simp [Dialect.write]

theorem write_cons (a b : Text) (l : Link Operator) (rest : List (Link Operator × Text)) :
    dialect.write ⟨a, (l, b) :: rest⟩ =
      a ++ l.before ++ l.op.symbol :: (l.after ++ dialect.write ⟨b, rest⟩) := by
  simp [Dialect.write, Dialect.linkText, dialect]

theorem write_append (a b : Text) (l : Link Operator) (left right : List (Link Operator × Text)) :
    dialect.write ⟨a, left ++ (l, b) :: right⟩ =
      dialect.write ⟨a, left⟩ ++ l.before ++ l.op.symbol :: (l.after ++ dialect.write ⟨b, right⟩) := by
  rw [Dialect.write_append]
  simp [Dialect.linkText, dialect]

theorem fits_cons_iff :
    Fits schema ⟨a, (l, b) :: rest⟩ ↔
      IsOperand schema a ∧ GapsFit l b ∧ Fits schema ⟨b, rest⟩ :=
  Chain.forall_cons_iff

theorem fits_append_iff :
    Fits schema ⟨a, left ++ (l, b) :: right⟩ ↔
      Fits schema ⟨a, left⟩ ∧ GapsFit l b ∧ Fits schema ⟨b, right⟩ :=
  Chain.forall_append_iff

theorem splittable_fits (schema : Schema) : Dialect.Splittable (Fits schema) := by
  intro a left l b right hfits
  rcases fits_append_iff.1 hfits with ⟨hleft, -, hright⟩
  exact ⟨hleft, hright⟩

theorem settled_symbol (op : Operator) : Settled [op.symbol] := Settled.one (by cases op <;> rfl)

theorem settled_link (ha : Settled a) (hgap : GapsFit l b) (hb : Settled s) :
    Settled (a ++ l.before ++ l.op.symbol :: (l.after ++ s)) := by
  have hbefore : Settled l.before := Settled.of_inert (isInert_of_allBlank hgap.before)
  have hafter : Settled l.after := Settled.of_inert (isInert_of_allBlank hgap.after)
  exact (ha.append hbefore).append ((settled_symbol l.op).append (hafter.append hb))

theorem settled_write (hname : IsIdentifier schema.numeric) (hfits : Fits schema c) :
    Settled (dialect.write c) := by
  rcases c with ⟨a, rest⟩
  induction rest generalizing a with
  | nil =>
      rw [write_single]
      exact (hfits.1 a List.mem_cons_self).settled hname
  | cons x rest ih =>
      rcases fits_cons_iff.1 hfits with ⟨ha, hgap, hrest⟩
      rw [write_cons]
      exact settled_link (ha.settled hname) hgap (ih x.2 hrest)

theorem head?_write (hname : IsIdentifier schema.numeric) (hfits : Fits schema ⟨a, rest⟩) :
    (dialect.write ⟨a, rest⟩).head? = a.head? := by
  have hne := (hfits.1 a List.mem_cons_self).ne_nil hname
  cases a with
  | nil => exact absurd rfl hne
  | cons c a => rfl

theorem write_ne_nil (hname : IsIdentifier schema.numeric) (hfits : Fits schema c) :
    dialect.write c ≠ [] := by
  have hne := (hfits.1 c.first List.mem_cons_self).ne_nil hname
  simp [Dialect.write, hne]

theorem isBlank_getLast?_write (hname : IsIdentifier schema.numeric) (hfits : Fits schema c) :
    ∀ d, (dialect.write c).getLast? = some d → isBlank d = false := by
  rcases c with ⟨a, rest⟩
  induction rest generalizing a with
  | nil =>
      rw [write_single]
      exact ((hfits.1 a List.mem_cons_self).ends hname).2
  | cons x rest ih =>
      -- the text ends where its last operand does, which is never empty
      rcases fits_cons_iff.1 hfits with ⟨-, -, hrest⟩
      intro d hd
      have hlast : (dialect.write ⟨x.2, rest⟩).getLast? = some d := by
        cases h : (dialect.write ⟨x.2, rest⟩).getLast? with
        | none => exact absurd (List.getLast?_eq_none_iff.1 h) (write_ne_nil hname hrest)
        | some e =>
            rw [write_cons] at hd
            simpa [List.getLast?_append, List.getLast?_cons, h] using hd
      exact ih x.2 hrest d hlast

/-- A chain of operands has no blank at an end. -/
theorem trim_write (hname : IsIdentifier schema.numeric) (hfits : Fits schema c) :
    trim (dialect.write c) = dialect.write c := by
  refine trim_eq_self ?_ (isBlank_getLast?_write hname hfits)
  intro d hd
  rw [head?_write hname hfits] at hd
  exact ((hfits.1 c.first List.mem_cons_self).ends hname).1 d hd

/-! ## The operators of a chain -/

theorem maskGroups_link (ha : Settled a) (hgap : GapsFit l b) (s : Text) :
    maskGroups (a ++ l.before ++ l.op.symbol :: (l.after ++ s)) =
      maskGroups a ++ l.before ++ l.op.symbol :: (l.after ++ maskGroups s) := by
  have hrun : Scan.start.run (a ++ l.before) = .start := by
    rw [Scan.run_append, ha.run, Scan.run_blank hgap.before]
  have hsymbol : maskGroups (l.op.symbol :: (l.after ++ s)) =
      l.op.symbol :: maskGroups (l.after ++ s) := by
    have hinert : ∀ c ∈ [l.op.symbol], isInert c = true := by
      cases l.op <;> decide
    have happend := maskGroups_append (settled_symbol l.op).run (l.after ++ s)
    rw [maskGroups_inert hinert] at happend
    exact happend
  rw [maskGroups_append hrun, maskGroups_append_blank ha.run hgap.before, hsymbol,
    maskGroups_blank_append hgap.after]

/-- After an operator and its blanks the next operand may begin. -/
theorem opens_link (hgap : GapsFit l b)
    (hhead : ∀ c, m.head? = some c → IsPlusMinus c → b.head? = some c) (before : Text) :
    Opens (l.after.reverse ++ l.op.symbol :: before) m := by
  refine ⟨?_, ?_⟩
  · -- the character just before `m` is the last blank, or the symbol if there are none
    rcases List.eq_nil_or_concat l.after with hnil | ⟨front, d, hfront⟩
    · rw [hnil]
      exact fresh_symbol l.op before
    · have hd : isBlank d = true := allBlank_iff.1 hgap.after d (by simp [hfront])
      have hrev : l.after.reverse ++ l.op.symbol :: before =
          d :: (front.reverse ++ l.op.symbol :: before) := by
        simp [hfront]
      rw [hrev]
      exact fresh_of_isBlank hd _
  · intro c hc hsign
    exact joinsOperands_symbol l.op (hgap.sign c (hhead c hc hsign) hsign) before

/-- The operator behind an operand, and those that follow. -/
theorem operatorsFrom_link (hm : Plain m) (hopens : Opens before m) (hgap : GapsFit l b)
    (offset : Nat) (s : Text) :
    operatorsFrom before offset (m ++ l.before ++ l.op.symbol :: (l.after ++ s)) =
      (offset + byteSize (m ++ l.before), l.op) ::
        operatorsFrom (l.after.reverse ++ l.op.symbol :: ((m ++ l.before).reverse ++ before))
          (offset + byteSize (m ++ l.before) + l.op.symbol.utf8Size + byteSize l.after) s := by
  have hnone : ∀ {g : Text}, allBlank g = true → ∀ c ∈ g, Operator.ofSymbol? c = none :=
    fun hg c hc => ofSymbol?_of_isBlank (allBlank_iff.1 hg c hc)
  -- behind an operand a sign joins, so the symbol is an operator whichever it is
  have hjoins : joinsOperands ((m ++ l.before).reverse ++ before) = true := by
    simpa using joinsOperands_of_plain hm hopens.1 hgap.before
  have hfront : operatorsFrom before offset (m ++ l.before) = [] := by
    rw [operatorsFrom_append, hm.silent before offset hopens, operatorsFrom_of_none (hnone hgap.before)]
    rfl
  rw [operatorsFrom_append, hfront, List.nil_append, operatorsFrom_cons,
    operatorAt?_of_joins l.op hjoins, operatorsFrom_append, operatorsFrom_of_none (hnone hgap.after)]
  rfl

theorem operatorsFrom_write (hname : IsIdentifier schema.numeric) (hfits : Fits schema ⟨a, rest⟩)
    (hopens : Opens before (maskGroups a)) (offset : Nat) :
    (operatorsFrom before offset (maskGroups (dialect.write ⟨a, rest⟩))).map Prod.snd =
      Chain.operators rest := by
  -- `Opens` holds before each operand in turn, so its leading sign is never taken for an operator
  induction rest generalizing a before offset with
  | nil =>
      have hplain := ((hfits.1 a List.mem_cons_self).plain hname).1
      rw [write_single, hplain.silent before offset hopens]
      rfl
  | cons x rest ih =>
      rcases fits_cons_iff.1 hfits with ⟨ha, hgap, hrest⟩
      have hnext := opens_link hgap ((hrest.1 x.2 List.mem_cons_self).plain hname).2
        ((maskGroups a ++ x.1.before).reverse ++ before)
      rw [write_cons, maskGroups_link (ha.settled hname) hgap,
        operatorsFrom_link (ha.plain hname).1 hopens hgap, List.map_cons, ih hrest hnext]
      rfl

/-- The operators of a chain around one of its links. -/
theorem operatorsFrom_write_append (hname : IsIdentifier schema.numeric)
    (hfits : Fits schema ⟨a, left ++ (l, b) :: right⟩) (hopens : Opens before (maskGroups a))
    (offset : Nat) :
    ∃ found found', operatorsFrom before offset
        (maskGroups (dialect.write ⟨a, left ++ (l, b) :: right⟩)) =
      found ++ (offset + byteSize (dialect.write ⟨a, left⟩ ++ l.before), l.op) :: found' ∧
        found.map Prod.snd = Chain.operators left ∧ found'.map Prod.snd = Chain.operators right := by
  induction left generalizing a before offset with
  | nil =>
      rcases fits_cons_iff.1 hfits with ⟨ha, hgap, hrest⟩
      have hnext := opens_link hgap ((hrest.1 b List.mem_cons_self).plain hname).2
        ((maskGroups a ++ l.before).reverse ++ before)
      -- offsets count the bytes of the mask, which are those of the text
      have hsize : byteSize (maskGroups a ++ l.before) = byteSize (a ++ l.before) := by
        rw [byteSize_append, byteSize_append, maskGroups, byteSize_mask]
      have hright := operatorsFrom_write hname hrest hnext
        (offset + byteSize (maskGroups a ++ l.before) + l.op.symbol.utf8Size + byteSize l.after)
      refine ⟨[], _, ?_, rfl, hright⟩
      rw [List.nil_append, write_cons, maskGroups_link (ha.settled hname) hgap,
        operatorsFrom_link (ha.plain hname).1 hopens hgap, write_single, hsize]
      rfl
  | cons x left ih =>
      rcases fits_cons_iff.1 hfits with ⟨ha, hgap, hrest⟩
      have hnext := opens_link hgap ((hrest.1 x.2 List.mem_cons_self).plain hname).2
        ((maskGroups a ++ x.1.before).reverse ++ before)
      have hsize : byteSize (maskGroups a ++ x.1.before) = byteSize (a ++ x.1.before) := by
        rw [byteSize_append, byteSize_append, maskGroups, byteSize_mask]
      rcases ih hrest hnext (offset + byteSize (maskGroups a ++ x.1.before) +
        x.1.op.symbol.utf8Size + byteSize x.1.after) with ⟨found, found', heq, hleft, hright⟩
      refine ⟨(offset + byteSize (maskGroups a ++ x.1.before), x.1.op) :: found, found', ?_, ?_,
        hright⟩
      · rw [List.cons_append, write_cons, maskGroups_link (ha.settled hname) hgap,
          operatorsFrom_link (ha.plain hname).1 hopens hgap, heq, write_cons, hsize]
        simp [Nat.add_assoc]
      · rw [List.map_cons, hleft]
        rfl

/-! ## Reading a chain -/

theorem split?_write (hname : IsIdentifier schema.numeric)
    (hfits : Fits schema ⟨a, left ++ (l, b) :: right⟩)
    (hroot : Chain.IsRoot dialect.tiers (Chain.operators left) l.op (Chain.operators right)) :
    split? (dialect.write ⟨a, left ++ (l, b) :: right⟩) =
      some (l.op, dialect.write ⟨a, left⟩ ++ l.before, l.after ++ dialect.write ⟨b, right⟩) := by
  -- at the front of the text an operand may begin, signed or not
  have hopens : Opens [] (maskGroups a) := by
    refine ⟨?_, fun c _ _ => rfl⟩
    intro c hc
    cases hc
  rcases operatorsFrom_write_append hname hfits hopens 0 with ⟨found, found', heq, hleft, hright⟩
  rw [Nat.zero_add] at heq
  rw [← hleft, ← hright] at hroot
  have hsome := rootOperator?_of_isRoot heq hroot
  rw [write_append] at hsome ⊢
  exact split?_of_root hsome

theorem tidy_write (hname : IsIdentifier schema.numeric)
    (hfits : Fits schema ⟨a, left ++ (l, b) :: right⟩) :
    tidy (dialect.write ⟨a, left ++ (l, b) :: right⟩) =
      .ok (dialect.write ⟨a, left ++ (l, b) :: right⟩) := by
  rcases splittable_fits schema a left l b right hfits with ⟨hleft, hright⟩
  have hgap := hfits.2 (l, b) (by simp)
  have hbefore : Settled l.before := Settled.of_inert (isInert_of_allBlank hgap.before)
  have hfirst := (settled_write hname hleft).append hbefore
  have hne : dialect.write ⟨a, left⟩ ++ l.before ≠ [] := by
    simp [write_ne_nil hname hleft]
  have hunwrapped := unwrapped_append hfirst.balanced hfirst.quoteClosed hne
    (List.cons_ne_nil l.op.symbol (l.after ++ dialect.write ⟨b, right⟩))
  rw [← write_append, ← trim_write hname hfits] at hunwrapped
  rw [tidy_of_unwrapped (settled_write hname hfits).balanced hunwrapped, trim_write hname hfits]

theorem splitsAtRoot (hname : IsIdentifier schema.numeric) :
    dialect.SplitsAtRoot (read schema) (Fits schema) := by
  intro a left l b right hfits hroot _ x y hx hy
  rcases splittable_fits schema a left l b right hfits with ⟨hleft, hright⟩
  have hgap := hfits.2 (l, b) (by simp)
  have hnotBlank : ∀ {c}, Fits schema c → allBlank (dialect.write c) = false := by
    intro c hc
    cases h : allBlank (dialect.write c) with
    | false => rfl
    | true =>
        have hnil := trim_of_allBlank h
        rw [trim_write hname hc] at hnil
        exact absurd hnil (write_ne_nil hname hc)
  -- the blanks of the root are read with its sides, where they are trimmed away
  have hx' : read schema (dialect.write ⟨a, left⟩ ++ l.before) = .ok x := by
    rw [← hx]
    exact read_congr schema (trim_append_of_allBlank_right _ hgap.before)
  have hy' : read schema (l.after ++ dialect.write ⟨b, right⟩) = .ok y := by
    rw [← hy]
    exact read_congr schema (trim_append_of_allBlank_left hgap.after _)
  rw [trim_write hname hfits]
  refine read_complete (Reads.binary (tidy_write hname hfits) (write_ne_nil hname hfits)
    (split?_write hname hfits hroot) ?_ ?_ (read_sound hx') (read_sound hy'))
  · simp [hnotBlank hleft]
  · simp [hnotBlank hright]

/-- Every chain of operands can be read. -/
theorem exists_read_write (hname : IsIdentifier schema.numeric) (hfits : Fits schema c) :
    ∃ tree, read schema (dialect.write c) = .ok tree := by
  have hleaf : ∀ a ∈ c.items,
      read schema a = .ok ((read schema a).toOption.getD (.field schema.numeric)) := by
    intro a ha
    rcases (hfits.1 a ha).read hname with ⟨tree, htree⟩
    rw [htree]
    rfl
  exact ⟨_, Dialect.read_write (splittable_fits schema) (splitsAtRoot hname) c hfits hleaf⟩

/-! ## The chain of a text that can be read -/

theorem isOperand_of_readLeaf (h : readLeaf schema s = .ok tree) : IsOperand schema s := by
  unfold readLeaf at h
  split at h
  case isTrue hnumeric =>
    have heq : schema.numeric = s := by
      simpa [Schema.isNumeric] using hnumeric
    exact heq ▸ IsOperand.field
  case isFalse =>
    split at h
    case isTrue => cases h
    case isFalse hallowed =>
      split at h
      case h_1 x hx =>
        exact IsOperand.number hx fun hmem => absurd (List.contains_iff_mem.2 hmem) hallowed
      case h_2 => cases h

/-- A text in parentheses that can be read is an operand; other tidy texts are as they stand. -/
theorem isOperand_or_unwrapped (hs : Balanced s) (h : Reads schema s tree) :
    IsOperand schema (trim s) ∨ tidy s = .ok (trim s) := by
  by_cases hwrap : ∃ inner, trim s = '(' :: inner ++ [')'] ∧ dips inner = false
  · rcases hwrap with ⟨inner, heq, hdips⟩
    have hbalanced := balanced_of_group (heq ▸ balanced_trim_iff.2 hs) hdips
    have htidy : tidy s = tidy inner := by
      rw [tidy_of_balanced hs, tidy_of_balanced hbalanced, ← unwrap_trim, heq, unwrap_group hdips]
    rw [heq]
    exact Or.inl (IsOperand.group hbalanced (read_complete (h.of_tidy_eq htidy)))
  · apply Or.inr
    have hunwrapped : Unwrapped (trim s) := by
      intro inner heq
      cases hdips : dips inner with
      | true => rfl
      | false => exact absurd ⟨inner, heq, hdips⟩ hwrap
    exact tidy_of_unwrapped hs hunwrapped

/-- Behind a blank outside ASCII the symbol of an operator is one, also where it could be a sign. -/
theorem mem_operators_of_other_blank {p : Text} (hx : Settled x) (hp : allBlank p = true)
    (hother : ∃ d ∈ p, isAsciiBlank d = false) (op op' : Operator) (w : Text) :
    (byteSize (maskGroups x ++ op.symbol :: p), op') ∈
      operators (x ++ op.symbol :: (p ++ op'.symbol :: w)) := by
  have hmask : maskGroups (x ++ op.symbol :: (p ++ op'.symbol :: w)) =
      (maskGroups x ++ op.symbol :: p) ++ op'.symbol :: maskGroups w := by
    have hgap : GapsFit ⟨[], op, p⟩ [] := ⟨rfl, hp, fun c hc => by cases hc⟩
    have hgap' : GapsFit ⟨[], op', []⟩ [] := ⟨rfl, rfl, fun c hc => by cases hc⟩
    have hlink := maskGroups_link hx hgap (op'.symbol :: w)
    have hlink' := maskGroups_link Settled.nil hgap' w
    simp only [List.append_nil, List.nil_append] at hlink hlink'
    rw [hlink, hlink']
    simp [maskGroups, mask]
  have hjoins : joinsOperands ((maskGroups x ++ op.symbol :: p).reverse ++ []) = true := by
    have hjoins' := joinsOperands_of_other_blank hp hother (op.symbol :: (maskGroups x).reverse)
    simpa using hjoins'
  exact mem_operatorsFrom_iff.2
    ⟨_, _, _, hmask, (Nat.zero_add _).symm, operatorAt?_of_joins op' hjoins⟩

/-- A sign that begins the right operand follows ASCII blanks only: behind any other blank it would
be an operator, and the reader would have split there. -/
theorem gapsFit_of_split? {op : Operator} {p q : Text} (hname : IsIdentifier schema.numeric)
    (hsplit : split? s = some (op, x, p ++ dialect.write c)) (hx : Settled x)
    (hp : allBlank p = true) (hq : allBlank q = true) (hfits : Fits schema c) :
    GapsFit ⟨q, op, p⟩ c.first := by
  refine ⟨hq, hp, ?_⟩
  intro σ hfirst hsign d hd
  cases hblank : isAsciiBlank d with
  | true => rfl
  | false =>
      exfalso
      rcases split?_eq_some hsplit with ⟨rfl, hroot⟩
      have hhead : (dialect.write c).head? = some σ := (head?_write hname hfits).trans hfirst
      rcases List.head?_eq_some_iff.1 hhead with ⟨w, hw⟩
      have hsymbol : ∃ op' : Operator, op'.tier = .additive ∧ σ = op'.symbol := by
        rcases hsign with rfl | rfl
        · exact ⟨.add, rfl, rfl⟩
        · exact ⟨.sub, rfl, rfl⟩
      rcases hsymbol with ⟨op', hadditive, rfl⟩
      have hmem := mem_operators_of_other_blank hx hp ⟨d, hd, hblank⟩ op op' w
      rw [← hw] at hmem
      -- a sum or difference behind the root contradicts the choice of the root
      have hlater : byteSize x < byteSize (maskGroups x ++ op.symbol :: p) := by
        have hsize : byteSize (maskGroups x) = byteSize x := byteSize_mask _ _ x
        have hpos := op.symbol.utf8Size_pos
        simp only [byteSize_append, byteSize_cons, hsize]
        omega
      exact tier_ne_additive_of_root hroot hmem hlater hadditive

/-- A trimmed text, cut at a character, has blanks at the inner ends of its two sides only. -/
theorem exists_inner_blanks {d : Char} (h : trim s = x ++ d :: y) :
    ∃ q p, allBlank q = true ∧ allBlank p = true ∧ x = trim x ++ q ∧ y = p ++ trim y := by
  rcases exists_trimEnd x with ⟨q, hq, hxq⟩
  rcases exists_trimStart y with ⟨p, hp, hyp⟩
  have hx : trimEnd x = trim x := by
    rw [trim, trimStart_eq_self]
    intro c hc
    refine isBlank_head?_trim (s := s) ?_
    rw [h, List.head?_append, hc]
    rfl
  have hy : trimStart y = trim y := by
    rw [trim, trimEnd_eq_self]
    intro c hc
    refine isBlank_getLast?_trim (s := s) ?_
    rw [h, hyp]
    simp [List.getLast?_append, List.getLast?_cons, hc]
  exact ⟨q, p, hq, hp, hx ▸ hxq, hy ▸ hyp⟩

/-- A balanced text that can be read is a chain of operands. -/
theorem exists_chain_of_reads (hname : IsIdentifier schema.numeric) (hs : Balanced s)
    (h : Reads schema s tree) : ∃ c, Fits schema c ∧ trim s = dialect.write c := by
  have hsingle : ∀ {t : Text}, IsOperand schema t → ∃ c, Fits schema c ∧ t = dialect.write c := by
    intro t ht
    refine ⟨⟨t, []⟩, ⟨?_, fun x hx => by cases hx⟩, (write_single t).symm⟩
    intro i hi
    have hit : i = t := by
      simpa [Chain.items] using hi
    exact hit ▸ ht
  -- parentheses around the text make it one operand, whatever the reader did inside them
  induction h with
  | @leaf s raw tree htidy hne hsplit hleaf =>
      rcases isOperand_or_unwrapped hs (Reads.leaf htidy hne hsplit hleaf) with hoperand | hplain
      · exact hsingle hoperand
      · rw [htidy] at hplain
        cases hplain
        exact hsingle (isOperand_of_readLeaf hleaf)
  | @binary s raw x y op a b htidy hne hsplit hblank hblank' hx hy ihx ihy =>
      rcases isOperand_or_unwrapped hs (Reads.binary htidy hne hsplit hblank hblank' hx hy) with
        hoperand | hplain
      · exact hsingle hoperand
      · rw [htidy] at hplain
        cases hplain
        rcases settled_of_split? (balanced_trim_iff.2 hs) hsplit with ⟨hxs, hys⟩
        rcases ihx hxs.balanced with ⟨c, hc, hcx⟩
        rcases ihy hys with ⟨d, hd, hdy⟩
        have heq := (split?_eq_some hsplit).1
        rcases exists_inner_blanks heq with ⟨q, p, hq, hp, hxq, hyp⟩
        rw [hcx] at hxq
        rw [hdy] at hyp
        have hgap := gapsFit_of_split? hname (hyp ▸ hsplit) hxs hp hq hd
        refine ⟨⟨c.first, c.rest ++ (⟨q, op, p⟩, d.first) :: d.rest⟩, ?_, ?_⟩
        · exact fits_append_iff.2 ⟨hc, hgap, hd⟩
        · rw [write_append, heq, hxq, hyp]

/-! ## Precedence -/

/-- Operands with ASCII blanks around operators, or none. -/
def AsciiFits (schema : Schema) (c : Chain Operator Text) : Prop :=
  (∀ a ∈ c.items, IsOperand schema a) ∧
    ∀ x ∈ c.rest, ∀ d ∈ x.1.before ++ x.1.after, isAsciiBlank d = true

theorem AsciiFits.fits (h : AsciiFits schema c) : Fits schema c := by
  rcases h with ⟨hitems, hgaps⟩
  refine ⟨hitems, ?_⟩
  intro x hx
  have hblank : ∀ d ∈ x.1.before ++ x.1.after, isBlank d = true :=
    fun d hd => isBlank_of_isAsciiBlank (hgaps x hx d hd)
  refine ⟨allBlank_iff.2 ?_, allBlank_iff.2 ?_, ?_⟩
  · exact fun d hd => hblank d (List.mem_append_left _ hd)
  · exact fun d hd => hblank d (List.mem_append_right _ hd)
  · exact fun _ _ _ d hd => hgaps x hx d (List.mem_append_right _ hd)

/-- A chain of operands is read as its tree, with the trees of the operands at its leaves, and every
balanced text that is read is a chain of operands between the blanks at its ends.  Operands with ASCII
blanks around the operators, or none, always make a chain. -/
theorem read_chain_of_operands (schema : Schema) (hname : IsIdentifier schema.numeric) :
    (∀ c, Fits schema c →
      (∀ a ∈ c.items, ∃ tree, read schema a = .ok tree) ∧
      ∀ leaf : Text → Arithmetic, (∀ a ∈ c.items, read schema a = .ok (leaf a)) →
        read schema (dialect.write c) = .ok (dialect.tree leaf c)) ∧
    (∀ c, AsciiFits schema c → Fits schema c) ∧
    ∀ s tree, Balanced s → read schema s = .ok tree →
      ∃ c, Fits schema c ∧ trim s = dialect.write c := by
  refine ⟨?_, fun _ => AsciiFits.fits, ?_⟩
  · intro c hfits
    refine ⟨fun a ha => (hfits.1 a ha).read hname, fun leaf hleaf => ?_⟩
    exact Dialect.read_write (splittable_fits schema) (splitsAtRoot hname) c hfits hleaf
  · intro s tree hs hread
    exact exists_chain_of_reads hname hs (read_sound hread)

/-- The sign of a number and that of an exponent are no operators; the product binds tighter than
the difference. -/
theorem read_difference_of_product :
    ∃ x, Number.read? "-1e+5".toList = some x ∧
      read .default "result - -1e+5*(result)".toList =
        .ok (.binary .sub (.field "result".toList)
          (.binary .mul (.number "-1e+5".toList x) (.field "result".toList)
            "-1e+5*(result)".toList)
          "result - -1e+5*(result)".toList) := by
  have hname : IsIdentifier Schema.default.numeric := ⟨'r', "esult".toList, rfl, rfl, by decide⟩
  rcases read_chain_of_operands .default hname with ⟨hchain, hascii, -⟩
  have hfield : read .default "result".toList = .ok (.field "result".toList) :=
    read_of_leaf (by decide) (plain_identifier hname) rfl
  have hgroup : read .default "(result)".toList = .ok (.field "result".toList) :=
    (read_group .default ⟨by decide, by decide⟩).2 hfield
  rcases (⟨_, rfl⟩ : ∃ x, Number.read? "-1e+5".toList = some x) with ⟨x, hx⟩
  refine ⟨x, hx, ?_⟩
  have hleaf : readLeaf .default "-1e+5".toList = .ok (.number "-1e+5".toList x) := by
    have hnumeric : Schema.default.isNumeric "-1e+5".toList = false := by decide
    have hallowed : Schema.default.isAllowed "-1e+5".toList = false := by decide
    rw [readLeaf, hnumeric, hallowed, hx]
    rfl
  have hnumber : read .default "-1e+5".toList = .ok (.number "-1e+5".toList x) :=
    read_of_leaf (by decide) (plain_number (shape_of_read? hx)) hleaf
  let c : Chain Operator Text :=
    ⟨"result".toList, [(⟨[' '], .sub, [' ']⟩, "-1e+5".toList), (⟨[], .mul, []⟩, "(result)".toList)]⟩
  have hfits : AsciiFits .default c := by
    refine ⟨?_, ?_⟩
    · intro a ha
      simp only [c, Chain.items, List.map_cons, List.map_nil, List.mem_cons, List.not_mem_nil,
        or_false] at ha
      rcases ha with rfl | rfl | rfl
      · exact IsOperand.field
      · exact IsOperand.number hx (by decide)
      · exact IsOperand.group (by decide) hfield
    · intro x hx
      simp only [c, List.mem_cons, List.not_mem_nil, or_false] at hx
      rcases hx with rfl | rfl
      · decide
      · decide
  refine (hchain c (hascii c hfits)).2
    (fun a => if a = "-1e+5".toList then .number a x else .field "result".toList) ?_
  intro a ha
  simp only [c, Chain.items, List.map_cons, List.map_nil, List.mem_cons, List.not_mem_nil,
    or_false] at ha
  rcases ha with rfl | rfl | rfl
  · exact hfield
  · exact hnumber
  · exact hgroup

/-! ## Other blanks -/

theorem mem_write {d : Char} (h : d ∈ dialect.write c) :
    (∃ a ∈ c.items, d ∈ a) ∨
      ∃ x ∈ c.rest, d ∈ x.1.before ++ x.1.after ∨ d = x.1.op.symbol := by
  rcases c with ⟨a, rest⟩
  induction rest generalizing a with
  | nil =>
      rw [write_single] at h
      exact Or.inl ⟨a, List.mem_cons_self, h⟩
  | cons x rest ih =>
      rw [write_cons, List.mem_append, List.mem_append, List.mem_cons, List.mem_append] at h
      rcases h with (ha | hbefore) | hop | hafter | hrest
      · exact Or.inl ⟨a, List.mem_cons_self, ha⟩
      · exact Or.inr ⟨x, List.mem_cons_self, Or.inl (List.mem_append_left _ hbefore)⟩
      · exact Or.inr ⟨x, List.mem_cons_self, Or.inr hop⟩
      · exact Or.inr ⟨x, List.mem_cons_self, Or.inl (List.mem_append_right _ hafter)⟩
      · rcases ih x.2 hrest with ⟨b, hb, hd⟩ | ⟨y, hy, hd⟩
        · exact Or.inl ⟨b, List.mem_cons_of_mem _ hb, hd⟩
        · exact Or.inr ⟨y, List.mem_cons_of_mem _ hy, hd⟩

theorem mem_write_of_mem_item {d : Char} (ha : a ∈ c.items) (hd : d ∈ a) :
    d ∈ dialect.write c := by
  rcases c with ⟨b, rest⟩
  rcases List.mem_cons.1 ha with rfl | ha
  · simp [Dialect.write, hd]
  · rcases List.mem_map.1 ha with ⟨x, hx, rfl⟩
    refine List.mem_append_right _ (List.mem_flatMap.2 ⟨x, hx, ?_⟩)
    exact List.mem_append_right _ hd

/-- A no-break space may stand around an operator too. -/
theorem read_no_break_space :
    Balanced "1\u00a0+ 1".toList ∧
      (∃ tree, read .default "1\u00a0+ 1".toList = .ok tree) ∧
      ¬∃ c, AsciiFits .default c ∧ trim "1\u00a0+ 1".toList = dialect.write c := by
  have hname : IsIdentifier Schema.default.numeric := ⟨'r', "esult".toList, rfl, rfl, by decide⟩
  refine ⟨by decide, ?_, ?_⟩
  · let c : Chain Operator Text := ⟨['1'], [(⟨['\u00a0'], .add, [' ']⟩, ['1'])]⟩
    have hone : IsOperand .default ['1'] := IsOperand.number rfl (by decide)
    have hfits : Fits .default c := by
      refine ⟨?_, ?_⟩
      · intro a ha
        simp only [c, Chain.items, List.map_cons, List.map_nil, List.mem_cons, List.not_mem_nil,
          or_false, or_self] at ha
        exact ha ▸ hone
      · intro x hx
        simp only [c, List.mem_cons, List.not_mem_nil, or_false] at hx
        subst hx
        exact ⟨rfl, rfl, fun _ _ _ => by decide⟩
    exact exists_read_write hname hfits
  · rintro ⟨c, ⟨hitems, hgaps⟩, heq⟩
    have hmem : '\u00a0' ∈ dialect.write c := heq ▸ (by decide)
    rcases mem_write hmem with ⟨a, ha, hspace⟩ | ⟨x, hx, hgap | hop⟩
    · -- an operand holds other blanks in parentheses only, and there are none
      rcases (hitems a ha).leaf_or_group hname with ⟨hinert, -, -⟩ | ⟨e, tree, rfl, -, -⟩
      · exact absurd (hinert _ hspace).2 (by decide)
      · have hparen : '(' ∈ dialect.write c := mem_write_of_mem_item ha List.mem_cons_self
        rw [← heq] at hparen
        exact absurd hparen (by decide)
    · exact absurd (hgaps x hx _ hgap) (by decide)
    · cases hsymbol : x.1.op <;> rw [hsymbol] at hop <;> exact absurd hop (by decide)

end Arithmetic
end RecordFilter
