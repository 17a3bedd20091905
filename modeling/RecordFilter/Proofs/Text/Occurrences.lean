import Mathlib.Order.Bounds.Basic
import RecordFilter.Text.Search

/-!
# Occurrences — where a needle stands, piece by piece

The places where a needle stands are its splits of the text (`mem_occurrencesFrom_iff`), listed from
left to right (`wordOffsets_pairwise`), so the first one is the least (`head?_offsets_eq_some_iff`) and
the last one the greatest (`getLast?_wordOffsets_eq_some_iff`).  A character that the needle does not have separates the text:
no occurrence crosses it (`offsets_append_cons`), and if it is no word character either, the whole
words on both sides are whole words of the text (`wordOffsets_append_cons`).
-/

namespace RecordFilter
namespace Text

variable {needle word hay a b : Text} {c : Char} {i : Nat}

/-- Offsets of all occurrences, from left to right. -/
def offsets (needle hay : Text) : List Nat := (occurrences needle hay).map (·.offset)

/-- Offsets of the occurrences as whole words, from left to right. -/
def wordOffsets (word hay : Text) : List Nat :=
  ((occurrences word hay).filter (·.isWordBounded)).map (·.offset)

/-! ## Occurrences are splits -/

/-- An occurrence in a text that begins with `c` is at its front or in its rest. -/
theorem occurrencesFrom_cons (before : Option Char) (offset : Nat) (c : Char) (rest : Text) :
    occurrencesFrom needle before offset (c :: rest) =
      (if needle.isPrefixOf (c :: rest) then
        [⟨offset, before, ((c :: rest).drop needle.length).head?⟩] else []) ++
        occurrencesFrom needle (some c) (offset + c.utf8Size) rest := by
  simp only [occurrencesFrom]
  split <;> rfl

theorem mem_occurrencesFrom_iff (hn : needle ≠ []) {before : Option Char} {offset : Nat}
    {o : Occurrence} :
    o ∈ occurrencesFrom needle before offset hay ↔
      ∃ p q, hay = p ++ needle ++ q ∧
        o = ⟨offset + byteSize p, p.getLast?.or before, q.head?⟩ := by
  induction hay generalizing before offset with
  | nil => simp [occurrencesFrom, hn]
  | cons c rest ih =>
      -- an occurrence in the rest is one behind a longer piece of the whole
      have hfurther : o ∈ occurrencesFrom needle (some c) (offset + c.utf8Size) rest ↔
          ∃ p q, c :: rest = (c :: p) ++ needle ++ q ∧
            o = ⟨offset + byteSize (c :: p), (c :: p).getLast?.or before, q.head?⟩ := by
        rw [ih]
        simp [List.getLast?_cons, Nat.add_assoc]
      rw [occurrencesFrom_cons, List.mem_append, hfurther]
      constructor
      · rintro (hfront | ⟨p, q, heq, ho⟩)
        · split at hfront
          case isTrue hprefix =>
            rcases List.isPrefixOf_iff_prefix.1 hprefix with ⟨q, hq⟩
            refine ⟨[], q, hq.symm, ?_⟩
            rw [← hq, List.drop_left] at hfront
            simpa using hfront
          case isFalse => cases hfront
        · exact ⟨c :: p, q, heq, ho⟩
      · rintro ⟨p, q, heq, ho⟩
        cases p with
        | nil =>
            have hprefix : needle.isPrefixOf (c :: rest) = true :=
              List.isPrefixOf_iff_prefix.2 ⟨q, heq.symm⟩
            apply Or.inl
            rw [if_pos hprefix, heq, List.nil_append, List.drop_left]
            simpa using ho
        | cons d p =>
            rcases List.cons.inj heq with ⟨rfl, -⟩
            exact Or.inr ⟨p, q, heq, ho⟩

theorem occurrences_eq (hn : needle ≠ []) (hay : Text) :
    occurrences needle hay = occurrencesFrom needle none 0 hay := by
  simp [occurrences, hn]

theorem mem_offsets_iff (hn : needle ≠ []) :
    i ∈ offsets needle hay ↔ ∃ p q, hay = p ++ needle ++ q ∧ i = byteSize p := by
  simp only [offsets, occurrences_eq hn, List.mem_map, mem_occurrencesFrom_iff hn]
  constructor
  · rintro ⟨o, ⟨p, q, heq, rfl⟩, rfl⟩
    exact ⟨p, q, heq, by simp⟩
  · rintro ⟨p, q, heq, rfl⟩
    exact ⟨_, ⟨p, q, heq, rfl⟩, by simp⟩

theorem mem_wordOffsets_iff (hw : word ≠ []) :
    i ∈ wordOffsets word hay ↔
      ∃ p q, hay = p ++ word ++ q ∧ i = byteSize p ∧
        p.getLast?.any isWordChar = false ∧ q.head?.any isWordChar = false := by
  simp only [wordOffsets, occurrences_eq hw, List.mem_map, List.mem_filter,
    mem_occurrencesFrom_iff hw]
  constructor
  · rintro ⟨o, ⟨⟨p, q, heq, rfl⟩, hbounded⟩, rfl⟩
    simp only [Occurrence.isWordBounded, Bool.and_eq_true, Bool.not_eq_true', Option.or_none]
      at hbounded
    exact ⟨p, q, heq, by simp, hbounded.1, hbounded.2⟩
  · rintro ⟨p, q, heq, rfl, hbefore, hafter⟩
    refine ⟨_, ⟨⟨p, q, heq, rfl⟩, ?_⟩, by simp⟩
    simp [Occurrence.isWordBounded, hbefore, hafter]

/-! ## Occurrences are listed from left to right -/

theorem occurrencesFrom_pairwise (before : Option Char) (offset : Nat) (hay : Text) :
    (occurrencesFrom needle before offset hay).Pairwise (·.offset < ·.offset) ∧
      ∀ o ∈ occurrencesFrom needle before offset hay, offset ≤ o.offset := by
  induction hay generalizing before offset with
  | nil => simp [occurrencesFrom]
  | cons c rest ih =>
      rcases ih (some c) (offset + c.utf8Size) with ⟨hsorted, hfrom⟩
      have hpos := c.utf8Size_pos
      have hlater : ∀ o ∈ occurrencesFrom needle (some c) (offset + c.utf8Size) rest,
          offset < o.offset := fun o ho => by
        have := hfrom o ho
        omega
      rw [occurrencesFrom_cons]
      split
      · refine ⟨List.pairwise_cons.2 ⟨hlater, hsorted⟩, ?_⟩
        intro o ho
        rcases List.mem_cons.1 ho with rfl | ho
        · exact Nat.le_refl _
        · exact Nat.le_of_lt (hlater o ho)
      · exact ⟨hsorted, fun o ho => Nat.le_of_lt (hlater o ho)⟩

theorem occurrences_pairwise (needle hay : Text) :
    (occurrences needle hay).Pairwise (·.offset < ·.offset) := by
  unfold occurrences
  split
  · exact List.Pairwise.nil
  · exact (occurrencesFrom_pairwise none 0 hay).1

theorem offsets_pairwise (needle hay : Text) : (offsets needle hay).Pairwise (· < ·) :=
  List.pairwise_map.2 (occurrences_pairwise needle hay)

theorem wordOffsets_pairwise (word hay : Text) : (wordOffsets word hay).Pairwise (· < ·) :=
  List.pairwise_map.2 ((occurrences_pairwise word hay).filter _)

theorem head?_offsets_eq_some_iff :
    (offsets needle hay).head? = some i ↔ IsLeast {j | j ∈ offsets needle hay} i := by
  have hsorted := offsets_pairwise needle hay
  cases hoffsets : offsets needle hay with
  | nil => simp [IsLeast]
  | cons first more =>
      rw [hoffsets, List.pairwise_cons] at hsorted
      have hleast : IsLeast {j | j ∈ first :: more} first := by
        refine ⟨List.mem_cons_self, fun j hj => ?_⟩
        rcases List.mem_cons.1 hj with rfl | hj
        · exact Nat.le_refl _
        · exact Nat.le_of_lt (hsorted.1 j hj)
      rw [List.head?_cons, Option.some.injEq]
      exact ⟨fun h => h ▸ hleast, fun h => hleast.unique h⟩

theorem getLast?_wordOffsets_eq_some_iff :
    (wordOffsets word hay).getLast? = some i ↔ IsGreatest {j | j ∈ wordOffsets word hay} i := by
  have hsorted := wordOffsets_pairwise word hay
  rcases List.eq_nil_or_concat (wordOffsets word hay) with hoffsets | ⟨front, last, hoffsets⟩
  · simp [hoffsets, IsGreatest]
  · rw [List.concat_eq_append] at hoffsets
    rw [hoffsets, List.pairwise_append] at hsorted
    have hgreatest : IsGreatest {j | j ∈ front ++ [last]} last := by
      refine ⟨by simp, fun j hj => ?_⟩
      rcases List.mem_append.1 hj with hj | hj
      · exact Nat.le_of_lt (hsorted.2.2 j hj last List.mem_cons_self)
      · exact Nat.le_of_eq (List.mem_singleton.1 hj)
    rw [hoffsets, List.getLast?_concat, Option.some.injEq]
    exact ⟨fun h => h ▸ hgreatest, fun h => hgreatest.unique h⟩

/-! ## Separators -/

theorem isPrefixOf_append_cons (hc : c ∉ needle) (a b : Text) :
    needle.isPrefixOf (a ++ c :: b) = needle.isPrefixOf a := by
  induction needle generalizing a with
  | nil => simp
  | cons d needle ih =>
      have hne : d ≠ c := fun h => hc (h ▸ List.mem_cons_self)
      cases a with
      | nil => simp [List.isPrefixOf, hne]
      | cons x a =>
          have hrest := ih (fun h => hc (List.mem_cons_of_mem _ h)) a
          simp only [List.cons_append, List.isPrefixOf, hrest]

/-- Behind a separator the search starts anew, and an occurrence that ended the text before it is
now followed by it. -/
theorem occurrencesFrom_append_cons (hn : needle ≠ []) (hc : c ∉ needle) (before : Option Char)
    (offset : Nat) (a b : Text) :
    occurrencesFrom needle before offset (a ++ c :: b) =
      (occurrencesFrom needle before offset a).map
          (fun o => { o with after := o.after.or (some c) }) ++
        occurrencesFrom needle (some c) (offset + byteSize a + c.utf8Size) b := by
  induction a generalizing before offset with
  | nil =>
      have hnot : needle.isPrefixOf (c :: b) = false := by
        rw [← List.nil_append (c :: b), isPrefixOf_append_cons hc]
        cases needle with
        | nil => exact absurd rfl hn
        | cons d needle => rfl
      rw [List.nil_append, occurrencesFrom_cons, hnot]
      simp [occurrencesFrom]
  | cons d a ih =>
      rw [List.cons_append, occurrencesFrom_cons, occurrencesFrom_cons, ih, List.map_append,
        List.append_assoc]
      congr 1
      · -- the needle cannot reach over `c`, so it stands at the front of both or of neither
        rw [← List.cons_append, isPrefixOf_append_cons hc]
        split
        case isTrue hprefix =>
          have hlen := (List.isPrefixOf_iff_prefix.1 hprefix).length_le
          rw [List.drop_append_of_le_length hlen, List.head?_append]
          rfl
        case isFalse => rfl
      · rw [byteSize_cons, Nat.add_assoc offset]

theorem occurrencesFrom_add (before : Option Char) (k offset : Nat) (hay : Text) :
    occurrencesFrom needle before (k + offset) hay =
      (occurrencesFrom needle before offset hay).map
        (fun o => { o with offset := k + o.offset }) := by
  induction hay generalizing before offset with
  | nil => rfl
  | cons c rest ih =>
      rw [occurrencesFrom_cons, occurrencesFrom_cons, Nat.add_assoc, ih, List.map_append]
      congr 1
      split <;> rfl

theorem offsets_append_cons (hn : needle ≠ []) (hc : c ∉ needle) (a b : Text) :
    offsets needle (a ++ c :: b) =
      offsets needle a ++ (offsets needle b).map (byteSize a + c.utf8Size + ·) := by
  -- what stands before `b` is noted with the occurrences at its front and moves none of them
  have hbefore : ∀ offset, (occurrencesFrom needle (some c) offset b).map (·.offset) =
      (occurrencesFrom needle none offset b).map (·.offset) := by
    intro offset
    cases b with
    | nil => rfl
    | cons d rest =>
        rw [occurrencesFrom_cons, occurrencesFrom_cons, List.map_append, List.map_append]
        congr 1
        split <;> rfl
  simp only [offsets, occurrences_eq hn]
  rw [occurrencesFrom_append_cons hn hc, List.map_append, hbefore, Nat.zero_add]
  congr 1
  · simp
  · rw [← Nat.add_zero (byteSize a + c.utf8Size), occurrencesFrom_add]
    simp

theorem wordOffsets_append_cons (hw : word ≠ []) (hc : c ∉ word) (hplain : isWordChar c = false)
    (a b : Text) :
    wordOffsets word (a ++ c :: b) =
      wordOffsets word a ++ (wordOffsets word b).map (byteSize a + c.utf8Size + ·) := by
  -- `c` is no word character, so it bounds a word as well as an end of the text does
  have hbefore : ∀ offset,
      ((occurrencesFrom word (some c) offset b).filter (·.isWordBounded)).map (·.offset) =
        ((occurrencesFrom word none offset b).filter (·.isWordBounded)).map (·.offset) := by
    intro offset
    cases b with
    | nil => rfl
    | cons d rest =>
        rw [occurrencesFrom_cons, occurrencesFrom_cons, List.filter_append, List.filter_append,
          List.map_append, List.map_append]
        congr 1
        split
        · simp [List.filter_cons, Occurrence.isWordBounded, hplain]
          split <;> rfl
        · rfl
  have hafter : ∀ o : Occurrence,
      ({ o with after := o.after.or (some c) } : Occurrence).isWordBounded = o.isWordBounded := by
    rintro ⟨offset, before, after⟩
    cases after <;> simp [Occurrence.isWordBounded, hplain]
  simp only [wordOffsets, occurrences_eq hw]
  rw [occurrencesFrom_append_cons hw hc, List.filter_append, List.map_append, hbefore,
    Nat.zero_add]
  congr 1
  · simp only [List.filter_map, List.map_map, Function.comp_def, hafter]
  · rw [← Nat.add_zero (byteSize a + c.utf8Size), occurrencesFrom_add]
    simp [List.filter_map, Function.comp_def, Occurrence.isWordBounded]

/-! ## Gaps -/

/-- Where one character separates, so does a gap of such characters. -/
theorem append_gap_of_step {found : Text → List Nat} {gap : Text} (hempty : found [] = [])
    (hstep : ∀ c ∈ gap, ∀ a b,
      found (a ++ c :: b) = found a ++ (found b).map (byteSize a + c.utf8Size + ·))
    (hne : gap ≠ []) (a b : Text) :
    found (a ++ gap ++ b) = found a ++ (found b).map (byteSize a + byteSize gap + ·) := by
  induction gap generalizing a with
  | nil => exact absurd rfl hne
  | cons c gap ih =>
      have hfirst : found (a ++ c :: gap ++ b) =
          found a ++ (found (gap ++ b)).map (byteSize a + c.utf8Size + ·) := by
        rw [List.append_assoc]
        exact hstep c List.mem_cons_self a (gap ++ b)
      cases gap with
      | nil => simpa using hfirst
      | cons d gap =>
          -- nothing is found before the second separator, since nothing stands there
          have hrest := ih (fun x hx => hstep x (List.mem_cons_of_mem _ hx)) (List.cons_ne_nil d gap) []
          rw [hfirst, ← List.nil_append (d :: gap), hrest, hempty]
          simp [Nat.add_assoc, Function.comp_def]

/-- Characters that no word has and that no word goes on with. -/
def Separates (word gap : Text) : Prop := ∀ c ∈ gap, c ∉ word ∧ isWordChar c = false

theorem wordOffsets_append_gap {gap : Text} (hw : word ≠ []) (hgap : Separates word gap)
    (hne : gap ≠ []) (a b : Text) :
    wordOffsets word (a ++ gap ++ b) =
      wordOffsets word a ++ (wordOffsets word b).map (byteSize a + byteSize gap + ·) := by
  refine append_gap_of_step ?_ ?_ hne a b
  · simp [wordOffsets, occurrences, occurrencesFrom]
  · intro c hc
    exact wordOffsets_append_cons hw (hgap c hc).1 (hgap c hc).2

theorem offsets_append_gap {gap : Text} (hn : needle ≠ []) (hgap : ∀ c ∈ gap, c ∉ needle)
    (hne : gap ≠ []) (a b : Text) :
    offsets needle (a ++ gap ++ b) =
      offsets needle a ++ (offsets needle b).map (byteSize a + byteSize gap + ·) := by
  refine append_gap_of_step ?_ ?_ hne a b
  · simp [offsets, occurrences, occurrencesFrom]
  · intro c hc
    exact offsets_append_cons hn (hgap c hc)

theorem offsets_of_not_mem (hn : needle ≠ []) (ha : ∀ c ∈ a, c ∉ needle) : offsets needle a = [] := by
  apply List.eq_nil_iff_forall_not_mem.2
  intro i hi
  rcases (mem_offsets_iff hn).1 hi with ⟨p, q, rfl, -⟩
  rcases List.exists_mem_of_ne_nil needle hn with ⟨c, hc⟩
  exact ha c (List.mem_append_left _ (List.mem_append_right _ hc)) hc

/-- Characters that the needle lacks hide none of its places and add none. -/
theorem offsets_between (hn : needle ≠ []) (ha : ∀ c ∈ a, c ∉ needle) (hb : ∀ c ∈ b, c ∉ needle)
    (hay : Text) :
    offsets needle (a ++ hay ++ b) = (offsets needle hay).map (byteSize a + ·) := by
  have hback : offsets needle (hay ++ b) = offsets needle hay := by
    cases b with
    | nil => rw [List.append_nil]
    | cons c b =>
        have hb' : ∀ d ∈ b, d ∉ needle := fun d hd => hb d (List.mem_cons_of_mem _ hd)
        rw [offsets_append_cons hn (hb c List.mem_cons_self), offsets_of_not_mem hn hb', List.map_nil,
          List.append_nil]
  cases a with
  | nil => simp [hback]
  | cons c a =>
      have hnil : offsets needle [] = [] := offsets_of_not_mem hn fun d hd => by cases hd
      calc
        offsets needle (c :: a ++ hay ++ b) = offsets needle ([] ++ c :: a ++ (hay ++ b)) := by simp
        _ = (offsets needle hay).map (byteSize (c :: a) + ·) := by
          rw [offsets_append_gap hn ha (List.cons_ne_nil c a), hnil, hback]
          simp

/-- A whole word at the end of a text may go on behind it; any other is one of the longer text. -/
theorem mem_wordOffsets_append_left (hw : word ≠ []) (h : i ∈ wordOffsets word a) (b : Text) :
    i + byteSize word = byteSize a ∨ i ∈ wordOffsets word (a ++ b) := by
  rcases (mem_wordOffsets_iff hw).1 h with ⟨p, q, rfl, rfl, hbefore, hafter⟩
  cases q with
  | nil => exact Or.inl (by simp)
  | cons c q =>
      refine Or.inr ((mem_wordOffsets_iff hw).2 ⟨p, c :: q ++ b, ?_, rfl, hbefore, hafter⟩)
      simp

/-- A whole word at the front of a text may begin before it; any other is one of the longer text. -/
theorem mem_wordOffsets_append_right (hw : word ≠ []) (h : i ∈ wordOffsets word b) (a : Text) :
    i = 0 ∨ byteSize a + i ∈ wordOffsets word (a ++ b) := by
  rcases (mem_wordOffsets_iff hw).1 h with ⟨p, q, rfl, rfl, hbefore, hafter⟩
  rcases List.eq_nil_or_concat p with rfl | ⟨p, c, rfl⟩
  · exact Or.inl rfl
  · refine Or.inr ((mem_wordOffsets_iff hw).2 ⟨a ++ (p ++ [c]), q, ?_, ?_, ?_, hafter⟩)
    · simp
    · simp
    · simpa [← List.append_assoc] using hbefore

/-- Characters that a word does not have cannot be the end of it. -/
theorem mem_wordOffsets_of_append_left (hw : word ≠ []) (hb : ∀ c ∈ b, c ∉ word)
    (h : i ∈ wordOffsets word (a ++ b)) : i ∈ wordOffsets word a := by
  rcases (mem_wordOffsets_iff hw).1 h with ⟨p, q, heq, rfl, hbefore, hafter⟩
  rcases List.append_eq_append_iff.1 heq with ⟨b', hword, hrest⟩ | ⟨q', rfl, rfl⟩
  · -- the piece of the word that stands in `b` is empty
    rcases List.eq_nil_or_concat b' with rfl | ⟨front, c, rfl⟩
    · refine (mem_wordOffsets_iff hw).2 ⟨p, [], ?_, rfl, hbefore, rfl⟩
      simpa using hword.symm
    · exfalso
      rcases List.eq_nil_or_concat word with rfl | ⟨init, d, rfl⟩
      · exact hw rfl
      · have hlast : d = c := by
          have h := congrArg List.getLast? hword
          simpa using h
        exact hb c (by simp [hrest]) (by simp [hlast])
  · refine (mem_wordOffsets_iff hw).2 ⟨p, q', rfl, rfl, hbefore, ?_⟩
    cases q' with
    | nil => rfl
    | cons c q' => exact hafter

/-- Characters that a word does not have cannot be the front of it. -/
theorem mem_wordOffsets_of_append_right (hw : word ≠ []) (ha : ∀ c ∈ a, c ∉ word)
    (h : i ∈ wordOffsets word (a ++ b)) : ∃ j ∈ wordOffsets word b, i = byteSize a + j := by
  rcases (mem_wordOffsets_iff hw).1 h with ⟨p, q, heq, rfl, hbefore, hafter⟩
  rw [List.append_assoc] at heq
  rcases List.append_eq_append_iff.1 heq with ⟨p', rfl, rfl⟩ | ⟨a', rfl, hrest⟩
  · refine ⟨byteSize p', (mem_wordOffsets_iff hw).2 ⟨p', q, by simp, rfl, ?_, hafter⟩, by simp⟩
    rcases List.eq_nil_or_concat p' with rfl | ⟨front, c, rfl⟩
    · rfl
    · simpa [← List.append_assoc] using hbefore
  · -- the piece of the word that stands in `a` is empty
    cases a' with
    | nil =>
        refine ⟨0, (mem_wordOffsets_iff hw).2 ⟨[], q, by simpa using hrest.symm, rfl, rfl, hafter⟩, ?_⟩
        simp
    | cons c a' =>
        exfalso
        cases word with
        | nil => exact hw rfl
        | cons d word =>
            have hfirst : d = c := (List.cons.inj hrest).1
            exact ha c (by simp) (by simp [hfirst])

end Text
end RecordFilter
