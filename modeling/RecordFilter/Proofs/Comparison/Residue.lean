import RecordFilter.Proofs.Text.Removal
import RecordFilter.Proofs.Expression.Tidying
import RecordFilter.Comparison.Reader

/-!
# Residue — what the check for unknown names counts

The check counts the characters outside parentheses that names, literals, digits, points and blanks
leave over.  In a text without quotes a blank separates: what is left of the whole is what is left of
the two sides (`residue_append_cons`), and blanks at the ends do not count (`residue_trim`).
-/

namespace RecordFilter
namespace Comparison

open Text Expression

variable {schema : Schema} {a b p s : Text} {c : Char} {inside : Bool}

/-! ## Characters outside parentheses -/

theorem atDepthZero_append (q : Scan) (a b : Text) :
    atDepthZero q (a ++ b) = atDepthZero q a ++ atDepthZero (q.run a) b := by
  induction a generalizing q with
  | nil => rfl
  | cons c a ih =>
      rw [List.cons_append, atDepthZero, atDepthZero, ih, Scan.run_cons]
      split <;> rfl

theorem atDepthZero_inert (hs : ∀ c ∈ s, isInert c = true) : atDepthZero .start s = s := by
  induction s with
  | nil => rfl
  | cons c s ih =>
      have hc := hs c List.mem_cons_self
      have hparen : (c != '(' && c != ')') = true := by
        simp only [isInert, Bool.and_eq_true] at hc
        simp [hc]
      -- an inert character leaves the reader at depth zero
      have hvisible : ((Scan.start.quotes c || (c != '(' && c != ')')) &&
          Scan.start.depth == 0) = true := by
        simp [hparen, Scan.start]
      rw [atDepthZero, if_pos hvisible, Scan.advance_inert hc,
        ih (fun d hd => hs d (List.mem_cons_of_mem _ hd))]

theorem mem_of_mem_atDepthZero {q : Scan} (h : c ∈ atDepthZero q s) : c ∈ s := by
  induction s generalizing q with
  | nil => cases h
  | cons d s ih =>
      rw [atDepthZero] at h
      split at h
      · rcases List.mem_cons.1 h with rfl | h
        · exact List.mem_cons_self
        · exact List.mem_cons_of_mem _ (ih h)
      · exact List.mem_cons_of_mem _ (ih h)

/-- A tidy text with something outside its parentheses is searched as it stands. -/
theorem outermost_of_tidy (htrim : trim s = s) (hs : Balanced s)
    (hne : allBlank (atDepthZero .start s) = false) :
    outermost s = .ok (atDepthZero .start s) := by
  have hbalance : balance s = .ok s := by
    rw [balance_of_balanced hs, htrim]
  rw [outermost_of_balance hbalance, hne]
  rfl

/-! ## Characters outside quotes -/

theorem outsideQuotes_of_no_quotes (h : ∀ c ∈ s, c ≠ '\'') : outsideQuotes false s = s := by
  induction s with
  | nil => rfl
  | cons c s ih =>
      have hc := h c List.mem_cons_self
      rw [outsideQuotes, if_neg hc, if_neg (by decide), ih (fun d hd => h d (List.mem_cons_of_mem _ hd))]

theorem outsideQuotes_append (ha : ∀ c ∈ a, c ≠ '\'') (b : Text) :
    outsideQuotes false (a ++ b) = a ++ outsideQuotes false b := by
  induction a with
  | nil => rfl
  | cons c a ih =>
      have hc := ha c List.mem_cons_self
      rw [List.cons_append, outsideQuotes, if_neg hc, if_neg (by decide),
        ih (fun d hd => ha d (List.mem_cons_of_mem _ hd))]
      rfl

theorem exists_outsideQuotes_append (inside : Bool) (a b : Text) :
    ∃ inside', outsideQuotes inside (a ++ b) = outsideQuotes inside a ++ outsideQuotes inside' b := by
  induction a generalizing inside with
  | nil => exact ⟨inside, rfl⟩
  | cons c a ih =>
      rcases ih (if c = '\'' then !inside else inside) with ⟨inside', hrest⟩
      refine ⟨inside', ?_⟩
      rw [List.cons_append, outsideQuotes, outsideQuotes, hrest]
      generalize (if c = '\'' then !inside else inside) = hidden
      cases hidden <;> rfl

theorem mem_of_mem_outsideQuotes (h : c ∈ outsideQuotes inside s) : c ∈ s := by
  induction s generalizing inside with
  | nil => cases h
  | cons d s ih =>
      rw [outsideQuotes] at h
      generalize (if d = '\'' then !inside else inside) = inside' at h
      cases inside' with
      | true => exact List.mem_cons_of_mem _ (ih h)
      | false =>
          rcases List.mem_cons.1 h with rfl | h
          · exact List.mem_cons_self
          · exact List.mem_cons_of_mem _ (ih h)

/-! ## What is left over -/

/-- The characters that count. -/
def counts (c : Char) : Bool := !(c.isDigit || c == '.' || isBlank c)

theorem residue_eq (schema : Schema) (s : Text) :
    residue schema s = (outsideQuotes false (withoutAll schema.allowed s)).filter counts := rfl

theorem residue_nil (schema : Schema) : residue schema [] = [] := by
  rw [residue_eq, withoutAll_nil]
  rfl

theorem residue_append_cons (ha : ∀ c ∈ a, c ≠ '\'') (hc : isBlank c = true)
    (hnames : ∀ name ∈ schema.allowed, c ∉ name) (b : Text) :
    residue schema (a ++ c :: b) = residue schema a ++ residue schema b := by
  -- the blank is cut out by no name, stays outside quotes and is not counted
  have hquote : c ≠ '\'' := by
    rintro rfl
    cases hc
  have hfront : ∀ d ∈ withoutAll schema.allowed a, d ≠ '\'' :=
    fun d hd => ha d (mem_of_mem_withoutAll hd)
  have hcount : counts c = false := by
    simp [counts, hc]
  have htail : outsideQuotes false (c :: withoutAll schema.allowed b) =
      c :: outsideQuotes false (withoutAll schema.allowed b) := by
    rw [outsideQuotes, if_neg hquote, if_neg (by decide)]
  calc
    residue schema (a ++ c :: b) =
        (outsideQuotes false
          (withoutAll schema.allowed a ++ c :: withoutAll schema.allowed b)).filter counts := by
      rw [residue_eq, withoutAll_append_cons hnames]
    _ = (withoutAll schema.allowed a ++
          c :: outsideQuotes false (withoutAll schema.allowed b)).filter counts := by
      rw [outsideQuotes_append hfront, htail]
    _ = (withoutAll schema.allowed a).filter counts ++ residue schema b := by
      rw [List.filter_append, List.filter_cons_of_neg (by simp [hcount]), residue_eq]
    _ = residue schema a ++ residue schema b := by
      rw [residue_eq schema a, outsideQuotes_of_no_quotes hfront]

theorem residue_blank_append (hp : allBlank p = true)
    (hnames : ∀ c ∈ p, ∀ name ∈ schema.allowed, c ∉ name) (s : Text) :
    residue schema (p ++ s) = residue schema s := by
  induction p with
  | nil => rfl
  | cons c p ih =>
      have hc : isBlank c = true := allBlank_iff.1 hp c List.mem_cons_self
      have hp' : allBlank p = true :=
        allBlank_iff.2 fun d hd => allBlank_iff.1 hp d (List.mem_cons_of_mem _ hd)
      have hstep := residue_append_cons (a := []) (by simp) hc (hnames c List.mem_cons_self) (p ++ s)
      rw [residue_nil] at hstep
      exact hstep.trans (ih hp' (fun d hd => hnames d (List.mem_cons_of_mem _ hd)))

/-- Blanks at the end are cut out by no name, and they do not count outside quotes or inside. -/
theorem residue_append_blank (hp : allBlank p = true)
    (hnames : ∀ c ∈ p, ∀ name ∈ schema.allowed, c ∉ name) (s : Text) :
    residue schema (s ++ p) = residue schema s := by
  cases p with
  | nil => rw [List.append_nil]
  | cons c p =>
      rcases exists_outsideQuotes_append false (withoutAll schema.allowed s)
        (c :: withoutAll schema.allowed p) with ⟨inside, houtside⟩
      have hnone : (outsideQuotes inside (c :: withoutAll schema.allowed p)).filter counts = [] := by
        rw [List.filter_eq_nil_iff]
        intro d hd
        have hmem : d ∈ c :: p := by
          rcases List.mem_cons.1 (mem_of_mem_outsideQuotes hd) with rfl | hd
          · exact List.mem_cons_self
          · exact List.mem_cons_of_mem _ (mem_of_mem_withoutAll hd)
        simp [counts, allBlank_iff.1 hp d hmem]
      rw [residue_eq, withoutAll_append_cons (hnames c List.mem_cons_self), houtside,
        List.filter_append, hnone, List.append_nil, residue_eq]

/-- Blanks at the ends of a text do not count. -/
theorem residue_trim (hnames : ∀ c, isBlank c = true → ∀ name ∈ schema.allowed, c ∉ name) (s : Text) :
    residue schema (atDepthZero .start (trim s)) = residue schema (atDepthZero .start s) := by
  rcases exists_trim s with ⟨p, q, hp, hq, heq⟩
  have hzero : atDepthZero .start s =
      p ++ (atDepthZero .start (trim s) ++ atDepthZero (Scan.start.run (trim s)) q) := by
    calc
      atDepthZero .start s = atDepthZero .start (p ++ (trim s ++ q)) := by
        rw [← List.append_assoc]
        exact congrArg _ heq
      _ = _ := by
        rw [atDepthZero_append, atDepthZero_inert (isInert_of_allBlank hp), Scan.run_blank hp,
          atDepthZero_append]
  -- in a text that leaves a parenthesis open the blanks behind it are not seen at all
  have hback : allBlank (atDepthZero (Scan.start.run (trim s)) q) = true :=
    allBlank_iff.2 fun c hc => allBlank_iff.1 hq c (mem_of_mem_atDepthZero hc)
  rw [hzero, residue_blank_append hp fun c hc => hnames c (allBlank_iff.1 hp c hc),
    residue_append_blank hback fun c hc => hnames c (allBlank_iff.1 hback c hc)]

/-! ## Closed texts -/

/-- No quote of the text hides what stands behind a space after it. -/
def Closed (schema : Schema) (s : Text) : Prop :=
  ∀ t, residue schema (s ++ ' ' :: t) = residue schema s ++ residue schema t

theorem closed_of_no_quotes (hnames : ∀ name ∈ schema.allowed, ' ' ∉ name) (h : ∀ c ∈ s, c ≠ '\'') :
    Closed schema s :=
  residue_append_cons h rfl hnames

end Comparison
end RecordFilter
