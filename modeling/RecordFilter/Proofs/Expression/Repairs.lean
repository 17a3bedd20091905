import Mathlib.Tactic.Ring
import RecordFilter.Proofs.Expression.Parts

/-!
# Repairs — which parentheses a repair drops

The excess of a text counts the opening less the closing parentheses outside literals.  A repair takes
that many parentheses off one end: opening ones from the front, closing ones from the back.  It
succeeds exactly where this can be done and leaves a text that nests (`balance_eq_ok_iff`); so a
parenthesis in a literal is never dropped with success, and none is dropped at the other end.
-/

namespace RecordFilter
namespace Expression

open Text Scan

variable {a p s t u v w : Text} {c paren : Char} {q : Scan} {n : Nat}

/-! ## Counting parentheses -/

/-- Opening less closing parentheses outside literals. -/
def excess (s : Text) : Int := (maskQuotes s).count '(' - (maskQuotes s).count ')'

/-- No initial piece closes more parentheses than it opens, and the whole closes all. -/
def Nests (s : Text) : Prop := excess s = 0 ∧ ∀ a, a <+: s → 0 ≤ excess a

theorem depth_advance_of_quotes (h : q.quotes c = true) : (q.advance c).depth = q.depth := by
  rcases q with ⟨zone, d⟩
  cases zone with
  | plain =>
      have hquote : c = '\'' ∨ c = '"' := by simpa [quotes] using h
      rcases hquote with rfl | rfl <;> rfl
  | single =>
      simp only [advance]
      split <;> rfl
  | double =>
      simp only [advance]
      split <;> rfl

/-- Outside literals a parenthesis changes the depth by one, and nothing else does. -/
theorem depth_advance_of_not_quotes (h : q.quotes c = false) :
    (q.advance c).depth = q.depth + [c].count '(' - [c].count ')' := by
  rcases q with ⟨zone, d⟩
  simp only [quotes, Bool.or_eq_false_iff, bne_eq_false_iff_eq, beq_eq_false_iff_ne] at h
  rcases h with ⟨⟨rfl, hsingle⟩, hdouble⟩
  simp only [advance, hsingle, hdouble, if_false]
  by_cases hopen : c = '('
  · subst hopen
    simp
  · by_cases hclose : c = ')'
    · subst hclose
      simp
    · simp [hopen, hclose]

/-- Outside literals the next character is read in the plain zone, and the one behind it too unless
this is a quote. -/
theorem zone_of_not_quotes (h : q.quotes c = false) :
    q.zone = .plain ∧ (q.advance c).zone = .plain := by
  rcases q with ⟨zone, d⟩
  simp only [quotes, Bool.or_eq_false_iff, bne_eq_false_iff_eq, beq_eq_false_iff_ne] at h
  rcases h with ⟨⟨rfl, hsingle⟩, hdouble⟩
  simp only [advance, hsingle, hdouble, if_false, true_and]
  repeat' split
  all_goals rfl

theorem depth_run_eq (q : Scan) (s : Text) :
    (q.run s).depth = q.depth + (mask Scan.quotes q s).count '(' - (mask Scan.quotes q s).count ')' := by
  induction s generalizing q with
  | nil => simp [mask]
  | cons c s ih =>
      rw [run_cons, ih, mask, List.count_append, List.count_append]
      cases hquotes : q.quotes c with
      | true =>
          have hnone : ∀ paren : Char, paren ≠ '\x00' →
              (List.replicate c.utf8Size '\x00').count paren = 0 :=
            fun paren hparen => List.count_eq_zero.2 fun hmem => hparen (List.eq_of_mem_replicate hmem)
          rw [depth_advance_of_quotes hquotes, if_pos rfl, hnone '(' (by decide), hnone ')' (by decide)]
          simp
      | false =>
          rw [depth_advance_of_not_quotes hquotes, if_neg Bool.false_ne_true]
          push_cast
          omega

theorem depth_eq_excess (s : Text) : depth s = excess s := by
  have hrun := depth_run_eq start s
  have hstart : start.depth = 0 := rfl
  rw [depth, excess, maskQuotes]
  omega

theorem dips_eq_false_iff : q.dips s = false ↔ ∀ a, a <+: s → a ≠ [] → 0 ≤ (q.run a).depth := by
  induction s generalizing q with
  | nil =>
      refine ⟨fun _ a ha hne => absurd (List.prefix_nil.1 ha) hne, fun _ => rfl⟩
  | cons c s ih =>
      rw [Scan.dips, Bool.or_eq_false_iff, decide_eq_false_iff_not, Int.not_lt, ih]
      constructor
      · rintro ⟨hfirst, hrest⟩ a ha hne
        rcases List.prefix_cons_iff.1 ha with rfl | ⟨b, rfl, hb⟩
        · exact absurd rfl hne
        · by_cases hnil : b = []
          · subst hnil
            exact hfirst
          · exact hrest b hb hnil
      · intro h
        refine ⟨h [c] (by simp) (by simp), fun b hb _ => ?_⟩
        exact h (c :: b) ((List.cons_prefix_cons).2 ⟨rfl, hb⟩) (by simp)

theorem balanced_iff_nests : Balanced s ↔ Nests s := by
  rw [Balanced, Nests, dips, dips_eq_false_iff, depth_eq_excess]
  refine and_congr_right fun _ => ⟨fun h a ha => ?_, fun h a ha _ => ?_⟩
  · by_cases hnil : a = []
    · subst hnil
      exact Int.le_refl 0
    · rw [← depth_eq_excess]
      exact h a ha hnil
  · have ha := h a ha
    rwa [← depth_eq_excess] at ha

/-! ## Parentheses at one end -/

/-- `n` parentheses of one kind, with blanks between and around them. -/
def Loose (paren : Char) (n : Nat) (p : Text) : Prop :=
  p.filter (fun c => !isBlank c) = List.replicate n paren

theorem loose_zero_iff : Loose paren 0 p ↔ allBlank p = true := by
  simp [Loose, allBlank_iff, List.filter_eq_nil_iff]

theorem loose_append {m : Nat} (hv : Loose paren m v) (hw : Loose paren n w) :
    Loose paren (m + n) (v ++ w) := by
  rw [Loose, List.filter_append, hv, hw, List.replicate_append_replicate]

theorem loose_one (h : isBlank paren = false) : Loose paren 1 [paren] := by
  simp [Loose, h]

/-- The first of several parentheses, with blanks before it and the others behind it. -/
theorem exists_of_loose_front (h : Loose paren (n + 1) p) :
    ∃ b p', allBlank b = true ∧ p = b ++ paren :: p' ∧ Loose paren n p' := by
  rcases allBlank_or_exists p with hblank | ⟨b, c, rest, hb, hc, rfl⟩
  · have hnone : Loose paren 0 p := loose_zero_iff.2 hblank
    rw [Loose, hnone] at h
    cases h
  · have hnone : Loose paren 0 b := loose_zero_iff.2 hb
    rw [Loose, List.filter_append, hnone, List.filter_cons, if_pos (by simp [hc]),
      List.replicate_zero, List.nil_append, List.replicate_succ] at h
    rcases List.cons.inj h with ⟨rfl, hrest⟩
    exact ⟨b, rest, hb, rfl, hrest⟩

theorem loose_reverse_iff : Loose paren n p.reverse ↔ Loose paren n p := by
  rw [Loose, List.filter_reverse, Loose, List.reverse_eq_iff, List.reverse_replicate]

/-- The last of several parentheses, with blanks behind it and the others before it. -/
theorem exists_of_loose_back (h : Loose paren (n + 1) p) :
    ∃ p' b, allBlank b = true ∧ p = p' ++ paren :: b ∧ Loose paren n p' := by
  rcases exists_of_loose_front (loose_reverse_iff.2 h) with ⟨b, p', hb, hp, hp'⟩
  refine ⟨p'.reverse, b.reverse, by rwa [allBlank_reverse], ?_, loose_reverse_iff.2 hp'⟩
  rw [← List.reverse_reverse p, hp]
  simp

/-- Where each parenthesis changes the depth by `k`, so do `n` of them `n` times. -/
theorem run_loose {zone : Zone} {k : Int}
    (hstep : ∀ q : Scan, q.zone = zone → q.advance paren = q.raise k) (h : Loose paren n p)
    (hq : q.zone = zone) : q.run p = q.raise (n * k) := by
  induction n generalizing p q with
  | zero =>
      rw [run_blank (loose_zero_iff.1 h)]
      simp [raise]
  | succ n ih =>
      rcases exists_of_loose_front h with ⟨b, p', hb, rfl, hp'⟩
      have hnext : (q.raise k).run p' = (q.raise k).raise (n * k) := ih hp' hq
      have hsum : k + n * k = ((n + 1 : Nat) : Int) * k := by
        push_cast
        ring
      rw [run_append, run_blank hb, run_cons, hstep q hq, hnext, raise, raise, raise, ← hsum,
        Int.add_assoc]

theorem depth_loose_append (h : Loose '(' n p) (u : Text) : depth (p ++ u) = depth u + n := by
  have hopen : ∀ q : Scan, q.zone = .plain → q.advance '(' = q.raise 1 := by
    intro q hq
    simp [advance, hq, raise]
  rw [depth, run_append, run_loose hopen h rfl, run_raise, raise_depth, Int.mul_one]
  rfl

theorem depth_append_loose (hq : QuoteClosed u) (h : Loose ')' n p) :
    depth (u ++ p) = depth u - n := by
  have hclose : ∀ q : Scan, q.zone = .plain → q.advance ')' = q.raise (-1) := by
    intro q hq
    simp [advance, hq, raise, Int.sub_eq_add_neg]
  rw [depth, run_append, run_loose hclose h hq, raise_depth, depth]
  omega

/-- In a literal parentheses count for nothing. -/
theorem depth_append_loose_of_open (hq : ¬QuoteClosed u) (h : Loose ')' n p) :
    depth (u ++ p) = depth u := by
  have hstay : ∀ q : Scan, q.zone = (start.run u).zone → q.advance ')' = q.raise 0 := by
    intro q hzone
    have hopen : q.zone ≠ .plain := by rwa [hzone]
    rcases q with ⟨zone, d⟩
    cases zone with
    | plain => exact absurd rfl hopen
    | single => simp [advance, raise]
    | double => simp [advance, raise]
  rw [depth, run_append, run_loose hstay h rfl, raise_depth, Int.mul_zero, Int.add_zero, depth]

/-! ## What a repair takes off -/

theorem repair_loose_append (hp : Loose '(' n p) (hu : Balanced u) :
    repair (trim (p ++ u)) = some (trim u) := by
  induction n generalizing p with
  | zero =>
      rw [trim_append_of_allBlank_left (loose_zero_iff.1 hp)]
      exact repair_of_balanced (balanced_trim_iff.2 hu)
  | succ n ih =>
      rcases exists_of_loose_front hp with ⟨b, p', hb, rfl, hp'⟩
      have hdepth : 0 ≤ depth (p' ++ u) := by
        rw [depth_loose_append hp', hu.1]
        omega
      rw [List.append_assoc, trim_append_of_allBlank_left hb, List.cons_append,
        repair_trim_open hdepth, ih hp']

theorem repair_append_loose (hu : Balanced u) (hq : QuoteClosed u) (hp : Loose ')' n p) :
    repair (trim (u ++ p)) = some (trim u) := by
  induction n generalizing p with
  | zero =>
      rw [trim_append_of_allBlank_right u (loose_zero_iff.1 hp)]
      exact repair_of_balanced (balanced_trim_iff.2 hu)
  | succ n ih =>
      have hdepth := depth_append_loose hq hp
      rcases exists_of_loose_back hp with ⟨p', b, hb, rfl, hp'⟩
      have hsplit : u ++ (p' ++ ')' :: b) = u ++ p' ++ [')'] ++ b := by simp
      rw [hsplit, depth, run_append, run_blank hb, ← depth, hu.1] at hdepth
      rw [hsplit, trim_append_of_allBlank_right _ hb, repair_trim_close (by omega), ih hp']

/-- A text with parentheses left open is repaired at the front. -/
theorem exists_front_of_repair (h : repair (trim s) = some t) (hd : depth s = n) :
    ∃ p u, Loose '(' n p ∧ s = p ++ u ∧ Balanced u ∧ t = trim u := by
  induction n generalizing s with
  | zero =>
      rcases balanced_of_repair_trim h hd with ⟨hs, rfl⟩
      exact ⟨[], s, loose_zero_iff.2 rfl, rfl, hs, rfl⟩
  | succ n ih =>
      rcases exists_of_repair_open h (by omega) with ⟨b, v, hb, rfl, hv⟩
      have hdepth : depth v = n := by
        rw [depth, run_append, run_blank hb, ← depth, depth_open] at hd
        omega
      rcases ih hv hdepth with ⟨p, u, hp, rfl, hu, ht⟩
      have hloose : Loose '(' (0 + (1 + n)) (b ++ (['('] ++ p)) :=
        loose_append (loose_zero_iff.2 hb) (loose_append (loose_one rfl) hp)
      refine ⟨b ++ '(' :: p, u, ?_, by simp, hu, ht⟩
      rwa [Nat.zero_add, Nat.add_comm] at hloose

/-- A parenthesis in a literal that is left open is never dropped with success: the depth would stay
below zero until no parenthesis is left. -/
theorem quoteClosed_of_repair_of_neg (h : repair (trim s) = some t) (hd : depth s < 0) :
    QuoteClosed s := by
  induction hn : s.length using Nat.strongRecOn generalizing s with
  | ind n ih =>
      subst hn
      rcases exists_of_repair_close h hd with ⟨v, b, hb, rfl, hv⟩
      have hsplit : v ++ ')' :: b = v ++ [')'] ++ b := by simp
      rw [hsplit, quoteClosed_append_blank hb, quoteClosed_close_iff]
      by_contra hopen
      have hstay : depth (v ++ [')']) = depth v := depth_append_loose_of_open hopen (loose_one rfl)
      rw [hsplit, depth, run_append, run_blank hb, ← depth, hstay] at hd
      exact hopen (ih v.length (by simp) hv hd rfl)

/-- A text with parentheses that close nothing is repaired at the back. -/
theorem exists_back_of_repair (h : repair (trim s) = some t) (hd : depth s = -n) :
    ∃ u p, Loose ')' n p ∧ s = u ++ p ∧ Balanced u ∧ t = trim u := by
  induction n generalizing s with
  | zero =>
      rcases balanced_of_repair_trim h (by simpa using hd) with ⟨hs, rfl⟩
      exact ⟨s, [], loose_zero_iff.2 rfl, (List.append_nil s).symm, hs, rfl⟩
  | succ n ih =>
      have hquotes := quoteClosed_of_repair_of_neg h (by omega)
      rcases exists_of_repair_close h (by omega) with ⟨v, b, hb, rfl, hv⟩
      have hsplit : v ++ ')' :: b = v ++ [')'] ++ b := by simp
      rw [hsplit, quoteClosed_append_blank hb, quoteClosed_close_iff] at hquotes
      have hdepth : depth v = -n := by
        rw [hsplit, depth, run_append, run_blank hb, ← depth, depth_close hquotes] at hd
        omega
      rcases ih hv hdepth with ⟨u, p, hp, rfl, hu, ht⟩
      have hloose : Loose ')' (n + (1 + 0)) (p ++ ([')'] ++ b)) :=
        loose_append hp (loose_append (loose_one rfl) (loose_zero_iff.2 hb))
      exact ⟨u, p ++ ')' :: b, hloose, by simp, hu, ht⟩

/-! ## The outcome of a repair -/

/-- `u` is what is left of `t` without `d` opening parentheses at the front, or without `-d` closing
ones at the back. -/
inductive Freed (t : Text) (d : Int) (u : Text) : Prop where
  | front {p : Text} {n : Nat} : d = n → Loose '(' n p → t = p ++ u → Freed t d u
  | back {p : Text} {n : Nat} : d = -n → Loose ')' n p → t = u ++ p → Freed t d u

theorem repair_of_freed (h : Freed s (depth s) u) (hu : Balanced u) :
    repair (trim s) = some (trim u) := by
  cases h with
  | @front p n hd hp hs =>
      rw [hs]
      exact repair_loose_append hp hu
  | @back p n hd hp hs =>
      rw [hs] at hd ⊢
      by_cases hq : QuoteClosed u
      · exact repair_append_loose hu hq hp
      · -- then the parentheses are in a literal, and there is none to take off
        have hn : n = 0 := by
          rw [depth_append_loose_of_open hq hp, hu.1] at hd
          omega
        subst hn
        rw [trim_append_of_allBlank_right u (loose_zero_iff.1 hp)]
        exact repair_of_balanced (balanced_trim_iff.2 hu)

theorem exists_freed_of_repair (h : repair (trim s) = some t) :
    ∃ u, Freed s (depth s) u ∧ Balanced u ∧ t = trim u := by
  rcases Int.eq_nat_or_neg (depth s) with ⟨n, hd | hd⟩
  · rcases exists_front_of_repair h hd with ⟨p, u, hp, hs, hu, ht⟩
    exact ⟨u, .front hd hp hs, hu, ht⟩
  · rcases exists_back_of_repair h hd with ⟨u, p, hp, hs, hu, ht⟩
    exact ⟨u, .back hd hp hs, hu, ht⟩

theorem balance_eq_ok_iff_repair : balance s = .ok t ↔ repair (trim s) = some t := by
  rw [balance]
  cases repair (trim s) with
  | none => simp
  | some u => simp

theorem balance_eq_ok_iff :
    balance s = .ok t ↔ ∃ u, Freed (trim s) (excess s) u ∧ Nests u ∧ t = trim u := by
  have hrepair : balance s = .ok t ↔ repair (trim (trim s)) = some t := by
    rw [trim_trim, balance_eq_ok_iff_repair]
  rw [hrepair, ← depth_eq_excess, ← depth_trim]
  constructor
  · intro h
    rcases exists_freed_of_repair h with ⟨u, hfreed, hu, ht⟩
    exact ⟨u, hfreed, balanced_iff_nests.1 hu, ht⟩
  · rintro ⟨u, hfreed, hu, rfl⟩
    exact repair_of_freed hfreed (balanced_iff_nests.2 hu)

theorem balance_eq_error_iff_not_freed {e : SyntaxError} : balance s = .error e ↔
    (¬∃ u, Freed (trim s) (excess s) u ∧ Nests u) ∧ e = ⟨.unclosedParentheses, trim s⟩ := by
  rw [balance_eq_error_iff]
  refine and_congr_left fun _ => ⟨?_, fun h => ?_⟩
  · rintro hnone ⟨u, hfreed, hu⟩
    have hok : balance s = .ok (trim u) := balance_eq_ok_iff.2 ⟨u, hfreed, hu, rfl⟩
    rw [balance_eq_ok_iff_repair, hnone] at hok
    cases hok
  · refine Option.eq_none_iff_forall_ne_some.2 fun t ht => h ?_
    rcases balance_eq_ok_iff.1 (balance_eq_ok_iff_repair.2 ht) with ⟨u, hfreed, hu, -⟩
    exact ⟨u, hfreed, hu⟩

theorem part_of_balance (h : balance s = .ok t) : t <:+: s :=
  (part_of_repair (balance_eq_ok_iff_repair.1 h)).trans (trim_part s)

theorem balanced_of_balance (h : balance s = .ok t) : Balanced t :=
  balanced_of_repair (balance_eq_ok_iff_repair.1 h)

theorem trim_of_balance (h : balance s = .ok t) : trim t = t := by
  rcases balance_eq_ok_iff.1 h with ⟨u, -, -, rfl⟩
  exact trim_trim u

/-- A text can be repaired exactly where its excess of parentheses can be taken off one end of it,
trimmed, and what is left nests; that is then the result, trimmed again.  It is a contiguous part of the
text, and repairing it changes nothing.  A text that nests is only trimmed. -/
theorem balance_takes_off_excess (s : Text) :
    (∀ t, balance s = .ok t ↔ ∃ u, Freed (trim s) (excess s) u ∧ Nests u ∧ t = trim u) ∧
      (∀ e, balance s = .error e ↔
        (¬∃ u, Freed (trim s) (excess s) u ∧ Nests u) ∧ e = ⟨.unclosedParentheses, trim s⟩) ∧
      (∀ t, balance s = .ok t → t <:+: s ∧ balance t = .ok t) ∧
      (Nests s → balance s = .ok (trim s)) := by
  refine ⟨fun t => balance_eq_ok_iff, fun e => balance_eq_error_iff_not_freed,
    fun t h => ⟨part_of_balance h, ?_⟩, fun h => balance_of_balanced (balanced_iff_nests.2 h)⟩
  rw [balance_of_balanced (balanced_of_balance h), trim_of_balance h]

/-- Two parentheses are left open in front of a third that a literal holds. -/
theorem balance_of_two_open :
    excess " ( ( a = ')' ".toList = 2 ∧
      balance " ( ( a = ')' ".toList = .ok "a = ')'".toList := by
  refine ⟨by decide, ((balance_takes_off_excess _).1 _).2 ⟨" a = ')'".toList, ?_, ?_, by decide⟩⟩
  · exact .front (p := "( (".toList) (n := 2) (by decide) (by unfold Loose; decide) (by decide)
  · exact balanced_iff_nests.1 (by decide)

end Expression
end RecordFilter
