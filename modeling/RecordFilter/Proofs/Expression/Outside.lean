import Mathlib.Data.List.Infix
import RecordFilter.Proofs.Expression.Repairs

/-!
# Outside — what stands outside all parentheses

Picking out what stands outside parentheses takes off the parentheses around the whole as unwrapping
does (`outermost_unwrap`), though it repairs what is inside each time and unwrapping only looks.
What is picked out are the characters at depth zero in their order (`atDepthZero_eq_outsideGroups`).
Read again by itself it has no parentheses but quoted ones, so picking out a second time only trims it
(`outermost_is_outsideGroups`).
-/

namespace RecordFilter
namespace Expression

open Text Scan
open Comparison (atDepthZero_append outermost_of_tidy)

variable {inner r s t u : Text} {c : Char} {q : Scan}

/-! ## Characters at depth zero -/

/-- Whether the next character stands outside parentheses and is none itself, unless it is quoted. -/
def Scan.shows (q : Scan) (c : Char) : Bool :=
  (q.quotes c || (c != '(' && c != ')')) && q.depth == 0

theorem atDepthZero_cons (q : Scan) (c : Char) (s : Text) : atDepthZero q (c :: s) =
    if q.shows c then c :: atDepthZero (q.advance c) s else atDepthZero (q.advance c) s := rfl

/-- Whether `c` behind `before` stands outside parentheses and is none itself, unless it is quoted. -/
def standsOutside (before : Text) (c : Char) : Bool :=
  ((start.run before).quotes c || (c != '(' && c != ')')) && excess before == 0

/-- The characters outside parentheses, in their order: each is looked at with the text before it. -/
def outsideGroups (u : Text) : Text :=
  ((u.inits.zip u).filter fun (before, c) => standsOutside before c).map Prod.snd

theorem atDepthZero_run (a s : Text) : atDepthZero (start.run a) s =
    (((s.inits.map (a ++ ·)).zip s).filter fun (before, c) => standsOutside before c).map Prod.snd := by
  induction s generalizing a with
  | nil => rfl
  | cons c s ih =>
      have hshows : (start.run a).shows c = standsOutside a c := by
        rw [shows, standsOutside, ← depth_eq_excess]
        rfl
      have hrest := ih (a ++ [c])
      rw [run_append, run_cons, run_nil] at hrest
      have hinits : s.inits.map (a ++ [c] ++ ·) = (s.inits.map (c :: ·)).map (a ++ ·) := by
        simp
      rw [atDepthZero_cons, hshows, hrest, hinits, List.inits_cons, List.map_cons, List.zip_cons_cons,
        List.filter_cons, List.append_nil]
      split
      case isTrue => rfl
      case isFalse => rfl

theorem atDepthZero_eq_outsideGroups (u : Text) : atDepthZero start u = outsideGroups u := by
  have hrun := atDepthZero_run [] u
  simp only [List.nil_append, List.map_id'] at hrun
  exact hrun

/-! ## Between parentheses nothing shows -/

theorem atDepthZero_raise (hq : 0 ≤ q.depth) (h : q.dips s = false) :
    atDepthZero (q.raise 1) s = [] := by
  induction s generalizing q with
  | nil => rfl
  | cons c s ih =>
      simp only [Scan.dips, Bool.or_eq_false_iff, decide_eq_false_iff_not, Int.not_lt] at h
      have hhidden : (q.raise 1).shows c = false := by
        have hdepth : (q.depth + 1 == 0) = false := by
          rw [beq_eq_false_iff_ne]
          omega
        rw [shows, raise_depth, hdepth, Bool.and_false]
      rw [atDepthZero_cons, hhidden, if_neg Bool.false_ne_true, advance_raise, ih h.1 h.2]

theorem atDepthZero_group (hs : Balanced ('(' :: inner ++ [')'])) (hdips : dips inner = false) :
    atDepthZero start ('(' :: inner ++ [')']) = [] := by
  have hopen : atDepthZero start ('(' :: inner) = [] := atDepthZero_raise (Int.le_refl 0) hdips
  have hdepth : (start.run ('(' :: inner)).depth = 1 := by
    have hinner : depth inner = 0 := (balanced_of_group hs hdips).1
    rw [run_open, raise_depth, ← depth, hinner]
    rfl
  have hclose : atDepthZero (start.run ('(' :: inner)) [')'] = [] := by
    rw [atDepthZero_cons, shows, hdepth]
    simp [atDepthZero]
  rw [atDepthZero_append, hopen, hclose, List.append_nil]

/-! ## Where nothing shows -/

/-- Only a parenthesis outside literals changes the depth. -/
theorem depth_advance_of_not_paren (hc : q.quotes c = true ∨ c ≠ '(' ∧ c ≠ ')') :
    (q.advance c).depth = q.depth := by
  cases hquotes : q.quotes c with
  | true => exact depth_advance_of_quotes hquotes
  | false =>
      have hparen : c ≠ '(' ∧ c ≠ ')' := by simpa [hquotes] using hc
      rw [depth_advance_of_not_quotes hquotes]
      simp [hparen]

theorem shows_iff : q.shows c = true ↔ (q.quotes c = true ∨ c ≠ '(' ∧ c ≠ ')') ∧ q.depth = 0 := by
  simp [shows]

theorem not_shows_of_allBlank (hc : isBlank c = false)
    (h : allBlank (atDepthZero q (c :: s)) = true) : q.shows c = false := by
  cases hshows : q.shows c with
  | false => rfl
  | true =>
      rw [atDepthZero_cons, if_pos hshows, allBlank_cons, hc, Bool.false_and] at h
      cases h

/-- A hidden character at the front of a balanced text opens a group. -/
theorem eq_open_of_hidden (hs : Balanced (c :: s)) (hhidden : start.shows c = false) : c = '(' := by
  by_contra hother
  by_cases hclose : c = ')'
  · -- it would close nothing
    subst hclose
    exact absurd hs.2 (by simp [dips, Scan.dips, advance, start])
  · have hshows : start.shows c = true := by
      simp [shows, start, hother, hclose]
    rw [hshows] at hhidden
    cases hhidden

/-- A hidden character at the back of a balanced text closes a group. -/
theorem eq_close_of_hidden (hs : Balanced (s ++ [c])) (hhidden : (start.run s).shows c = false) :
    c = ')' := by
  have hdepth : ((start.run s).advance c).depth = 0 := by
    have hwhole := hs.1
    rwa [depth, run_append] at hwhole
  have hparen : ¬((start.run s).quotes c = true ∨ c ≠ '(' ∧ c ≠ ')') := by
    intro hvisible
    rw [depth_advance_of_not_paren hvisible] at hdepth
    rw [shows_iff.2 ⟨hvisible, hdepth⟩] at hhidden
    cases hhidden
  have hquotes : (start.run s).quotes c = false := by
    simpa using fun hq => hparen (Or.inl hq)
  by_contra hother
  have hopen : c = '(' := by
    by_contra hnot
    exact hparen (Or.inr ⟨hnot, hother⟩)
  -- before an opening parenthesis at the end one would close nothing
  have hnonneg : 0 ≤ (start.run s).depth := by
    have hdips := hs.2
    rw [dips, dips_append, Bool.or_eq_false_iff] at hdips
    exact depth_nonneg_of_not_dips hdips.1 (Int.le_refl 0)
  rw [depth_advance_of_not_quotes hquotes, hopen] at hdepth
  simp at hdepth
  omega

/-- A balanced text without anything outside its parentheses begins and ends with one. -/
theorem exists_interior (hs : Balanced t) (htrim : trim t = t) (hne : t ≠ [])
    (hblank : allBlank (atDepthZero start t) = true) : ∃ inner, t = '(' :: inner ++ [')'] := by
  have hfirst : ∃ rest, t = '(' :: rest := by
    cases t with
    | nil => exact absurd rfl hne
    | cons c rest =>
        have hc : isBlank c = false := isBlank_head?_trim (by rw [htrim]; rfl)
        exact ⟨rest, by rw [eq_open_of_hidden hs (not_shows_of_allBlank hc hblank)]⟩
  have hlast : ∃ front, t = front ++ [')'] := by
    rcases List.eq_nil_or_concat t with hnil | ⟨front, d, hconcat⟩
    · exact absurd hnil hne
    · rw [List.concat_eq_append] at hconcat
      have hd : isBlank d = false := isBlank_getLast?_trim (by rw [htrim, hconcat, List.getLast?_concat])
      rw [hconcat] at hs hblank
      rw [atDepthZero_append, allBlank_append, Bool.and_eq_true] at hblank
      exact ⟨front, by rw [hconcat, eq_close_of_hidden hs (not_shows_of_allBlank hd hblank.2)]⟩
  rcases hfirst with ⟨rest, hrest⟩
  rcases hlast with ⟨front, hfront⟩
  cases front with
  | nil =>
      rw [hrest] at hfront
      cases hfront
  | cons c front =>
      rw [hrest] at hfront
      refine ⟨front, ?_⟩
      rw [hrest, (List.cons.inj hfront).2]
      rfl

/-! ## Picking out and unwrapping -/

theorem outermost_of_group (hs : Balanced s) (htrim : trim s = '(' :: inner ++ [')'])
    (hdips : dips inner = false) : outermost s = outermost inner := by
  have hbalanced : Balanced ('(' :: inner ++ [')']) := by
    rw [← htrim]
    exact balanced_trim_iff.2 hs
  have hin : interior? ('(' :: inner ++ [')']) = some inner := interior?_eq_some_iff.2 rfl
  rw [outermost_of_balance (balance_of_balanced hs), htrim, atDepthZero_group hbalanced hdips, hin]
  rfl

/-- Of a balanced text the same is picked out before and after unwrapping. -/
theorem outermost_unwrap (hs : Balanced s) : outermost (unwrap s) = outermost s := by
  fun_induction unwrap s with
  | case1 s inner hin hdips =>
      have htrim : balance (trim s) = .ok (trim s) := by
        rw [balance_of_balanced (balanced_trim_iff.2 hs), trim_trim]
      rw [outermost_of_balance htrim, outermost_of_balance (balance_of_balanced hs), trim_trim]
  | case2 s inner hin hdips ih =>
      have htrim := interior?_eq_some_iff.1 hin
      have hnot : dips inner = false := by simpa using hdips
      have hinner : Balanced inner := by
        have hgroup := balanced_trim_iff.2 hs
        rw [htrim] at hgroup
        exact balanced_of_group hgroup hnot
      rw [ih hinner, outermost_of_group hs htrim hnot]
  | case3 s hnone =>
      have htrim : balance (trim s) = .ok (trim s) := by
        rw [balance_of_balanced (balanced_trim_iff.2 hs), trim_trim]
      rw [outermost_of_balance htrim, outermost_of_balance (balance_of_balanced hs), trim_trim]

/-- Without anything outside its parentheses a balanced text is refused: it is blank, or it has groups
side by side. -/
theorem outermost_of_nothing_outside (hs : Balanced u) (htrim : trim u = u) (hunwrapped : Unwrapped u)
    (hblank : allBlank (atDepthZero start u) = true) :
    u = [] ∧ outermost u = .error ⟨.noOuterContent, []⟩ ∨
      ∃ inner, u = '(' :: inner ++ [')'] ∧
        outermost u = .error ⟨.unclosedParentheses, trim inner⟩ := by
  have hbalance : balance u = .ok u := by
    rw [balance_of_balanced hs, htrim]
  by_cases hne : u = []
  · subst hne
    exact Or.inl ⟨rfl, outermost_of_balance hbalance⟩
  · rcases exists_interior hs htrim hne hblank with ⟨inner, rfl⟩
    have hin : interior? ('(' :: inner ++ [')']) = some inner := interior?_eq_some_iff.2 rfl
    have hfails := balance_interior hs hunwrapped hblank
    refine Or.inr ⟨inner, rfl, ?_⟩
    rw [outermost_of_balance hbalance, if_pos hblank, hin]
    exact outermost_of_balance_error hfails

/-! ## Picking out again -/

/-- The reader's state on what is picked out: that on the text where this is outside parentheses, and
the start while it is in a group. -/
def Scan.outer (q : Scan) : Scan := if q.depth = 0 then q else start

theorem outer_of_plain (h : q.zone = .plain) : q.outer = start := by
  rw [outer]
  split
  case isTrue hdepth =>
    rcases q with ⟨zone, d⟩
    simp only at h hdepth
    rw [h, hdepth]
    rfl
  case isFalse => rfl

theorem outer_advance (q : Scan) (c : Char) :
    (q.advance c).outer = if q.shows c then q.outer.advance c else q.outer := by
  by_cases hshows : q.shows c = true
  · rcases shows_iff.1 hshows with ⟨hparen, hdepth⟩
    have hstay : (q.advance c).depth = 0 := by
      rw [depth_advance_of_not_paren hparen, hdepth]
    rw [if_pos hshows, outer, outer, if_pos hstay, if_pos hdepth]
  · rw [if_neg hshows]
    by_cases hquotes : q.quotes c = true
    · -- in a literal that a group holds
      have hdepth : q.depth ≠ 0 := fun hzero => hshows (shows_iff.2 ⟨Or.inl hquotes, hzero⟩)
      have hstay : (q.advance c).depth ≠ 0 := by rwa [depth_advance_of_quotes hquotes]
      rw [outer, outer, if_neg hstay, if_neg hdepth]
    · -- a group begins and ends outside literals
      have hplain := zone_of_not_quotes (Bool.eq_false_iff.2 hquotes)
      rw [outer_of_plain hplain.1, outer_of_plain hplain.2]

theorem outer_depth (q : Scan) : q.outer.depth = 0 := by
  rw [outer]
  split
  case isTrue hdepth => exact hdepth
  case isFalse => rfl

theorem run_atDepthZero (q : Scan) (s : Text) : q.outer.run (atDepthZero q s) = (q.run s).outer := by
  induction s generalizing q with
  | nil => rfl
  | cons c s ih =>
      have hnext := outer_advance q c
      rw [atDepthZero_cons, run_cons, ← ih]
      split
      case isTrue hshows =>
        rw [if_pos hshows] at hnext
        rw [run_cons, hnext]
      case isFalse hshows =>
        rw [if_neg hshows] at hnext
        rw [hnext]

theorem dips_atDepthZero (q : Scan) (s : Text) : q.outer.dips (atDepthZero q s) = false := by
  induction s generalizing q with
  | nil => rfl
  | cons c s ih =>
      have hnext := outer_advance q c
      have hrest := ih (q.advance c)
      rw [atDepthZero_cons]
      split
      case isTrue hshows =>
        rw [if_pos hshows] at hnext
        rw [Scan.dips, ← hnext, outer_depth, hrest]
        rfl
      case isFalse hshows =>
        rw [if_neg hshows] at hnext
        rwa [hnext] at hrest

theorem atDepthZero_idem (q : Scan) (s : Text) :
    atDepthZero q.outer (atDepthZero q s) = atDepthZero q s := by
  induction s generalizing q with
  | nil => rfl
  | cons c s ih =>
      have hnext := outer_advance q c
      have hrest := ih (q.advance c)
      rw [atDepthZero_cons]
      split
      case isTrue hshows =>
        have houter : q.outer = q := if_pos (shows_iff.1 hshows).2
        rw [if_pos hshows] at hnext
        rw [hnext] at hrest
        rw [atDepthZero_cons, houter, if_pos hshows]
        rw [houter] at hrest
        rw [hrest]
      case isFalse hshows =>
        rw [if_neg hshows] at hnext
        rwa [hnext] at hrest

theorem balanced_atDepthZero (s : Text) : Balanced (atDepthZero start s) := by
  refine ⟨?_, dips_atDepthZero start s⟩
  have hrun : start.run (atDepthZero start s) = (start.run s).outer := run_atDepthZero start s
  rw [depth, hrun, outer_depth]

theorem atDepthZero_sublist (q : Scan) (s : Text) : (atDepthZero q s).Sublist s := by
  induction s generalizing q with
  | nil => exact List.Sublist.slnil
  | cons c s ih =>
      rw [atDepthZero_cons]
      split
      case isTrue => exact (ih _).cons_cons c
      case isFalse => exact (ih _).cons c

/-- A text that shows as a whole shows as a whole in each of its parts. -/
theorem atDepthZero_of_append {a b : Text} (h : atDepthZero q (a ++ b) = a ++ b) :
    atDepthZero q a = a ∧ atDepthZero (q.run a) b = b := by
  have ha := atDepthZero_sublist q a
  have hb := atDepthZero_sublist (q.run a) b
  rw [atDepthZero_append] at h
  have hlength := congrArg List.length h
  rw [List.length_append, List.length_append] at hlength
  have hsame : (atDepthZero q a).length = a.length := by
    have := ha.length_le
    have := hb.length_le
    omega
  exact List.append_inj h hsame

theorem atDepthZero_trim (h : atDepthZero start r = r) : atDepthZero start (trim r) = trim r := by
  rcases exists_trim r with ⟨p, w, hp, -, hr⟩
  rw [hr] at h
  have htrim := (atDepthZero_of_append (atDepthZero_of_append h).1).2
  rwa [run_blank hp] at htrim

/-- What is picked out is picked out of itself, but for blanks at its ends. -/
theorem outermost_atDepthZero (h : allBlank (atDepthZero start s) = false) :
    outermost (atDepthZero start s) = .ok (trim (atDepthZero start s)) := by
  have hbalanced := balanced_atDepthZero s
  have hshows : atDepthZero start (trim (atDepthZero start s)) = trim (atDepthZero start s) :=
    atDepthZero_trim (atDepthZero_idem start s)
  rw [outermost_of_balance (balance_of_balanced hbalanced), hshows, allBlank_trim, h]
  rfl

/-! ## The outcome -/

theorem unwrap_nil : unwrap [] = [] := List.eq_nil_of_length_eq_zero (Nat.le_zero.1 (length_unwrap_le []))

theorem outermost_eq_of_balance (h : balance s = .ok t) :
    outermost s =
      if t = [] then .error ⟨.noOuterContent, trim s⟩ else outermost (unwrap t) := by
  have ht := balanced_of_balance h
  have htrim := trim_of_balance h
  have hbalance : balance t = .ok t := by
    rw [balance_of_balanced ht, htrim]
  by_cases hne : t = []
  · subst hne
    exact outermost_of_balance h
  · rw [if_neg hne, outermost_unwrap ht, outermost_of_balance h, outermost_of_balance hbalance]
    split
    case isTrue hblank =>
      rcases exists_interior ht htrim hne hblank with ⟨inner, rfl⟩
      rw [interior?_eq_some_iff.2 rfl]
    case isFalse => rfl

theorem outermost_of_visible (h : balance s = .ok t)
    (hvisible : allBlank (atDepthZero start (unwrap t)) = false) :
    outermost s = .ok (atDepthZero start (unwrap t)) := by
  have hne : t ≠ [] := by
    rintro rfl
    rw [unwrap_nil] at hvisible
    cases hvisible
  rw [outermost_eq_of_balance h, if_neg hne]
  exact outermost_of_tidy (trim_unwrap t) (balanced_unwrap (balanced_of_balance h)) hvisible

theorem outermost_of_hidden (h : balance s = .ok t)
    (hhidden : allBlank (atDepthZero start (unwrap t)) = true) :
    ∃ e, outermost s = .error e ∧
      (unwrap t = [] ∧ e = ⟨.noOuterContent, if t = [] then trim s else []⟩ ∨
        ∃ inner, unwrap t = '(' :: inner ++ [')'] ∧ e = ⟨.unclosedParentheses, trim inner⟩) := by
  rw [outermost_eq_of_balance h]
  by_cases hne : t = []
  · subst hne
    exact ⟨_, if_pos rfl, Or.inl ⟨unwrap_nil, rfl⟩⟩
  · rw [if_neg hne]
    rcases outermost_of_nothing_outside (balanced_unwrap (balanced_of_balance h)) (trim_unwrap t)
      (unwrapped_unwrap t) hhidden with ⟨hnil, herror⟩ | ⟨inner, hinner, herror⟩
    · exact ⟨_, herror, Or.inl ⟨hnil, by rw [if_neg hne]⟩⟩
    · exact ⟨_, herror, Or.inr ⟨inner, hinner, rfl⟩⟩

/-- What is picked out of a text that can be repaired are the characters outside parentheses, in their
order, once the parentheses around the whole are taken off.  If all of them are blank, or the text cannot
be repaired, it is refused.  Picking out of what was picked out only trims it. -/
theorem outermost_is_outsideGroups (s : Text) :
    (∀ t, balance s = .ok t →
      (∀ r, outermost s = .ok r ↔
        (∃ c ∈ outsideGroups (unwrap t), isBlank c = false) ∧ r = outsideGroups (unwrap t)) ∧
      ((∀ c ∈ outsideGroups (unwrap t), isBlank c = true) → ∃ e, outermost s = .error e ∧
        (unwrap t = [] ∧ e = ⟨.noOuterContent, if t = [] then trim s else []⟩ ∨
          ∃ inner, unwrap t = '(' :: inner ++ [')'] ∧ e = ⟨.unclosedParentheses, trim inner⟩))) ∧
      (∀ e, balance s = .error e → outermost s = .error e) ∧
      ∀ r, outermost s = .ok r → outermost r = .ok (trim r) := by
  have hok : ∀ t, balance s = .ok t → ∀ r, outermost s = .ok r ↔
      allBlank (atDepthZero start (unwrap t)) = false ∧ r = atDepthZero start (unwrap t) := by
    intro t ht r
    cases hvisible : allBlank (atDepthZero start (unwrap t)) with
    | false =>
        rw [outermost_of_visible ht hvisible]
        simp [eq_comm]
    | true =>
        rcases outermost_of_hidden ht hvisible with ⟨e, herror, -⟩
        rw [herror]
        simp
  refine ⟨fun t ht => ⟨fun r => ?_, fun hblank => ?_⟩, fun e he => outermost_of_balance_error he,
    fun r hr => ?_⟩
  · rw [hok t ht r, atDepthZero_eq_outsideGroups, allBlank_eq_false_iff]
  · rw [← allBlank_iff, ← atDepthZero_eq_outsideGroups] at hblank
    exact outermost_of_hidden ht hblank
  · cases hbalance : balance s with
    | error e =>
        rw [outermost_of_balance_error hbalance] at hr
        cases hr
    | ok t =>
        rcases (hok t hbalance r).1 hr with ⟨hvisible, rfl⟩
        exact outermost_atDepthZero hvisible

/-- A quoted parenthesis shows, two literals meet where a group stood between them, and groups side by
side show nothing. -/
theorem outermost_of_meeting_literals :
    outermost "(('('(a)'b' = 1) ".toList = .ok "'(''b' = 1".toList ∧
      outermost "'(''b' = 1".toList = .ok "'(''b' = 1".toList ∧
      outermost "(a)(b)".toList = .error ⟨.unclosedParentheses, "a)(b".toList⟩ := by
  have hbalance : balance "(('('(a)'b' = 1) ".toList = .ok "('('(a)'b' = 1)".toList :=
    balance_eq_ok_iff.2 ⟨"('('(a)'b' = 1)".toList, .front (p := ['(']) (n := 1) (by decide) (by
      unfold Loose
      decide) (by decide), balanced_iff_nests.1 (by decide), by decide⟩
  have hunwrap : unwrap "('('(a)'b' = 1)".toList = "'('(a)'b' = 1".toList := by
    have hinner : Unwrapped (trim "'('(a)'b' = 1".toList) := by
      intro inner hgroup
      have hquote : trim "'('(a)'b' = 1".toList = '\'' :: "('(a)'b' = 1".toList := by decide
      rw [hquote] at hgroup
      cases hgroup
    exact (unwrap_group (e := "'('(a)'b' = 1".toList) (by decide)).trans (unwrap_of_unwrapped hinner)
  have hpicked := (((outermost_is_outsideGroups _).1 _ hbalance).1 "'(''b' = 1".toList).2
    ⟨by rw [hunwrap]; exact ⟨'b', by decide, by decide⟩, by rw [hunwrap]; decide⟩
  have hgroups : balance "(a)(b)".toList = .ok "(a)(b)".toList := balance_of_balanced (by decide)
  have hbetween : ∀ inner, "(a)(b)".toList = '(' :: inner ++ [')'] → inner = "a)(b".toList := by
    intro inner hgroup
    have hin : interior? "(a)(b)".toList = some "a)(b".toList := by decide
    exact Option.some.inj ((interior?_eq_some_iff.2 hgroup).symm.trans hin)
  have hunwrapped : unwrap "(a)(b)".toList = "(a)(b)".toList := by
    refine unwrap_of_unwrapped fun inner hgroup => ?_
    rw [hbetween inner hgroup]
    decide
  have hnothing : outsideGroups (unwrap "(a)(b)".toList) = [] := by
    rw [hunwrapped]
    decide
  refine ⟨hpicked, (outermost_is_outsideGroups _).2.2 _ hpicked, ?_⟩
  rcases ((outermost_is_outsideGroups _).1 _ hgroups).2
      (by rw [hnothing]; exact fun _ h => absurd h List.not_mem_nil) with
    ⟨e, herror, ⟨hnil, -⟩ | ⟨inner, hgroup, rfl⟩⟩
  · rw [hunwrapped] at hnil
    cases hnil
  · rw [hunwrapped] at hgroup
    rw [herror, hbetween inner hgroup]
    decide

end Expression
end RecordFilter
