import Mathlib.Data.List.Forall2
import RecordFilter.Proofs.Json.Characters
import RecordFilter.Proofs.Text.Lines
import RecordFilter.Report

/-!
# Stream — the report on a list of lines

A report depends on its texts only through the lines they hold (`report_eq_reportOf`), and lines that
come later add to the report without changing what stands there (`reportOf_append`).  What is written
for a line depends on that line alone (`text_reportOf`), it is one line again
(`lines_text_reportOf`), and the tally accounts for each line that is not blank
(`total_tally_reportOf`).
-/

namespace RecordFilter

open Text

/-! ## Adding up tallies -/

namespace Tally

theorem add_assoc (s t u : Tally) : (s.add t).add u = s.add (t.add u) := by
  simp [add, Nat.add_assoc]

/-- Counting a decision is adding the tally of that decision alone. -/
theorem count_eq_add (t : Tally) (d : Decision) : t.count d = t.add (zero.count d) := by
  cases d with
  | accept r => rfl
  | reject => rfl
  | failed f => rfl

theorem foldl_count (t : Tally) (ds : List Decision) :
    ds.foldl count t = t.add (ds.foldl count zero) := by
  induction ds generalizing t with
  | nil => rfl
  | cons d rest ih =>
      calc
        (d :: rest).foldl count t = (t.count d).add (rest.foldl count zero) := ih (t.count d)
        _ = (t.add (zero.count d)).add (rest.foldl count zero) := by rw [count_eq_add]
        _ = t.add ((zero.count d).add (rest.foldl count zero)) := add_assoc _ _ _
        _ = t.add ((d :: rest).foldl count zero) := by rw [List.foldl_cons, ih (zero.count d)]

end Tally

/-! ## Reports on decisions -/

namespace Report

/-- One report behind another. -/
def append (a b : Report) : Report := ⟨a.accepted ++ b.accepted, a.tally.add b.tally⟩

theorem text_append (a b : Report) : (a.append b).text = a.text ++ b.text := by
  simp [append, text]

theorem ofDecisions_append (ds es : List Decision) :
    ofDecisions (ds ++ es) = (ofDecisions ds).append (ofDecisions es) := by
  simp only [ofDecisions, append, List.filterMap_append, List.foldl_append]
  rw [Tally.foldl_count (ds.foldl Tally.count .zero) es]

theorem ofDecisions_cons (d : Decision) (ds : List Decision) :
    ofDecisions (d :: ds) = (ofDecisions [d]).append (ofDecisions ds) := ofDecisions_append [d] ds

theorem accepted_tally_ofDecisions (ds : List Decision) :
    (ofDecisions ds).tally.accepted = (ofDecisions ds).accepted.length := by
  induction ds with
  | nil => rfl
  | cons d rest ih =>
      have hone : (ofDecisions [d]).tally.accepted = (ofDecisions [d]).accepted.length := by
        cases d with
        | accept r => rfl
        | reject => rfl
        | failed f => rfl
      rw [ofDecisions_cons, append, Tally.add, List.length_append, hone, ih]

theorem total_tally_ofDecisions (ds : List Decision) : (ofDecisions ds).tally.total = ds.length := by
  induction ds with
  | nil => rfl
  | cons d rest ih =>
      have hone : (ofDecisions [d]).tally.total = 1 := by
        cases d with
        | accept r => rfl
        | reject => rfl
        | failed f => rfl
      have hadd : ∀ s t : Tally, (s.add t).total = s.total + t.total := by
        intro s t
        simp only [Tally.add, Tally.total]
        omega
      rw [ofDecisions_cons, append, hadd, hone, ih, List.length_cons, Nat.add_comm]

end Report

/-! ## Reports on lines -/

namespace Sieve

variable {sieve : Sieve} {ls ms : List Text} {contents : List Text}

/-- The report on a list of lines. -/
def reportOf (sieve : Sieve) (ls : List Text) : Report :=
  Report.ofDecisions ((ls.filter fun line => !allBlank line).map sieve.decideLine)

/-- What is written for a line: the text of its record, on a line, if it is accepted. -/
def written (sieve : Sieve) (line : Text) : Text :=
  match sieve.decideLine line with
  | .accept r => r.text ++ ['\n']
  | _ => []

/-- The text of a line's record, if it is accepted. -/
def accepted? (sieve : Sieve) (line : Text) : Option Text := (sieve.decideLine line).acceptedText?

theorem decideLine_of_allBlank {line : Text} (h : allBlank line = true) :
    sieve.decideLine line = .reject := by
  rw [decideLine, trim_of_allBlank h]
  rfl

theorem decideLine_trim (line : Text) : sieve.decideLine (trim line) = sieve.decideLine line := by
  rw [decideLine, decideLine, trim_trim]

/-- Decisions do not depend on blanks at the ends of lines, nor on how lines are ended. -/
theorem decisions_of_holdsLines {content : Text} (h : HoldsLines content ls) :
    sieve.decisions content = (ls.filter fun line => !allBlank line).map sieve.decideLine := by
  have hmap : ∀ texts : List Text, texts.map sieve.decideLine = (texts.map trim).map sieve.decideLine := by
    intro texts
    rw [List.map_map]
    exact List.map_congr_left fun line _ => (decideLine_trim line).symm
  rw [decisions, recordLines, hmap, h.map_trim_split, ← hmap]

theorem reportOf_append (sieve : Sieve) (ls ms : List Text) :
    sieve.reportOf (ls ++ ms) = (sieve.reportOf ls).append (sieve.reportOf ms) := by
  rw [reportOf, List.filter_append, List.map_append, Report.ofDecisions_append]
  rfl

theorem report_cons (content : Text) (contents : List Text) :
    sieve.report (content :: contents) = (sieve.report [content]).append (sieve.report contents) := by
  rw [report, report, report, List.flatMap_cons, List.flatMap_singleton, Report.ofDecisions_append]

/-- The report on texts is the report on the lines they hold, one text after the other. -/
theorem report_eq_reportOf {lists : List (List Text)} (h : List.Forall₂ HoldsLines contents lists) :
    sieve.report contents = sieve.reportOf lists.flatten := by
  induction h with
  | nil => rfl
  | @cons content ls contents lists hholds _ ih =>
      have hone : sieve.report [content] = sieve.reportOf ls := by
        rw [report, List.flatMap_singleton, decisions_of_holdsLines hholds, reportOf]
      rw [report_cons, hone, ih, List.flatten_cons, reportOf_append]

/-- The report on texts is the report on all their lines. -/
theorem report_eq_reportOf_lines (sieve : Sieve) (contents : List Text) :
    sieve.report contents = sieve.reportOf (contents.flatMap lines) := by
  have hholds : List.Forall₂ HoldsLines contents (contents.map lines) := by
    induction contents with
    | nil => exact .nil
    | cons content rest ih => exact .cons (holdsLines_lines content) ih
  rw [report_eq_reportOf hholds, List.flatMap]

theorem reportOf_cons (line : Text) (ls : List Text) :
    sieve.reportOf (line :: ls) = (sieve.reportOf [line]).append (sieve.reportOf ls) :=
  reportOf_append sieve [line] ls

/-- A blank line leaves no trace; another leaves that of its decision. -/
theorem reportOf_singleton (line : Text) : sieve.reportOf [line] =
    if allBlank line then .ofDecisions [] else .ofDecisions [sieve.decideLine line] := by
  rw [reportOf]
  split
  case isTrue hblank => simp [hblank]
  case isFalse hblank => simp [hblank]

/-- The accepted records are those of the lines, in their order. -/
theorem accepted_reportOf (sieve : Sieve) (ls : List Text) :
    (sieve.reportOf ls).accepted = ls.filterMap sieve.accepted? := by
  induction ls with
  | nil => rfl
  | cons line rest ih =>
      have hone : (sieve.reportOf [line]).accepted = [line].filterMap sieve.accepted? := by
        rw [reportOf_singleton]
        split
        case isTrue hblank => simp [accepted?, decideLine_of_allBlank hblank, Decision.acceptedText?,
          Report.ofDecisions]
        case isFalse => rfl
      rw [reportOf_cons, Report.append, hone, ih, ← List.filterMap_append, List.singleton_append]

/-- What is written for lines is what is written for each of them, in their order. -/
theorem text_reportOf (sieve : Sieve) (ls : List Text) :
    (sieve.reportOf ls).text = ls.flatMap sieve.written := by
  have hwritten : ∀ line, sieve.written line =
      (sieve.accepted? line).toList.flatMap (· ++ ['\n']) := by
    intro line
    unfold written accepted?
    cases sieve.decideLine line with
    | accept r => simp [Decision.acceptedText?]
    | reject => rfl
    | failed f => rfl
  rw [Report.text, accepted_reportOf]
  induction ls with
  | nil => rfl
  | cons line rest ih =>
      rw [List.flatMap_cons, ← ih, hwritten, List.filterMap_cons]
      cases sieve.accepted? line with
      | none => rfl
      | some t => simp

/-- Each accepted record is written on one line. -/
theorem lines_text_reportOf (sieve : Sieve) (ls : List Text) :
    lines (sieve.reportOf ls).text = ls.filterMap sieve.accepted? := by
  rw [Report.text, accepted_reportOf]
  refine lines_flatMap_newline fun t ht => ?_
  rcases List.mem_filterMap.1 ht with ⟨line, -, haccepted⟩
  unfold accepted? at haccepted
  cases hdecision : sieve.decideLine line with
  | accept r =>
      rw [hdecision] at haccepted
      cases haccepted
      exact ⟨Record.not_mem_text (by decide) r, Record.not_mem_text (by decide) r⟩
  | reject =>
      rw [hdecision] at haccepted
      cases haccepted
  | failed f =>
      rw [hdecision] at haccepted
      cases haccepted

theorem accepted_tally_reportOf (sieve : Sieve) (ls : List Text) :
    (sieve.reportOf ls).tally.accepted = (ls.filterMap sieve.accepted?).length := by
  rw [← accepted_reportOf]
  exact Report.accepted_tally_ofDecisions _

theorem total_tally_reportOf (sieve : Sieve) (ls : List Text) :
    (sieve.reportOf ls).tally.total = (ls.filter fun line => !allBlank line).length := by
  rw [reportOf, Report.total_tally_ofDecisions, List.length_map]

end Sieve
end RecordFilter
