import RecordFilter.Decision
import RecordFilter.Text.Pieces

/-!
# Report — a whole stream of lines

A stream is a list of texts with one record a line.  Its report has the text of each accepted
record, in the order of the lines, and the tally of all decisions.  Blank lines are passed over.
-/

namespace RecordFilter

/-- The texts of the accepted records, and the tally of the decisions. -/
structure Report where
  accepted : List Text
  tally : Tally
  deriving DecidableEq, Repr

/-- The text of an accepted record. -/
def Decision.acceptedText? : Decision → Option Text
  | .accept r => some r.text
  | _ => none

namespace Report

/-- The report on a list of decisions. -/
def ofDecisions (decisions : List Decision) : Report :=
  ⟨decisions.filterMap Decision.acceptedText?, decisions.foldl Tally.count .zero⟩

/-- The accepted records, one a line. -/
def text (r : Report) : Text := r.accepted.flatMap (· ++ ['\n'])

end Report

namespace Sieve

/-- The lines of a text that are not blank. -/
def recordLines (content : Text) : List Text :=
  (Text.split '\n' content).filter fun line => !Text.allBlank line

/-- The decisions on the lines of a text. -/
def decisions (sieve : Sieve) (content : Text) : List Decision :=
  (recordLines content).map sieve.decideLine

/-- The report on texts that are read one after the other. -/
def report (sieve : Sieve) (contents : List Text) : Report :=
  Report.ofDecisions (contents.flatMap sieve.decisions)

/-- Evaluates the query on one record, given as text. -/
def evaluateText (sieve : Sieve) (s : Text) : Except Failure Bool :=
  match Record.read s with
  | .error e => .error (.unreadable e)
  | .ok r =>
      match sieve.query.evaluate (sieve.enrichment.apply r) with
      | .error e => .error (.field e)
      | .ok b => .ok b

end Sieve
end RecordFilter
