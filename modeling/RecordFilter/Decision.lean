import RecordFilter.Enrichment
import RecordFilter.Query

/-!
# Decision — what becomes of each record

A sieve enriches records and puts them to a query.  A record is accepted, rejected or, where it
cannot be read or lacks a usable field, failed.  A tally counts the decisions.
-/

namespace RecordFilter

/-- Why a record could not be decided. -/
inductive Failure where
  | unreadable (e : RecordError)
  | field (e : FieldError)
  deriving DecidableEq, Repr

/-- Wording of a failure. -/
def Failure.message : Failure → Text
  | .unreadable e => e.message
  | .field e => e.message

/-- What becomes of a record. -/
inductive Decision where
  | accept (r : Record)
  | reject
  | failed (f : Failure)
  deriving Repr

/-- Whether a record is accepted. -/
def Decision.isAccept : Decision → Bool
  | .accept _ => true
  | _ => false

/-! ## Counting -/

/-- How many records were accepted, rejected and failed. -/
structure Tally where
  accepted : Nat
  rejected : Nat
  failed : Nat
  deriving DecidableEq, Repr

namespace Tally

/-- Nothing counted. -/
def zero : Tally := ⟨0, 0, 0⟩

/-- Counts one decision. -/
def count (t : Tally) : Decision → Tally
  | .accept _ => { t with accepted := t.accepted + 1 }
  | .reject => { t with rejected := t.rejected + 1 }
  | .failed _ => { t with failed := t.failed + 1 }

/-- The number of decisions counted. -/
def total (t : Tally) : Nat := t.accepted + t.rejected + t.failed

/-- The counts of two tallies together. -/
def add (s t : Tally) : Tally :=
  ⟨s.accepted + t.accepted, s.rejected + t.rejected, s.failed + t.failed⟩

end Tally

/-! ## Deciding -/

/-- A query together with the enrichment that comes before it. -/
structure Sieve where
  query : Query
  enrichment : Enrichment
  deriving DecidableEq, Repr

namespace Sieve

/-- The decision that an evaluation of a record makes. -/
def decisionOf (r : Record) : Except FieldError Bool → Decision
  | .ok true => .accept r
  | .ok false => .reject
  | .error e => .failed (.field e)

/-- Decides a record after enriching it. -/
def decide (sieve : Sieve) (r : Record) : Decision :=
  let enriched := sieve.enrichment.apply r
  decisionOf enriched (sieve.query.evaluate enriched)

/-- Decides a line of text.  A blank line is rejected. -/
def decideLine (sieve : Sieve) (line : Text) : Decision :=
  if (Text.trim line).isEmpty then .reject
  else
    match Record.read (Text.trim line) with
    | .ok r => sieve.decide r
    | .error e => .failed (.unreadable e)

/-- Evaluates the query on records that are already enriched. -/
def evaluateAll (sieve : Sieve) (records : List Record) : List (Except FieldError Bool) :=
  records.map sieve.query.evaluate

end Sieve
end RecordFilter
