import RecordFilter.Proofs.Command.Run
import RecordFilter.Proofs.Json.Blanks

/-!
# Verdicts — one record by itself, as a line and in a list

A record that is given by itself is read as it stands, and one that comes as a line is trimmed first.
Blanks around a record do not count for its reader, so the two get the same verdict, and the same
error (`evaluateText_agrees`).  Records in a list are enriched before they are evaluated, with the
verdicts that they get one by one (`evaluateAll_agrees`).  The command for one record shows what a
run over the line decides (`decideOne_agrees_with_line`).
-/

namespace RecordFilter

open Text

/-! ## Verdicts and decisions -/

/-- A verdict and a decision say the same: true for an accepted record, false for a rejected one, and
for one that failed the error that `failure` makes its failure. -/
structure Agrees {ε : Type} (failure : ε → Failure) (verdict : Except ε Bool) (d : Decision) :
    Prop where
  accepted : verdict = .ok true ↔ ∃ r, d = .accept r
  rejected : verdict = .ok false ↔ d = .reject
  failed : ∀ f, (∃ e, verdict = .error e ∧ failure e = f) ↔ d = .failed f

theorem agrees_decisionOf (r : Record) (verdict : Except FieldError Bool) :
    Agrees .field verdict (Sieve.decisionOf r verdict) := by
  cases verdict with
  | error e => constructor <;> simp [Sieve.decisionOf]
  | ok b =>
      cases b with
      | true => constructor <;> simp [Sieve.decisionOf]
      | false => constructor <;> simp [Sieve.decisionOf]

theorem mapError_eq_ok_iff {ε ε' α : Type} {x : Except ε α} {f : ε → ε'} {a : α} :
    x.mapError f = .ok a ↔ x = .ok a := by
  cases x with
  | error e => simp [Except.mapError]
  | ok b => simp [Except.mapError]

theorem mapError_eq_error_iff {ε ε' α : Type} {x : Except ε α} {f : ε → ε'} {e : ε'} :
    x.mapError f = .error e ↔ ∃ e', x = .error e' ∧ f e' = e := by
  cases x with
  | error e => simp [Except.mapError]
  | ok b => simp [Except.mapError]

/-- The error may be named as a failure already. -/
theorem Agrees.mapError {ε : Type} {failure : ε → Failure} {verdict : Except ε Bool} {d : Decision}
    (h : Agrees failure verdict d) : Agrees id (verdict.mapError failure) d where
  accepted := mapError_eq_ok_iff.trans h.accepted
  rejected := mapError_eq_ok_iff.trans h.rejected
  failed f := by
    simp only [id, exists_eq_right, mapError_eq_error_iff]
    exact h.failed f

/-! ## One record -/

/-- A line with a record in it, or with what is meant to be one: it is not blank, and the blanks at its
ends are spaces, tabs and carriage returns. -/
structure RecordLine (s : Text) : Prop where
  not_blank : allBlank s = false
  no_feed : '\n' ∉ s
  ends : ∃ p q, s = p ++ trim s ++ q ∧ ∀ c ∈ p ++ q, c = ' ' ∨ c = '\t' ∨ c = '\r'

namespace Sieve

variable {sieve : Sieve} {s : Text}

theorem read_trim (h : RecordLine s) : Record.read (trim s) = Record.read s := by
  rcases h.ends with ⟨p, q, hs, hblanks⟩
  have hall : Json.Blanks (p ++ q) := by
    intro c hc
    rcases hblanks c hc with rfl | rfl | rfl <;> rfl
  have hp : Json.Blanks p := fun c hc => hall c (List.mem_append_left q hc)
  have hq : Json.Blanks q := fun c hc => hall c (List.mem_append_right p hc)
  calc
    Record.read (trim s) = Record.read (p ++ trim s ++ q) := (Record.read_around hp hq).symm
    _ = Record.read s := by rw [← hs]

theorem evaluateText_agrees (sieve : Sieve) (h : RecordLine s) :
    Agrees id (sieve.evaluateText s) (sieve.decideLine s) := by
  have hne : (trim s).isEmpty = false := by
    rw [List.isEmpty_eq_false_iff, ne_eq, trim_eq_nil_iff, h.not_blank]
    exact Bool.false_ne_true
  rw [decideLine, hne, if_neg Bool.false_ne_true, read_trim h]
  cases hread : Record.read s with
  | error e =>
      rw [evaluateText, hread]
      exact ⟨by simp, by simp, by simp⟩
  | ok r =>
      have hverdict : sieve.evaluateText s =
          (sieve.query.evaluate (sieve.enrichment.apply r)).mapError .field := by
        simp only [evaluateText, hread]
        cases sieve.query.evaluate (sieve.enrichment.apply r) with
        | error e => rfl
        | ok b => rfl
      rw [hverdict]
      exact (agrees_decisionOf _ _).mapError

/-! ## A list of records -/

/-- Records that are enriched beforehand get the verdicts of the records as they came. -/
theorem evaluateAll_agrees (sieve : Sieve) (records : List Record) :
    List.Forall₂ (Agrees .field) (sieve.evaluateAll (records.map sieve.enrichment.apply))
      (records.map sieve.decide) := by
  induction records with
  | nil => exact .nil
  | cons r rest ih => exact .cons (agrees_decisionOf _ _) ih

end Sieve

/-! ## The command for one record -/

namespace Command

variable {settings : Settings} {filter s : Text} {query : Query} {around : Surroundings}
  {arguments : List Text} {sieve : Sieve} {stats : Bool}

/-- With a filter that reads, the command for one record shows the verdict on it. -/
theorem runAction_eval (hquery : Query.read settings.fields filter = .ok query)
    (around : Surroundings) (s : Text) (noAugment : Bool) :
    runAction around settings (.eval filter s false noAugment) =
      (((sieveOf query noAugment settings).evaluateText s).mapError .record).map
        fun accepted => ⟨Json.Value.booleanText accepted ++ ['\n'], [], around.disk⟩ := by
  have hfilter : readFilter filter false settings.fields = .ok query := by
    rw [readFilter, if_neg Bool.false_ne_true, hquery]
    rfl
  simp only [runAction, decideOne, hfilter, bind, Except.bind]
  cases (sieveOf query noAugment settings).evaluateText s with
  | error f => rfl
  | ok b => rfl

/-- What the command for one record shows or complains of, for the decision on the record as a line. -/
def shownFor (disk : FileTree.Disk) : Decision → Except Complaint Shown
  | .accept _ => .ok ⟨"true\n".toList, [], disk⟩
  | .reject => .ok ⟨"false\n".toList, [], disk⟩
  | .failed f => .error (.record f)

theorem runAction_eval_of_line (hquery : Query.read settings.fields filter = .ok query)
    (around : Surroundings) (noAugment : Bool) (hline : RecordLine s) :
    runAction around settings (.eval filter s false noAugment) =
      shownFor around.disk ((sieveOf query noAugment settings).decideLine s) := by
  have hagrees := Sieve.evaluateText_agrees (sieveOf query noAugment settings) hline
  rw [runAction_eval hquery]
  cases hdecision : (sieveOf query noAugment settings).decideLine s with
  | accept r =>
      rw [hagrees.accepted.2 ⟨r, hdecision⟩]
      rfl
  | reject =>
      rw [hagrees.rejected.2 hdecision]
      rfl
  | failed f =>
      rcases (hagrees.failed f).2 hdecision with ⟨e, herror, rfl⟩
      rw [herror]
      rfl

/-- What a run over a single line writes, however the line is ended. -/
theorem output_of_line (h : RecordLine s) {ending : Text}
    (hending : ending = [] ∨ ending = ['\n'] ∨ ending = ['\r', '\n'])
    (hstarts : Starts around arguments sieve stats [s ++ ending]) :
    (respond around arguments).output = sieve.written s := by
  have hne : s ≠ [] := by
    intro heq
    have hblank := h.not_blank
    rw [heq] at hblank
    exact Bool.false_ne_true hblank.symm
  have hholds : HoldsLines (s ++ ending) [s] := by
    rcases hending with rfl | rfl | rfl
    · rw [List.append_nil]
      exact .unended h.no_feed hne
    · exact .feed h.no_feed .nil
    · exact .returnFeed h.no_feed .nil
  rw [respond_of_starts hstarts, Sieve.report_eq_reportOf (.cons hholds .nil), Sieve.text_reportOf,
    List.flatten_singleton, List.flatMap_singleton]

/-- A filter that reads says the same of a record by itself, of the record as a line, and of the record
in a list.  The command for one record shows `true` where the line is accepted, and then a run writes
the record; it shows `false` where the line is rejected; and it complains of the failure of the line
where that fails, with nothing on its output.  Records that are enriched and then evaluated in a list
get, place by place, the verdicts that they get one by one. -/
theorem decideOne_agrees_with_line {noAugment : Bool}
    (hquery : Query.read settings.fields filter = .ok query)
    (hsieve : sieveOf query noAugment settings = sieve) :
    (∀ s, RecordLine s →
      (∀ around,
        (runAction around settings (.eval filter s false noAugment) =
            .ok ⟨"true\n".toList, [], around.disk⟩ ↔ ∃ r, sieve.decideLine s = .accept r) ∧
        (runAction around settings (.eval filter s false noAugment) =
            .ok ⟨"false\n".toList, [], around.disk⟩ ↔ sieve.decideLine s = .reject) ∧
        (∀ complaint,
          runAction around settings (.eval filter s false noAugment) = .error complaint ↔
            ∃ f, complaint = .record f ∧ sieve.decideLine s = .failed f) ∧
        ∀ arguments f, read? arguments = some (.command (.eval filter s false noAugment)) →
          loadSettings around = .ok settings → checkLogFilter around.environment settings = .ok () →
          sieve.decideLine s = .failed f →
          respond around arguments = ⟨1, [], (Complaint.record f).text, around.disk⟩) ∧
      ∀ around arguments stats ending, ending = [] ∨ ending = ['\n'] ∨ ending = ['\r', '\n'] →
        Starts around arguments sieve stats [s ++ ending] →
        (∀ r, sieve.decideLine s = .accept r →
          (respond around arguments).output = r.text ++ ['\n']) ∧
        ((∀ r, sieve.decideLine s ≠ .accept r) → (respond around arguments).output = [])) ∧
    ∀ records : List Record, List.Forall₂ (Agrees .field)
      (sieve.evaluateAll (records.map sieve.enrichment.apply)) (records.map sieve.decide) := by
  refine ⟨fun s hline => ⟨fun around => ?_, ?_⟩, Sieve.evaluateAll_agrees sieve⟩
  · have hrun := runAction_eval_of_line hquery around noAugment hline
    rw [hsieve] at hrun
    refine ⟨?_, ?_, ?_, ?_⟩
    · rw [hrun]
      cases sieve.decideLine s with
      | accept r => simp [shownFor]
      | reject => simp [shownFor]
      | failed f => simp [shownFor]
    · rw [hrun]
      cases sieve.decideLine s with
      | accept r => simp [shownFor]
      | reject => simp [shownFor]
      | failed f => simp [shownFor]
    · intro complaint
      rw [hrun]
      cases sieve.decideLine s with
      | accept r => simp [shownFor]
      | reject => simp [shownFor]
      | failed f => simp [shownFor, eq_comm]
    · intro arguments f hcommand hsettings hlog hdecision
      rw [respond_of_runAction hcommand hsettings hlog, hrun, hdecision]
      rfl
  · intro around arguments stats ending hending hstarts
    rw [output_of_line hline hending hstarts, Sieve.written]
    constructor
    · intro r haccept
      rw [haccept]
    · intro hnone
      cases hdecision : sieve.decideLine s with
      | accept r => exact absurd hdecision (hnone r)
      | reject => rfl
      | failed f => rfl

/-- A record with blanks around it: the command for it shows what becomes of it as a line. -/
theorem decideOne_of_padded_record :
    runAction ⟨⟨.directory [], []⟩, [], []⟩ Settings.default
        (.eval "SELECT * FROM s".toList "\t\x7b\x7d \r".toList false true) =
      .ok ⟨"true\n".toList, [], ⟨.directory [], []⟩⟩ := by
  have hline : RecordLine "\t\x7b\x7d \r".toList :=
    ⟨by decide, by decide, ['\t'], [' ', '\r'], by decide, by simp⟩
  have hread : Record.read (trim "\t\x7b\x7d \r".toList) = .ok ⟨[]⟩ := rfl
  have hdecision : (sieveOf everything true Settings.default).decideLine "\t\x7b\x7d \r".toList =
      .accept ⟨[]⟩ := by
    rw [Sieve.decideLine, if_neg (by decide), hread]
    rfl
  have hsieve : sieveOf everything true Settings.default = ⟨everything, .disabled⟩ := rfl
  have hshows := (decideOne_agrees_with_line (read_everything Settings.default.fields) hsieve).1 _ hline
  exact (hshows.1 ⟨⟨.directory [], []⟩, [], []⟩).1.2 ⟨_, hdecision⟩

end Command
end RecordFilter
