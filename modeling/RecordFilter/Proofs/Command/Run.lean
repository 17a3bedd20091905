import RecordFilter.Proofs.Command.Tallies
import RecordFilter.Proofs.Condition.Precedence
import RecordFilter.Proofs.Report.Stream

/-!
# Run — what a run over lines writes

A run that starts, with settings and a filter that read and inputs that are there, ends with exit
code zero and the report on its texts (`respond_of_starts`).  So its output is made line by line,
whatever stands between the lines it accepts, and a run over one text and then another writes what
the two runs write by themselves (`output_of_lines`).
-/

namespace RecordFilter
namespace Command

open Text

/-! ## Runs that start -/

/-- The texts that a run reads: the standard input, or the files that its input names, in order. -/
inductive Provides (s : Surroundings) : Option Text → List Text → Prop where
  | standardInput : Provides s none [s.input]
  | files {input : Text} {paths contents : List Text} :
      s.disk.inputs? input = some paths → paths ≠ [] →
      List.Forall₂ (fun path content => s.disk.read? path = some content) paths contents →
      Provides s (some input) contents

/-- A run with this sieve over these texts: the arguments ask for it, the settings load, the filter
of the log is one, the filter reads and the inputs are there. -/
inductive Starts (s : Surroundings) (arguments : List Text) : Sieve → Bool → List Text → Prop where
  | run {filter input : Option Text} {stats noAugment : Bool} {settings : Settings} {text : Text}
      {query : Query} {contents : List Text} :
      read? arguments = some (.command (.run filter input stats noAugment)) →
      loadSettings s = .ok settings →
      checkLogFilter s.environment settings = .ok () →
      filter.or settings.stream.filterLogic = some text →
      Query.read settings.fields text = .ok query →
      Provides s input contents →
      Starts s arguments (sieveOf query noAugment settings) stats contents

variable {s : Surroundings} {arguments : List Text} {sieve : Sieve} {stats : Bool}
  {input : Option Text} {contents : List Text} {settings : Settings}

/-- The program's response where its arguments ask for a command and it gets as far as running it. -/
theorem respond_of_runAction {action : Action} (hcommand : read? arguments = some (.command action))
    (hsettings : loadSettings s = .ok settings)
    (hlog : checkLogFilter s.environment settings = .ok ()) :
    respond s arguments =
      match runAction s settings action with
      | .ok shown => ⟨0, shown.output, shown.errors, shown.disk⟩
      | .error complaint => ⟨complaint.exitCode, [], complaint.text, s.disk⟩ := by
  have hperform : perform s action = runAction s settings action := by
    rw [perform, hsettings]
    simp only [bind, Except.bind, hlog]
  cases hrun : runAction s settings action with
  | ok shown => simp only [respond, hcommand, hperform, hrun]
  | error complaint => simp only [respond, hcommand, hperform, hrun]

/-- Where each step of a list succeeds, the results are listed. -/
theorem mapM_of_forall₂ {α β ε : Type} {f : α → Except ε β} {as : List α} {bs : List β}
    (h : List.Forall₂ (fun a b => f a = .ok b) as bs) : as.mapM f = .ok bs := by
  induction h with
  | nil => rfl
  | cons hstep _ ih =>
      rw [List.mapM_cons, hstep, ih]
      rfl

theorem runContents_of_provides : Provides s input contents → runContents s input = .ok contents := by
  intro h
  cases h with
  | standardInput => rfl
  | @files input paths contents hinputs hne hread =>
      cases paths with
      | nil => exact absurd rfl hne
      | cons path rest =>
          simp only [runContents, hinputs]
          refine mapM_of_forall₂ (hread.imp ?_)
          intro path content hcontent
          rw [hcontent]

/-- What a run that starts responds. -/
theorem respond_of_starts (h : Starts s arguments sieve stats contents) :
    respond s arguments = ⟨0, (sieve.report contents).text,
      if stats then tallyText (sieve.report contents).tally else [], s.disk⟩ := by
  cases h with
  | @run filter input stats noAugment settings text query contents hcommand hsettings hlog htext hquery
      hprovides =>
      have hfilter : readFilter text false settings.fields = .ok query := by
        rw [readFilter, if_neg Bool.false_ne_true, hquery]
        rfl
      have hstream : filterStream s filter input stats noAugment settings =
          .ok ⟨((sieveOf query noAugment settings).report contents).text,
            if stats then tallyText ((sieveOf query noAugment settings).report contents).tally else [],
            s.disk⟩ := by
        simp only [filterStream, htext, hfilter, runContents_of_provides hprovides]
        rfl
      rw [respond_of_runAction hcommand hsettings hlog, runAction, hstream]

/-! ## Runs over lines -/

/-- The response of a run in terms of the lines of its texts. -/
theorem respond_of_lines (h : Starts s arguments sieve stats contents) :
    respond s arguments = ⟨0, (contents.flatMap lines).flatMap sieve.written,
      if stats then tallyText (sieve.reportOf (contents.flatMap lines)).tally else [], s.disk⟩ := by
  rw [respond_of_starts h, Sieve.report_eq_reportOf_lines, Sieve.text_reportOf]

/-- Texts that hold lines `xs` and then `ys`, in one file or in two: both runs write what the runs over
the two parts write, one behind the other, and their tallies are the sum. -/
theorem report_of_parts (sieve : Sieve) {xs ys : List Text} {both first second : Text}
    (hboth : HoldsLines both (xs ++ ys)) (hfirst : HoldsLines first xs)
    (hsecond : HoldsLines second ys) :
    sieve.report [both] = (sieve.report [first]).append (sieve.report [second]) ∧
      sieve.report [first, second] = sieve.report [both] := by
  have hone : ∀ {content ls}, HoldsLines content ls → sieve.report [content] = sieve.reportOf ls := by
    intro content ls hholds
    rw [Sieve.report_eq_reportOf (.cons hholds .nil), List.flatten_singleton]
  have hparts : sieve.report [both] = (sieve.report [first]).append (sieve.report [second]) := by
    rw [hone hboth, hone hfirst, hone hsecond, Sieve.reportOf_append]
  exact ⟨hparts, by rw [Sieve.report_cons, hparts]⟩

/-- A run ends with exit code zero and one line for each accepted record, in the order of the lines it
reads.  The tally that it shows counts the lines it writes as accepted, and in all the lines that are not
blank.  How lines are spread over files and how they are ended makes no difference, and a run over lines
and then further lines writes what the runs over either write and shows the sum of their tallies. -/
theorem output_of_lines (sieve : Sieve) :
    (∀ s arguments stats contents, Starts s arguments sieve stats contents →
      ∃ tally, respond s arguments = ⟨0, (contents.flatMap lines).flatMap sieve.written,
          if stats then tallyText tally else [], s.disk⟩ ∧
        (stats = true → ShowsTally (respond s arguments).errors tally) ∧
        lines (respond s arguments).output = (contents.flatMap lines).filterMap sieve.accepted? ∧
        tally.accepted = (lines (respond s arguments).output).length ∧
        tally.total = ((contents.flatMap lines).filter fun line => !allBlank line).length) ∧
    ∀ xs ys both first second, HoldsLines both (xs ++ ys) → HoldsLines first xs →
      HoldsLines second ys → ∀ s₁ s₂ s₃ s₄ arguments₁ arguments₂ arguments₃ arguments₄,
      Starts s₁ arguments₁ sieve true [both] → Starts s₂ arguments₂ sieve true [first, second] →
      Starts s₃ arguments₃ sieve true [first] → Starts s₄ arguments₄ sieve true [second] →
      ∃ t u, ShowsTally (respond s₃ arguments₃).errors t ∧
        ShowsTally (respond s₄ arguments₄).errors u ∧
        ShowsTally (respond s₁ arguments₁).errors (t.add u) ∧
        (respond s₁ arguments₁).output =
          (respond s₃ arguments₃).output ++ (respond s₄ arguments₄).output ∧
        (respond s₂ arguments₂).output = (respond s₁ arguments₁).output ∧
        (respond s₂ arguments₂).errors = (respond s₁ arguments₁).errors := by
  constructor
  · intro s arguments stats contents h
    refine ⟨(sieve.reportOf (contents.flatMap lines)).tally, respond_of_lines h, ?_, ?_, ?_, ?_⟩
    · rintro rfl
      rw [respond_of_lines h]
      exact showsTally_tallyText _
    · rw [respond_of_lines h, ← Sieve.text_reportOf, Sieve.lines_text_reportOf]
    · rw [respond_of_lines h, ← Sieve.text_reportOf, Sieve.lines_text_reportOf,
        Sieve.accepted_tally_reportOf]
    · exact Sieve.total_tally_reportOf sieve _
  · intro xs ys both first second hboth hfirst hsecond s₁ s₂ s₃ s₄ arguments₁ arguments₂ arguments₃
      arguments₄ h₁ h₂ h₃ h₄
    have hparts := report_of_parts sieve hboth hfirst hsecond
    refine ⟨(sieve.report [first]).tally, (sieve.report [second]).tally, ?_⟩
    rw [respond_of_starts h₁, respond_of_starts h₂, respond_of_starts h₃, respond_of_starts h₄,
      hparts.2, hparts.1, Report.text_append]
    exact ⟨showsTally_tallyText _, showsTally_tallyText _, showsTally_tallyText _, rfl, rfl, rfl⟩

/-- The query of a statement without a condition. -/
def everything : Query := ⟨"SELECT * FROM s".toList, ['s'], Condition.truthWord true, .truth true⟩

theorem read_everything (schema : Schema) :
    Query.read schema "SELECT * FROM s".toList = .ok everything := by
  have hparts : Query.statement? "SELECT * FROM s".toList = some ⟨['*'], ['s'], none⟩ := by decide
  simp only [Query.read, hparts]
  rw [if_neg (by simp), if_neg (by decide), Query.conditionOf, Condition.read_truthWord]
  rfl

/-- A disk with the same lines in one file and in two. -/
def lineFiles : FileTree.Disk :=
  ⟨.directory [("all".toList, .file "{}\r\n\n[]\n{}".toList),
    ("parts".toList, .directory [("1.json".toList, .file "{}\n\r\n".toList),
      ("2.json".toList, .file "[]\n{}".toList)])], []⟩

/-- The arguments that ask for a run over an input. -/
def argumentsOver (input : String) : List Text :=
  ["run".toList, "--stats".toList, "--filter".toList, "SELECT * FROM s".toList, "--input".toList,
    input.toList]

/-- What a run over an input on that disk responds. -/
def respondOver (input : String) : Response := respond ⟨lineFiles, [], []⟩ (argumentsOver input)

/-- Two records, a blank line and a line with no record, in one file and in two. -/
theorem output_of_two_files :
    (respondOver "all").exitCode = 0 ∧ lines (respondOver "all").output = ["{}".toList, "{}".toList] ∧
      ShowsTally (respondOver "parts/1.json").errors ⟨1, 0, 0⟩ ∧
      ShowsTally (respondOver "parts/2.json").errors ⟨1, 0, 1⟩ ∧
      ShowsTally (respondOver "all").errors ⟨2, 0, 1⟩ ∧
      (respondOver "all").output =
        (respondOver "parts/1.json").output ++ (respondOver "parts/2.json").output ∧
      (respondOver "parts").output = (respondOver "all").output ∧
      (respondOver "parts").errors = (respondOver "all").errors := by
  have hstarts : ∀ {input : String} {contents}, read? (argumentsOver input) =
        some (.command (.run (some "SELECT * FROM s".toList) (some input.toList) true false)) →
      Provides ⟨lineFiles, [], []⟩ (some input.toList) contents →
      Starts ⟨lineFiles, [], []⟩ (argumentsOver input) (sieveOf everything false Settings.default) true
        contents := by
    intro input contents hcommand hprovides
    exact .run hcommand rfl (by decide) rfl (read_everything _) hprovides
  have hall : Provides ⟨lineFiles, [], []⟩ (some "all".toList) ["{}\r\n\n[]\n{}".toList] :=
    .files (by decide : _ = some ["all".toList]) (by decide) (.cons (by decide) .nil)
  have hfirst : Provides ⟨lineFiles, [], []⟩ (some "parts/1.json".toList) ["{}\n\r\n".toList] :=
    .files (by decide : _ = some ["parts/1.json".toList]) (by decide) (.cons (by decide) .nil)
  have hsecond : Provides ⟨lineFiles, [], []⟩ (some "parts/2.json".toList) ["[]\n{}".toList] :=
    .files (by decide : _ = some ["parts/2.json".toList]) (by decide) (.cons (by decide) .nil)
  have hparts : Provides ⟨lineFiles, [], []⟩ (some "parts".toList)
      ["{}\n\r\n".toList, "[]\n{}".toList] := by
    have hinputs : lineFiles.inputs? "parts".toList =
        some ["parts/1.json".toList, "parts/2.json".toList] := by
      have hsorted : FileTree.Path.sort ["parts/1.json".toList, "parts/2.json".toList] =
          ["parts/1.json".toList, "parts/2.json".toList] := List.mergeSort_of_pairwise (by decide)
      exact congrArg some hsorted
    exact .files hinputs (by decide) (.cons (by decide) (.cons (by decide) .nil))
  have hone := hstarts (by decide +kernel : read? (argumentsOver "all") = _) hall
  have hempty : HoldsLines "\r\n".toList [[]] := .returnFeed List.not_mem_nil .nil
  have hrecord : HoldsLines "{}".toList ["{}".toList] := .unended (by decide) (by decide)
  have hbefore : HoldsLines "{}\n\r\n".toList ["{}".toList, []] :=
    HoldsLines.feed (by decide : '\n' ∉ "{}".toList) hempty
  have hbehind : HoldsLines "[]\n{}".toList ["[]".toList, "{}".toList] :=
    HoldsLines.feed (by decide : '\n' ∉ "[]".toList) hrecord
  have hboth : HoldsLines "{}\r\n\n[]\n{}".toList (["{}".toList, []] ++ ["[]".toList, "{}".toList]) :=
    HoldsLines.returnFeed (by decide : '\n' ∉ "{}".toList) (.feed List.not_mem_nil hbehind)
  rcases (output_of_lines _).1 _ _ _ _ hone with ⟨tally, hresponse, -, hlines, -⟩
  rcases (output_of_lines _).2 _ _ _ _ _ hboth hbefore hbehind _ _ _ _ _ _ _ _ hone
    (hstarts (by decide +kernel) hparts) (hstarts (by decide +kernel) hfirst)
    (hstarts (by decide +kernel) hsecond) with ⟨t, u, ht, hu, hsum, hrest⟩
  have ht' : ⟨1, 0, 0⟩ = t := ht.only _ (by decide +kernel)
  have hu' : ⟨1, 0, 1⟩ = u := hu.only _ (by decide +kernel)
  subst ht' hu'
  refine ⟨congrArg Response.exitCode hresponse, hlines.trans ?_, ht, hu, hsum, hrest⟩
  decide +kernel

end Command
end RecordFilter
