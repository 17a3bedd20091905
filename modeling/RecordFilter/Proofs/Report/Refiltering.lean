import RecordFilter.Proofs.Enrichment.Stability
import RecordFilter.Proofs.Json.RoundTrip
import RecordFilter.Proofs.Report.Stream

/-!
# Refiltering — a filtered stream passes its filter

The text of an accepted record is accepted again, with the same record (`decideLine_text`): it is read
as the record (`Record.read_text`), which is not enriched further (`Enrichment.apply_apply`), and the
query gives the same answer.  So the report on a report's text is that report, without the lines that
were not accepted (`report_text_report`).
-/

namespace RecordFilter

open Text (trim)

variable {sieve : Sieve} {r : Record} {line : Text}

/-- The text of each finite float in a record is read as that float. -/
def Record.FloatsReadBack (r : Record) : Prop :=
  ∀ x, (Json.Value.object r.fields).HasFloat x → x.isFinite = true → Json.ReadsBack x

/-- The text of a record stands in braces, without blanks around it. -/
theorem Record.trim_text (r : Record) : trim r.text = r.text := by
  have htext : r.text = '\x7b' :: (Json.membersText r.fields ++ ['\x7d']) := by
    rw [Record.text, Json.Value.text]
    rfl
  rw [htext]
  refine Text.trim_eq_self ?_ ?_
  · intro c hc
    cases hc
    decide
  · intro c hc
    rw [← List.cons_append, List.getLast?_concat] at hc
    cases hc
    decide

theorem Record.text_ne_nil (r : Record) : r.text ≠ [] := by
  rw [Record.text, Json.Value.text]
  exact List.cons_ne_nil _ _

namespace Sieve

/-- An accepted record is the enriched form of the record on its line. -/
theorem decideLine_eq_accept (h : sieve.decideLine line = .accept r) :
    ∃ raw, Record.read (trim line) = .ok raw ∧ r = sieve.enrichment.apply raw ∧
      sieve.query.evaluate r = .ok true := by
  rw [decideLine] at h
  split at h
  case isTrue => cases h
  case isFalse =>
    split at h
    case h_1 raw hread =>
      refine ⟨raw, hread, ?_⟩
      simp only [decide, decisionOf] at h
      split at h
      case h_1 htrue =>
        cases h
        exact ⟨rfl, htrue⟩
      case h_2 => cases h
      case h_3 => cases h
    case h_2 => cases h

/-- The text of a record is decided as the record. -/
theorem decideLine_text_of_fits
    (h : (Json.Value.object r.fields).Fits Json.ReadsBack Json.depthLimit) :
    sieve.decideLine r.text = sieve.decide r := by
  have hline : ¬(r.text.isEmpty = true) := by
    rw [List.isEmpty_iff]
    exact Record.text_ne_nil r
  rw [decideLine, Record.trim_text, if_neg hline, Record.read_text h]

/-- The text of an accepted record is accepted as the same record. -/
theorem decideLine_text (hapart : sieve.enrichment.Apart) (h : sieve.decideLine line = .accept r)
    (hfloats : r.FloatsReadBack) : sieve.decideLine r.text = .accept r := by
  rcases decideLine_eq_accept h with ⟨raw, hread, rfl, htrue⟩
  -- what was read nests no deeper than the reader goes, and the copies are scalars
  have hraw := Record.fits_of_read hread
  have hkeys : raw.fields.Increasing := by
    cases hraw with
    | object hkeys hms => exact hkeys
  have hfits := Enrichment.fits_apply sieve.enrichment hraw
  calc
    sieve.decideLine (sieve.enrichment.apply raw).text = sieve.decide (sieve.enrichment.apply raw) :=
      decideLine_text_of_fits (hfits.imp hfloats)
    _ = .accept (sieve.enrichment.apply raw) := by
      simp only [decide, Enrichment.apply_apply hapart hkeys, htrue, decisionOf]

/-! ## Streams -/

/-- Where each line is accepted as the record it is the text of, the report has all of them. -/
theorem reportOf_of_accepted {ls : List Text}
    (h : ∀ line ∈ ls, ∃ r : Record, r.text = line ∧ sieve.decideLine line = .accept r) :
    sieve.reportOf ls = ⟨ls, ⟨ls.length, 0, 0⟩⟩ := by
  induction ls with
  | nil => rfl
  | cons line rest ih =>
      rcases List.forall_mem_cons.1 h with ⟨⟨r, rfl, haccepted⟩, hrest⟩
      have hblank : Text.allBlank r.text ≠ true := by
        intro hblank
        rw [decideLine_of_allBlank hblank] at haccepted
        cases haccepted
      have hone : sieve.reportOf [r.text] = ⟨[r.text], ⟨1, 0, 0⟩⟩ := by
        rw [reportOf_singleton, if_neg hblank, haccepted]
        rfl
      rw [reportOf_cons, hone, ih hrest]
      simp [Report.append, Tally.add, Nat.add_comm]

/-- The lines of a report's text are the texts of its accepted records. -/
theorem lines_text_report (sieve : Sieve) (contents : List Text) :
    Text.lines (sieve.report contents).text = (sieve.report contents).accepted := by
  rw [report_eq_reportOf_lines, lines_text_reportOf, accepted_reportOf]

/-- A filtered stream passes its filter as it is. -/
theorem report_text_report (hapart : sieve.enrichment.Apart) {contents : List Text}
    (hfloats : ∀ r, Decision.accept r ∈ contents.flatMap sieve.decisions → r.FloatsReadBack) :
    sieve.report [(sieve.report contents).text] =
      ⟨(sieve.report contents).accepted, ⟨(sieve.report contents).tally.accepted, 0, 0⟩⟩ := by
  rw [report_eq_reportOf_lines sieve [_], List.flatMap_singleton, lines_text_report]
  -- each line is now the text of a record that was accepted
  have haccepted : ∀ text ∈ (sieve.report contents).accepted,
      ∃ r : Record, r.text = text ∧ sieve.decideLine text = .accept r := by
    intro text htext
    rcases List.mem_filterMap.1 htext with ⟨decision, hdecision, haccept⟩
    cases decision with
    | reject => cases haccept
    | failed f => cases haccept
    | accept r =>
        cases haccept
        rcases List.mem_flatMap.1 hdecision with ⟨content, -, hmem⟩
        rcases List.mem_map.1 hmem with ⟨line, -, hline⟩
        exact ⟨r, rfl, decideLine_text hapart hline (hfloats r hdecision)⟩
  rw [reportOf_of_accepted haccepted]
  congr 2
  exact (Report.accepted_tally_ofDecisions _).symm

/-- Filtering what a filter let through changes nothing: the text of each accepted record is accepted
as the same record, and the report on a report's text has the same records and no others. -/
theorem refiltered (sieve : Sieve) (hapart : sieve.enrichment.Apart) :
    (∀ line r, sieve.decideLine line = .accept r → r.FloatsReadBack →
        sieve.decideLine r.text = .accept r) ∧
      ∀ contents, (∀ r, Decision.accept r ∈ contents.flatMap sieve.decisions → r.FloatsReadBack) →
        sieve.report [(sieve.report contents).text] =
          ⟨(sieve.report contents).accepted, ⟨(sieve.report contents).tally.accepted, 0, 0⟩⟩ :=
  ⟨fun _ _ haccepted hfloats => decideLine_text hapart haccepted hfloats,
    fun _ hfloats => report_text_report hapart hfloats⟩

/-- A line with a nested attribute, which the default enrichment copies as a float. -/
theorem refiltered_longitude :
    let sieve : Sieve :=
      ⟨⟨"SELECT * FROM s".toList, ['s'], Condition.truthWord true, .truth true⟩, .default⟩
    let nested : Text × Json.Value :=
      ("attributes".toList, .object [("longitude".toList, .string "0.5".toList)])
    let r : Record := ⟨[nested, ("longitude".toList, .number (.real 0.5))]⟩
    sieve.decideLine "\x7b\"attributes\":\x7b\"longitude\":\"0.5\"\x7d\x7d".toList = .accept r ∧
      sieve.decideLine r.text = .accept r := by
  intro sieve nested r
  have hraw : (Json.Value.object [nested]).Fits Json.ReadsBack Json.depthLimit := by
    refine .object (List.pairwise_singleton _ _) (List.forall_mem_singleton.2 ?_)
    exact .object (List.pairwise_singleton _ _) (List.forall_mem_singleton.2 (.string _))
  have hline : (⟨[nested]⟩ : Record).text =
      "\x7b\"attributes\":\x7b\"longitude\":\"0.5\"\x7d\x7d".toList := by decide +kernel
  have haccepted : sieve.decideLine (⟨[nested]⟩ : Record).text = .accept r := by
    rw [decideLine_text_of_fits hraw]
    rfl
  have hfloats : r.FloatsReadBack := by
    have hhalf : Json.ReadsBack 0.5 := Json.readsBack_iff.2 (by decide +kernel)
    intro x hx hfinite
    rcases hx with _ | _ | ⟨hm, hx⟩
    rcases List.mem_cons.1 hm with rfl | hm
    · rcases hx with _ | _ | ⟨hm, hx⟩
      rw [List.mem_singleton.1 hm] at hx
      cases hx
    · rw [List.mem_singleton.1 hm] at hx
      cases hx
      exact hhalf
  rw [← hline]
  exact ⟨haccepted, (refiltered sieve (by decide)).1 _ r haccepted hfloats⟩

end Sieve
end RecordFilter
