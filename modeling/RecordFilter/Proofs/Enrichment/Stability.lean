import RecordFilter.Enrichment
import RecordFilter.Proofs.Json.Fitting

/-!
# Stability — an enriched record is not enriched further

Enrichment reads three fields of a record and writes others.  Where no field that is written is one that
is read (`Apart`), a second enrichment makes the same copies, and the record stays as it is
(`apply_apply`).  The copies are strings and finite floats, so an enriched record fits where the record
did (`fits_apply`).
-/

namespace RecordFilter
namespace Enrichment

open Json (Members Value)

variable {e : Enrichment} {r s : Record} {v w : Value} {ms : Members} {m : Text × Value} {depth : Nat}

/-! ## Sources and targets -/

/-- The fields that are read. -/
def sources (e : Enrichment) : List Text := [e.datastreamKey, e.metaKey, e.timeSource]

/-- The fields that are written. -/
def targets (e : Enrichment) : List Text :=
  e.datastreamAttributes ++ e.metaAttributes ++ [e.timeTarget]

/-- No field is both written and read. -/
def Apart (e : Enrichment) : Prop := ∀ target ∈ e.targets, target ∉ e.sources

instance (e : Enrichment) : Decidable e.Apart :=
  inferInstanceAs (Decidable (∀ target ∈ e.targets, target ∉ e.sources))

example : default.Apart := by decide

/-- What is copied depends on the sources alone. -/
theorem copies_congr (h : ∀ source ∈ e.sources, r.get? source = s.get? source) :
    e.copies r = e.copies s := by
  have hdatastream : r.get? e.datastreamKey = s.get? e.datastreamKey := h _ (by simp [sources])
  have hmeta : r.get? e.metaKey = s.get? e.metaKey := h _ (by simp [sources])
  have htime : r.get? e.timeSource = s.get? e.timeSource := h _ (by simp [sources])
  simp only [copies, membersOf, hdatastream, hmeta, htime]

/-! ## Copies -/

theorem asText?_eq_some (h : asText? v = some w) : ∃ t, w = .string t := by
  rcases Option.map_eq_some_iff.1 h with ⟨t, -, rfl⟩
  exact ⟨t, rfl⟩

theorem finite?_eq_some {x : Float} (h : finite? x = some w) :
    w = .number (.real x) ∧ x.isFinite = true := by
  rw [finite?] at h
  split at h
  case isTrue hfinite =>
    cases h
    exact ⟨rfl, hfinite⟩
  case isFalse => cases h

theorem asNumber?_eq_some (h : asNumber? v = some w) :
    ∃ x, w = .number (.real x) ∧ x.isFinite = true := by
  cases v with
  | number n => exact ⟨n.toFloat, finite?_eq_some h⟩
  | string t =>
      rcases Option.bind_eq_some_iff.1 h with ⟨x, -, hx⟩
      exact ⟨x, finite?_eq_some hx⟩
  | null => cases h
  | boolean b => cases h
  | array items => cases h
  | object members => cases h

theorem mem_pick {convert : Value → Option Value} {names : List Text} (h : m ∈ pick convert names ms) :
    m.1 ∈ names ∧ ∃ v, convert v = some m.2 := by
  rcases List.mem_filterMap.1 h with ⟨name, hname, hm⟩
  rcases Option.map_eq_some_iff.1 hm with ⟨w, hw, rfl⟩
  rcases Option.bind_eq_some_iff.1 hw with ⟨v, -, hv⟩
  exact ⟨hname, v, hv⟩

/-- A copy is put in a target, and is a string or a finite float. -/
theorem mem_copies (h : m ∈ e.copies r) :
    m.1 ∈ e.targets ∧ ∀ depth, m.2.FitsFinite depth := by
  have htext : ∀ {v w}, asText? v = some w → ∀ depth, w.FitsFinite depth := by
    intro v w hw depth
    rcases asText?_eq_some hw with ⟨t, rfl⟩
    exact .string t
  rcases List.mem_append.1 h with hattributes | htime
  · rcases List.mem_append.1 hattributes with hdatastream | hmeta
    · rcases mem_pick hdatastream with ⟨hname, v, hv⟩
      exact ⟨by simp [targets, hname], htext hv⟩
    · rcases mem_pick hmeta with ⟨hname, v, hv⟩
      rcases asNumber?_eq_some hv with ⟨x, hx, hfinite⟩
      rw [hx]
      exact ⟨by simp [targets, hname], fun depth => .number hfinite⟩
  · rcases Option.map_eq_some_iff.1 (Option.mem_toList.1 htime) with ⟨w, hw, rfl⟩
    rcases Option.bind_eq_some_iff.1 hw with ⟨v, -, hv⟩
    exact ⟨by simp [targets], htext hv⟩

/-! ## The enriched record -/

theorem fields_apply (h : e.enabled = true) (r : Record) :
    (e.apply r).fields = Members.insertAll (e.copies r) r.fields := by
  have hfold : ∀ (copies : Members) (r : Record),
      (copies.foldl (fun r m => r.insert m.1 m.2) r).fields =
        Members.insertAll copies r.fields := by
    intro copies
    induction copies with
    | nil =>
        intro r
        rfl
    | cons m copies ih =>
        intro r
        exact ih (r.insert m.1 m.2)
  rw [apply, if_pos h]
  exact hfold (e.copies r) r

theorem apply_of_disabled (h : e.enabled = false) (r : Record) : e.apply r = r := by
  rw [apply, h]
  rfl

/-- The sources are found as they were. -/
theorem get?_apply_of_apart (hapart : e.Apart) {source : Text} (h : source ∈ e.sources) :
    (e.apply r).get? source = r.get? source := by
  cases henabled : e.enabled with
  | false => rw [apply_of_disabled henabled]
  | true =>
      have hne : ∀ m ∈ e.copies r, m.1 ≠ source := by
        rintro m hm rfl
        exact hapart m.1 (mem_copies hm).1 h
      rw [Record.get?, fields_apply henabled]
      exact Members.get?_insertAll_of_ne hne r.fields

/-- Enriching an enriched record changes nothing. -/
theorem apply_apply (hapart : e.Apart) (h : r.fields.Increasing) :
    e.apply (e.apply r) = e.apply r := by
  cases henabled : e.enabled with
  | false => rw [apply_of_disabled henabled, apply_of_disabled henabled]
  | true =>
      have hcopies : e.copies (e.apply r) = e.copies r :=
        copies_congr fun source hsource => get?_apply_of_apart hapart hsource
      have hfields : (e.apply (e.apply r)).fields = (e.apply r).fields :=
        calc
          (e.apply (e.apply r)).fields = Members.insertAll (e.copies r) (e.apply r).fields := by
            rw [fields_apply henabled, hcopies]
          _ = Members.insertAll (e.copies r) (Members.insertAll (e.copies r) r.fields) := by
            rw [fields_apply henabled]
          _ = (e.apply r).fields := by
            rw [Members.insertAll_insertAll h, fields_apply henabled]
      exact congrArg Record.mk hfields

/-- The copies do not make a record deeper, and leave its fields in order. -/
theorem fits_apply (e : Enrichment) (h : (Value.object r.fields).FitsFinite (depth + 1)) :
    (Value.object (e.apply r).fields).FitsFinite (depth + 1) := by
  cases henabled : e.enabled with
  | false => rwa [apply_of_disabled henabled]
  | true =>
      rw [fields_apply henabled]
      cases h with
      | object hkeys hms =>
          refine .object (hkeys.insertAll (e.copies r)) fun m hm => ?_
          rcases Members.mem_insertAll hm with hcopy | hold
          · exact (mem_copies hcopy).2 _
          · exact hms m hold

end Enrichment
end RecordFilter
