import RecordFilter.Proofs.Enrichment.Stability

/-!
# Lookups — what stands under a key of an enriched record

A key of an enriched record has one of four origins: the time, else a numeric attribute, else a text
attribute, else the record as it came (`Found`).  All of them are looked up in the record as it came, so
names may be repeated, and targets may be sources (`get?_apply_iff`).
-/

namespace RecordFilter
namespace Enrichment

open Json (Members Value)

variable {e : Enrichment} {r : Record} {key field : Text} {found copy : Option Value}

/-! ## Values that are copied -/

/-- The text of a string, a number or a boolean. -/
inductive TextOf : Value → Text → Prop where
  | string (s : Text) : TextOf (.string s) s
  | number (n : Json.Number) : TextOf (.number n) n.text
  | boolean (b : Bool) : TextOf (.boolean b) (Value.booleanText b)

/-- The finite float of a number, or of a string that holds one between blanks. -/
inductive FloatOf : Value → Float → Prop where
  | number {n : Json.Number} : n.toFloat.isFinite = true → FloatOf (.number n) n.toFloat
  | string {s : Text} {x : Float} : Number.read? (Text.trim s) = some x → x.isFinite = true →
      FloatOf (.string s) x

/-- A copy is made of what `Origin` admits, written by `value`, and of nothing else. -/
def Yields {α : Type} (copy : Option Value) (Origin : α → Prop) (value : α → Value) : Prop :=
  ∀ w, copy = some w ↔ ∃ a, Origin a ∧ w = value a

section Yields

variable {α : Type} {Origin : α → Prop} {value : α → Value}

theorem Yields.eq_some (h : Yields copy Origin value) {a : α} (ha : Origin a) :
    copy = some (value a) :=
  (h (value a)).2 ⟨a, ha, rfl⟩

theorem Yields.eq_none (h : Yields copy Origin value) (hnone : ∀ a, ¬Origin a) : copy = none := by
  cases hcopy : copy with
  | none => rfl
  | some w =>
      rcases (h w).1 hcopy with ⟨a, ha, -⟩
      exact absurd ha (hnone a)

theorem Yields.not_origin (h : Yields copy Origin value) (hcopy : copy = none) (a : α) :
    ¬Origin a := by
  intro ha
  rw [h.eq_some ha] at hcopy
  cases hcopy

end Yields

theorem yields_asText? (v : Value) : Yields (asText? v) (TextOf v) .string := by
  intro w
  constructor
  · intro h
    rcases Option.map_eq_some_iff.1 h with ⟨t, ht, rfl⟩
    refine ⟨t, ?_, rfl⟩
    cases v with
    | string s =>
        cases ht
        exact .string _
    | number n =>
        cases ht
        exact .number _
    | boolean b =>
        cases ht
        exact .boolean _
    | null => cases ht
    | array items => cases ht
    | object members => cases ht
  · rintro ⟨t, ht, rfl⟩
    cases ht <;> rfl

theorem yields_asNumber? (v : Value) :
    Yields (asNumber? v) (FloatOf v) (fun x => .number (.real x)) := by
  have hfinite : ∀ {x : Float}, x.isFinite = true → finite? x = some (.number (.real x)) :=
    fun hx => if_pos hx
  intro w
  constructor
  · intro h
    cases v with
    | number n =>
        rcases finite?_eq_some h with ⟨rfl, hx⟩
        exact ⟨n.toFloat, .number hx, rfl⟩
    | string s =>
        rcases Option.bind_eq_some_iff.1 h with ⟨x, hread, hw⟩
        rcases finite?_eq_some hw with ⟨rfl, hx⟩
        exact ⟨x, .string hread hx, rfl⟩
    | null => cases h
    | boolean b => cases h
    | array items => cases h
    | object members => cases h
  · rintro ⟨x, hx, rfl⟩
    cases hx with
    | number hx => exact hfinite hx
    | string hread hx => exact Option.bind_eq_some_iff.2 ⟨x, hread, hfinite hx⟩

/-! ## Origins -/

/-- The time is copied to the key as the text `t`. -/
def TimeAt (e : Enrichment) (r : Record) (key t : Text) : Prop :=
  key = e.timeTarget ∧ ∃ v, r.get? e.timeSource = some v ∧ TextOf v t

/-- An object in a field has a member under a listed key, and the member is copied as `a`. -/
def MemberAt {α : Type} (CopyOf : Value → α → Prop) (names : List Text) (field : Text) (r : Record)
    (key : Text) (a : α) : Prop :=
  key ∈ names ∧
    ∃ ms v, r.get? field = some (.object ms) ∧ Members.get? key ms = some v ∧ CopyOf v a

/-- A numeric attribute is copied to the key as the float `x`. -/
def NumberAt (e : Enrichment) : Record → Text → Float → Prop :=
  MemberAt FloatOf e.metaAttributes e.metaKey

/-- A text attribute is copied to the key as the text `t`. -/
def TextAt (e : Enrichment) : Record → Text → Text → Prop :=
  MemberAt TextOf e.datastreamAttributes e.datastreamKey

/-- `Found e r key found`: the first origin of the key gives what is found under it. -/
inductive Found (e : Enrichment) (r : Record) (key : Text) : Option Value → Prop where
  | time {t : Text} : e.TimeAt r key t → Found e r key (some (.string t))
  | number {x : Float} : (∀ t, ¬e.TimeAt r key t) → e.NumberAt r key x →
      Found e r key (some (.number (.real x)))
  | text {t : Text} : (∀ t, ¬e.TimeAt r key t) → (∀ x, ¬e.NumberAt r key x) → e.TextAt r key t →
      Found e r key (some (.string t))
  | kept : (∀ t, ¬e.TimeAt r key t) → (∀ x, ¬e.NumberAt r key x) → (∀ t, ¬e.TextAt r key t) →
      Found e r key (r.get? key)

/-! ## Copies by key -/

/-- The copy of the time under a key. -/
def timeCopy? (e : Enrichment) (r : Record) (key : Text) : Option Value :=
  if key = e.timeTarget then (r.get? e.timeSource).bind asText? else none

/-- The copy of a member under a key. -/
def memberCopy? (convert : Value → Option Value) (names : List Text) (field : Text) (r : Record)
    (key : Text) : Option Value :=
  if key ∈ names then ((membersOf r field).get? key).bind convert else none

theorem yields_timeCopy? (e : Enrichment) (r : Record) (key : Text) :
    Yields (e.timeCopy? r key) (e.TimeAt r key) .string := by
  intro w
  rw [timeCopy?]
  constructor
  · intro h
    split at h
    case isTrue hkey =>
      rcases Option.bind_eq_some_iff.1 h with ⟨v, hv, hw⟩
      rcases (yields_asText? v w).1 hw with ⟨t, ht, rfl⟩
      exact ⟨t, ⟨hkey, v, hv, ht⟩, rfl⟩
    case isFalse => cases h
  · rintro ⟨t, ⟨hkey, v, hv, ht⟩, rfl⟩
    rw [if_pos hkey]
    exact Option.bind_eq_some_iff.2 ⟨v, hv, (yields_asText? v).eq_some ht⟩

/-- A field that holds no object has no members. -/
theorem get?_membersOf_eq_some_iff {v : Value} :
    (membersOf r field).get? key = some v ↔
      ∃ ms, r.get? field = some (.object ms) ∧ Members.get? key ms = some v := by
  constructor
  · intro h
    rw [membersOf] at h
    split at h
    case h_1 ms hobject => exact ⟨ms, hobject, h⟩
    case h_2 => cases h
  · rintro ⟨ms, hobject, h⟩
    rw [membersOf, hobject]
    exact h

theorem yields_memberCopy? {α : Type} {CopyOf : Value → α → Prop} {value : α → Value}
    {convert : Value → Option Value} (hconvert : ∀ v, Yields (convert v) (CopyOf v) value)
    (names : List Text) (field : Text) (r : Record) (key : Text) :
    Yields (memberCopy? convert names field r key) (MemberAt CopyOf names field r key) value := by
  intro w
  rw [memberCopy?]
  constructor
  · intro h
    split at h
    case isTrue hkey =>
      rcases Option.bind_eq_some_iff.1 h with ⟨v, hv, hw⟩
      rcases get?_membersOf_eq_some_iff.1 hv with ⟨ms, hms, hmember⟩
      rcases (hconvert v w).1 hw with ⟨a, ha, rfl⟩
      exact ⟨a, ⟨hkey, ms, v, hms, hmember, ha⟩, rfl⟩
    case isFalse => cases h
  · rintro ⟨a, ⟨hkey, ms, v, hms, hmember, ha⟩, rfl⟩
    rw [if_pos hkey]
    exact Option.bind_eq_some_iff.2
      ⟨v, get?_membersOf_eq_some_iff.2 ⟨ms, hms, hmember⟩, (hconvert v).eq_some ha⟩

/-- However often a name is listed, what is picked under it is the copy of its one member. -/
theorem last?_pick (convert : Value → Option Value) (names : List Text) (field : Text) (r : Record)
    (key : Text) :
    Members.last? key (pick convert names (membersOf r field)) =
      memberCopy? convert names field r key := by
  induction names with
  | nil => rfl
  | cons name names ih =>
      -- the first name gives a copy or none
      have hcons : pick convert (name :: names) (membersOf r field) =
          ((((membersOf r field).get? name).bind convert).map (name, ·)).toList ++
            pick convert names (membersOf r field) := by
        rw [pick, List.filterMap_cons]
        cases ((membersOf r field).get? name).bind convert <;> rfl
      rw [hcons, Members.last?_append, ih, memberCopy?, memberCopy?]
      by_cases hname : name = key
      · subst hname
        cases ((membersOf r field).get? name).bind convert with
        | none => simp [Members.last?]
        | some w => by_cases hmem : name ∈ names <;> simp [Members.last?, hmem]
      · cases ((membersOf r field).get? name).bind convert <;>
          simp [Members.last?, hname, Ne.symm hname]

/-! ## The enriched record -/

/-- Later copies replace earlier ones, and copies replace the field of the record. -/
theorem get?_apply (h : e.enabled = true) (r : Record) (key : Text) :
    (e.apply r).get? key =
      (e.timeCopy? r key).or
        ((memberCopy? asNumber? e.metaAttributes e.metaKey r key).or
          ((memberCopy? asText? e.datastreamAttributes e.datastreamKey r key).or (r.get? key))) := by
  have htime : Members.last? key (((r.get? e.timeSource).bind asText?).map (e.timeTarget, ·)).toList =
      e.timeCopy? r key := by
    rw [timeCopy?]
    cases (r.get? e.timeSource).bind asText? with
    | none => simp [Members.last?]
    | some w => simp [Members.last?, eq_comm]
  calc
    (e.apply r).get? key = (Members.last? key (e.copies r)).or (r.get? key) := by
      rw [Record.get?, fields_apply h, Members.get?_insertAll]
      rfl
    _ = ((e.timeCopy? r key).or
          ((memberCopy? asNumber? e.metaAttributes e.metaKey r key).or
            (memberCopy? asText? e.datastreamAttributes e.datastreamKey r key))).or
          (r.get? key) := by
      rw [copies, Members.last?_append, Members.last?_append, last?_pick, last?_pick, htime]
    _ = _ := by rw [Option.or_assoc, Option.or_assoc]

theorem found_apply (h : e.enabled = true) (r : Record) (key : Text) :
    Found e r key ((e.apply r).get? key) := by
  have htime := yields_timeCopy? e r key
  have hnumber := yields_memberCopy? yields_asNumber? e.metaAttributes e.metaKey r key
  have htext := yields_memberCopy? yields_asText? e.datastreamAttributes e.datastreamKey r key
  rw [get?_apply h]
  -- the first copy that is made shows the first origin that there is
  cases htimeCopy : e.timeCopy? r key with
  | some w =>
      rcases (htime w).1 htimeCopy with ⟨t, ht, rfl⟩
      exact .time ht
  | none =>
      cases hnumberCopy : memberCopy? asNumber? e.metaAttributes e.metaKey r key with
      | some w =>
          rcases (hnumber w).1 hnumberCopy with ⟨x, hx, rfl⟩
          exact .number (htime.not_origin htimeCopy) hx
      | none =>
          cases htextCopy : memberCopy? asText? e.datastreamAttributes e.datastreamKey r key with
          | some w =>
              rcases (htext w).1 htextCopy with ⟨t, ht, rfl⟩
              exact .text (htime.not_origin htimeCopy) (hnumber.not_origin hnumberCopy) ht
          | none =>
              exact .kept (htime.not_origin htimeCopy) (hnumber.not_origin hnumberCopy)
                (htext.not_origin htextCopy)

/-- One thing at most is found under a key. -/
theorem Found.eq_get?_apply (h : e.enabled = true) (hfound : Found e r key found) :
    (e.apply r).get? key = found := by
  have htime := yields_timeCopy? e r key
  have hnumber := yields_memberCopy? yields_asNumber? e.metaAttributes e.metaKey r key
  have htext := yields_memberCopy? yields_asText? e.datastreamAttributes e.datastreamKey r key
  rw [get?_apply h]
  cases hfound with
  | time ht => rw [htime.eq_some ht, Option.some_or]
  | number hnotime hx =>
      rw [htime.eq_none hnotime, hnumber.eq_some hx, Option.none_or, Option.some_or]
  | text hnotime hnonumber ht =>
      rw [htime.eq_none hnotime, hnumber.eq_none hnonumber, htext.eq_some ht, Option.none_or,
        Option.none_or, Option.some_or]
  | kept hnotime hnonumber hnotext =>
      rw [htime.eq_none hnotime, hnumber.eq_none hnonumber, htext.eq_none hnotext, Option.none_or,
        Option.none_or, Option.none_or]

/-- What is found under a key that the record has not stands under a target. -/
theorem Found.contains_or_mem_targets (h : Found e r key found) (hsome : found.isSome = true) :
    r.contains key = true ∨ key ∈ e.targets := by
  cases h with
  | time ht => exact Or.inr (by simp [targets, ht.1])
  | number _ hx =>
      have hkey : key ∈ e.metaAttributes := hx.1
      exact Or.inr (by simp [targets, hkey])
  | text _ _ ht =>
      have hkey : key ∈ e.datastreamAttributes := ht.1
      exact Or.inr (by simp [targets, hkey])
  | kept => exact Or.inl hsome

theorem Found.isSome_of_contains (h : Found e r key found) (hkey : r.contains key = true) :
    found.isSome = true := by
  cases h with
  | time => rfl
  | number => rfl
  | text => rfl
  | kept => exact hkey

/-- Under each key of an enriched record stands what its first origin gives, looked up in the record as
it came.  No key is lost, new keys are targets, and without enrichment the record stays as it is. -/
theorem get?_apply_iff (e : Enrichment) (r : Record) :
    (e.enabled = true → ∀ key found, (e.apply r).get? key = found ↔ Found e r key found) ∧
      (∀ key, r.contains key = true → (e.apply r).contains key = true) ∧
      (∀ key, (e.apply r).contains key = true → r.contains key = true ∨ key ∈ e.targets) ∧
      (e.enabled = false → e.apply r = r) ∧
      ∀ n : Json.Number, n.IsFinite → FloatOf (.number n) n.toFloat := by
  refine ⟨?_, ?_, ?_, fun h => apply_of_disabled h r, fun n hn => .number hn.toFloat⟩
  · intro henabled key found
    constructor
    · rintro rfl
      exact found_apply henabled r key
    · exact fun hfound => hfound.eq_get?_apply henabled
  · intro key hkey
    cases henabled : e.enabled with
    | false => rwa [apply_of_disabled henabled]
    | true => exact (found_apply henabled r key).isSome_of_contains hkey
  · intro key hkey
    cases henabled : e.enabled with
    | false =>
        rw [apply_of_disabled henabled] at hkey
        exact Or.inl hkey
    | true => exact (found_apply henabled r key).contains_or_mem_targets hkey

/-- The time, the numeric and the text attributes want one another's names, and two sources are
targets. -/
theorem get?_apply_of_clashing_names :
    let e : Enrichment := ⟨true, ['d'], [['d'], ['a']], ['d'], [['a'], ['t'], ['a']], ['a'], ['t']⟩
    let ms : Members :=
      [(['a'], .string " 2.5 ".toList), (['d'], .boolean true), (['t'], .string ['7'])]
    let r : Record := ⟨[(['a'], .string ['x']), (['d'], .object ms)]⟩
    (e.apply r).get? ['t'] = some (.string ['x']) ∧
      (e.apply r).get? ['a'] = some (.number (.real 2.5)) ∧
      (e.apply r).get? ['d'] = some (.string "true".toList) := by
  intro e ms r
  rcases get?_apply_iff e r with ⟨hfound, -⟩
  have hget : ∀ {key found}, Found e r key found → (e.apply r).get? key = found :=
    fun h => (hfound rfl _ _).2 h
  have hread : Number.read? (Text.trim " 2.5 ".toList) = some 2.5 := by decide +kernel
  have htime : ∀ {key}, key ≠ ['t'] → ∀ t, ¬e.TimeAt r key t := fun hkey t h => hkey h.1
  have hnumber : ∀ x, ¬e.NumberAt r ['d'] x := fun x h => absurd h.1 (by decide)
  refine ⟨hget ?_, hget ?_, hget ?_⟩
  · exact .time ⟨rfl, _, rfl, .string ['x']⟩
  · refine .number (htime (by decide)) ⟨by decide, ms, _, rfl, rfl, .string hread ?_⟩
    decide +kernel
  · exact .text (htime (by decide)) hnumber ⟨by decide, ms, _, rfl, rfl, .boolean true⟩

end Enrichment
end RecordFilter
