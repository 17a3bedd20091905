import RecordFilter.Record
import RecordFilter.Proofs.Json.Members
import RecordFilter.Proofs.Json.Magnitudes

/-!
# Fitting — what the reader can return

A value fits a depth if its arrays and objects nest no deeper, its objects have their keys in order
and its numbers are in range.  Every value that is read fits (`fits_of_value?`); so the fields of a
record that is read are in order and its floats are finite (`Record.fits_of_read`).
-/

namespace RecordFilter
namespace Json

variable {real other : Float → Prop} {depth : Nat} {v : Value} {s rest : Text}

/-! ## Values that fit -/

/-- Arrays and objects nest at most `depth` deep, keys are in order, and floats satisfy `real`. -/
inductive Value.Fits (real : Float → Prop) : Nat → Value → Prop
  | null {depth : Nat} : Fits real depth .null
  | boolean {depth : Nat} (b : Bool) : Fits real depth (.boolean b)
  | number {depth : Nat} {n : Number} (h : n.Fits real) : Fits real depth (.number n)
  | string {depth : Nat} (s : Text) : Fits real depth (.string s)
  | array {depth : Nat} {items : List Value} (h : ∀ v ∈ items, Fits real depth v) :
      Fits real (depth + 1) (.array items)
  | object {depth : Nat} {ms : Members} (hkeys : ms.Increasing)
      (h : ∀ m ∈ ms, Fits real depth m.2) : Fits real (depth + 1) (.object ms)

/-- A float stands somewhere in a value. -/
inductive Value.HasFloat (x : Float) : Value → Prop
  | here : HasFloat x (.number (.real x))
  | item {items : List Value} {v : Value} (hv : v ∈ items) (h : HasFloat x v) :
      HasFloat x (.array items)
  | member {ms : Members} {m : Text × Value} (hm : m ∈ ms) (h : HasFloat x m.2) :
      HasFloat x (.object ms)

/-- The floats of a value that fits may satisfy more. -/
theorem Value.Fits.imp (h : v.Fits real depth) (himp : ∀ x, v.HasFloat x → real x → other x) :
    v.Fits other depth := by
  induction h with
  | null => exact .null
  | boolean b => exact .boolean b
  | string s => exact .string s
  | @number depth n hn =>
      cases n with
      | integer n => exact .number hn
      | real x => exact .number (himp x .here hn)
  | array hitems ih =>
      refine .array fun v hv => ih v hv ?_
      intro x hx
      exact himp x (.item hv hx)
  | object hkeys hms ih =>
      refine .object hkeys fun m hm => ih m hm ?_
      intro x hx
      exact himp x (.member hm hx)

/-- What the floats of a value that fits satisfy. -/
theorem Value.Fits.of_hasFloat {x : Float} (h : v.Fits real depth) (hx : v.HasFloat x) : real x := by
  induction h with
  | null => cases hx
  | boolean b => cases hx
  | string s => cases hx
  | number hn =>
      cases hx
      exact hn
  | array hitems ih =>
      cases hx with
      | item hv hfloat => exact ih _ hv hfloat
  | object hkeys hms ih =>
      cases hx with
      | member hm hfloat => exact ih _ hm hfloat

/-! ## What is read fits -/

/-- The floats of a value are finite. -/
abbrev Value.FitsFinite (depth : Nat) (v : Value) : Prop := v.Fits (fun x => x.isFinite = true) depth

theorem fits_of_word? {word : Text} {w : Value} (hw : w.FitsFinite depth)
    (h : word? word w s = some (v, rest)) : v.FitsFinite depth := by
  rw [word?] at h
  split at h
  case isTrue =>
    cases h
    exact hw
  case isFalse => cases h

theorem fits_of_scalar? (h : scalar? s = some (v, rest)) : v.FitsFinite depth := by
  unfold scalar? at h
  split at h
  case h_1 =>
    rcases Option.map_eq_some_iff.1 h with ⟨⟨t, r⟩, -, heq⟩
    cases heq
    exact .string t
  case h_2 => exact fits_of_word? .null h
  case h_3 => exact fits_of_word? (.boolean true) h
  case h_4 => exact fits_of_word? (.boolean false) h
  case h_5 =>
    rcases Option.map_eq_some_iff.1 h with ⟨⟨n, r⟩, hn, heq⟩
    cases heq
    exact .number (isFinite_of_number? hn)

/-! ## Arrays and objects -/

section Containers

variable {item : Text → Option (Value × Text)}

/-- Items end at a closing bracket or go on behind a comma. -/
theorem items?_eq_some {items : List Value} (h : items? item s = some (items, rest)) :
    ∃ v after, item s = some (v, after) ∧
      (items = [v] ∨ ∃ more vs, more.length < s.length ∧ items? item more = some (vs, rest) ∧
        items = v :: vs) := by
  rw [items?] at h
  split at h
  case h_1 => cases h
  case h_2 v after hv =>
    refine ⟨v, after, hv, ?_⟩
    split at h
    case h_1 =>
      cases h
      exact Or.inl rfl
    case h_2 more hcomma =>
      split at h
      case isTrue hless =>
        rcases Option.map_eq_some_iff.1 h with ⟨⟨vs, r⟩, hvs, heq⟩
        cases heq
        exact Or.inr ⟨more, vs, hless, hvs, rfl⟩
      case isFalse => cases h
    case h_3 => cases h

/-- A member's value is read by the reader of items. -/
theorem member?_eq_some {m : Text × Value} (h : member? item s = some (m, rest)) :
    ∃ more, item more = some (m.2, rest) := by
  rw [member?] at h
  split at h
  case h_1 =>
    simp only [Option.bind_eq_bind, Option.bind_eq_some_iff] at h
    rcases h with ⟨⟨key, after⟩, -, h⟩
    split at h
    case h_1 more hcolon =>
      rcases Option.bind_eq_some_iff.1 h with ⟨⟨v, final⟩, hv, heq⟩
      cases heq
      exact ⟨more, hv⟩
    case h_2 => cases h
  case h_2 => cases h

/-- Members end at a closing brace or go on behind a comma. -/
theorem members?_eq_some {found ms : Members} (h : members? item found s = some (ms, rest)) :
    ∃ m after, member? item s = some (m, after) ∧
      (ms = found.insert m.1 m.2 ∨ ∃ more, more.length < s.length ∧
        members? item (found.insert m.1 m.2) more = some (ms, rest)) := by
  rw [members?] at h
  split at h
  case h_1 => cases h
  case h_2 key v after hm =>
    refine ⟨(key, v), after, hm, ?_⟩
    split at h
    case h_1 =>
      cases h
      exact Or.inl rfl
    case h_2 more hcomma =>
      split at h
      case isTrue hless => exact Or.inr ⟨more, hless, h⟩
      case isFalse => cases h
    case h_3 => cases h

/-- A reader gives only values that fit a depth. -/
def ReadsFitting (depth : Nat) (item : Text → Option (Value × Text)) : Prop :=
  ∀ s v rest, item s = some (v, rest) → v.FitsFinite depth

theorem fits_of_items? (hitem : ReadsFitting depth item) {items : List Value}
    (h : items? item s = some (items, rest)) : ∀ v ∈ items, v.FitsFinite depth := by
  -- each comma leaves a shorter text
  induction hlength : s.length using Nat.strongRecOn generalizing s items with
  | ind length ih =>
      rcases items?_eq_some h with ⟨v, after, hv, rfl | ⟨more, vs, hless, hvs, rfl⟩⟩
      · exact List.forall_mem_singleton.2 (hitem s v after hv)
      · exact List.forall_mem_cons.2
          ⟨hitem s v after hv, ih more.length (hlength ▸ hless) hvs rfl⟩

theorem fits_of_members? (hitem : ReadsFitting depth item) {found ms : Members}
    (hkeys : found.Increasing) (hfound : ∀ m ∈ found, m.2.FitsFinite depth)
    (h : members? item found s = some (ms, rest)) : (Value.object ms).FitsFinite (depth + 1) := by
  induction hlength : s.length using Nat.strongRecOn generalizing s found with
  | ind length ih =>
      -- what is put in keeps the members in order, and a comma leaves a shorter text
      rcases members?_eq_some h with ⟨m, after, hm, hcases⟩
      rcases member?_eq_some hm with ⟨value, hvalue⟩
      have hinserted : ∀ n ∈ found.insert m.1 m.2, n.2.FitsFinite depth := by
        intro n hn
        rcases Members.mem_insert hn with rfl | hold
        · exact hitem value m.2 after hvalue
        · exact hfound n hold
      rcases hcases with rfl | ⟨more, hless, hmore⟩
      · exact .object (hkeys.insert m.1 m.2) hinserted
      · exact ih more.length (hlength ▸ hless) (hkeys.insert m.1 m.2) hinserted hmore rfl

theorem fits_of_array? (hitem : ReadsFitting depth item) (h : array? item s = some (v, rest)) :
    v.FitsFinite (depth + 1) := by
  rw [array?] at h
  split at h
  case h_1 =>
    cases h
    exact .array (List.forall_mem_nil _)
  case h_2 =>
    rcases Option.map_eq_some_iff.1 h with ⟨⟨items, r⟩, hitems, heq⟩
    cases heq
    exact .array (fits_of_items? hitem hitems)

theorem fits_of_object? (hitem : ReadsFitting depth item) (h : object? item s = some (v, rest)) :
    v.FitsFinite (depth + 1) := by
  rw [object?] at h
  split at h
  case h_1 =>
    cases h
    exact .object List.Pairwise.nil (List.forall_mem_nil _)
  case h_2 =>
    rcases Option.map_eq_some_iff.1 h with ⟨⟨ms, r⟩, hms, heq⟩
    cases heq
    exact fits_of_members? hitem List.Pairwise.nil (List.forall_mem_nil _) hms

end Containers

/-- A value that is read nests no deeper than the reader goes, and its floats are finite. -/
theorem fits_of_value? : ReadsFitting depth (value? depth) := by
  induction depth with
  | zero =>
      intro s v rest h
      exact fits_of_scalar? h
  | succ depth ih =>
      intro s v rest h
      rw [value?] at h
      split at h
      case h_1 => exact fits_of_array? ih h
      case h_2 => exact fits_of_object? ih h
      case h_3 => exact fits_of_scalar? h

theorem fits_of_read? (h : read? s = some v) : v.FitsFinite depthLimit := by
  rw [read?] at h
  split at h
  case h_1 v rest hw =>
    split at h
    case isTrue =>
      cases h
      exact fits_of_value? s v rest hw
    case isFalse => cases h
  case h_2 => cases h

end Json

/-- The fields of a record that is read are in order, and its floats are finite. -/
theorem Record.fits_of_read {s : Text} {r : Record} (h : Record.read s = .ok r) :
    (Json.Value.object r.fields).FitsFinite Json.depthLimit := by
  rw [Record.read] at h
  split at h
  case h_1 => cases h
  case h_2 fields hread =>
    cases h
    exact Json.fits_of_read? hread
  case h_3 => cases h

end RecordFilter
