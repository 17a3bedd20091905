import RecordFilter.Condition.Basic

/-!
# Evaluation — which fields a condition reads, and whose failure shows

The leaves of a tree read fields, each as a text or as a number.  `accesses` lists these reads from
left to right.  All of them are made, whatever the others give, so a tree fails on a record exactly if
one of its reads does, and then as the first of those (`evaluate_by_accesses`); no other field of the
record counts.
-/

namespace RecordFilter

/-! ## Reads of fields -/

/-- A read of a field through one of the two views of a record. -/
inductive Access where
  | text (field : Text)
  | number (field : Text)
  deriving DecidableEq, Repr

/-- The failure of a step, if it fails. -/
def failureOf {α : Type} : Except FieldError α → Option FieldError
  | .ok _ => none
  | .error e => some e

namespace Access

/-- The failure of a read on a record. -/
def failure? (record : Record) : Access → Option FieldError
  | .text field => failureOf (record.textOf field)
  | .number field => failureOf (record.numberOf field)

/-- Whether a read gives the same on two records, a value or a failure. -/
def Agrees (record record' : Record) : Access → Prop
  | .text field => record.textOf field = record'.textOf field
  | .number field => record.numberOf field = record'.numberOf field

/-- The first failure among some reads. -/
def firstFailure (record : Record) (accesses : List Access) : Option FieldError :=
  accesses.findSome? (failure? record)

theorem firstFailure_singleton (record : Record) (x : Access) :
    firstFailure record [x] = x.failure? record := by
  simp [firstFailure]

theorem firstFailure_append (record : Record) (l l' : List Access) :
    firstFailure record (l ++ l') = (firstFailure record l).or (firstFailure record l') :=
  List.findSome?_append

end Access

open Access

/-! ## Steps in sequence -/

theorem failureOf_eq_some_iff {α : Type} {x : Except FieldError α} {e : FieldError} :
    failureOf x = some e ↔ x = .error e := by
  cases x with
  | ok a => simp [failureOf]
  | error e' => simp [failureOf]

theorem failureOf_map {α β : Type} (x : Except FieldError α) (f : α → β) :
    failureOf (x >>= fun a => .ok (f a)) = failureOf x := by
  cases x with
  | ok a => rfl
  | error e => rfl

/-- Of two steps that are both made the first failure shows. -/
theorem failureOf_both {α β γ : Type} (x : Except FieldError α) (y : Except FieldError β)
    (f : α → β → γ) :
    failureOf (x >>= fun a => y >>= fun b => .ok (f a b)) = (failureOf x).or (failureOf y) := by
  cases x with
  | error e => rfl
  | ok a => exact failureOf_map y (f a)

/-! ## The reads of a tree -/

variable {record record' : Record}

/-- The reads of an arithmetic expression, from left to right. -/
def Arithmetic.accesses : Arithmetic → List Access
  | .number _ _ => []
  | .field name => [.number name]
  | .binary _ left right _ => left.accesses ++ right.accesses

/-- The reads of a comparison: the side with the field comes first, also if it was written last. -/
def Comparison.accesses (c : Comparison) : List Access :=
  match c.operands with
  | .text field _ => [.text field]
  | .numeric left right => left.accesses ++ right.accesses

/-- The reads of a condition, from left to right. -/
def Condition.accesses : Condition → List Access
  | .truth _ => []
  | .comparison c => c.accesses
  | .negation child _ => child.accesses
  | .binary _ left right _ => left.accesses ++ right.accesses

namespace Arithmetic

theorem failureOf_value (record : Record) (a : Arithmetic) :
    failureOf (a.value record) = firstFailure record a.accesses := by
  induction a with
  | number raw x => rfl
  | field name => exact (firstFailure_singleton record (.number name)).symm
  | binary op left right raw ihl ihr =>
      calc
        failureOf ((binary op left right raw).value record)
            = (failureOf (left.value record)).or (failureOf (right.value record)) :=
          failureOf_both _ _ op.apply
        _ = firstFailure record (left.accesses ++ right.accesses) := by
          rw [ihl, ihr, firstFailure_append]

theorem value_congr {a : Arithmetic} (h : ∀ x ∈ a.accesses, x.Agrees record record') :
    a.value record = a.value record' := by
  induction a with
  | number raw x => rfl
  | field name => exact h _ List.mem_cons_self
  | binary op left right raw ihl ihr =>
      have hleft := ihl fun x hx => h x (List.mem_append_left _ hx)
      have hright := ihr fun x hx => h x (List.mem_append_right _ hx)
      simp only [value, hleft, hright]

end Arithmetic

namespace Comparison

theorem failureOf_holds (record : Record) (c : Comparison) :
    failureOf (c.holds record) = firstFailure record c.accesses := by
  obtain ⟨raw, written, swapped, operands⟩ := c
  cases operands with
  | text field literal =>
      calc
        failureOf (holds record ⟨raw, written, swapped, .text field literal⟩)
            = failureOf (record.textOf field) :=
          failureOf_map _ _
        _ = firstFailure record [.text field] := (firstFailure_singleton record (.text field)).symm
  | numeric left right =>
      calc
        failureOf (holds record ⟨raw, written, swapped, .numeric left right⟩)
            = (failureOf (left.value record)).or (failureOf (right.value record)) :=
          failureOf_both _ _ _
        _ = firstFailure record (left.accesses ++ right.accesses) := by
          rw [left.failureOf_value, right.failureOf_value, firstFailure_append]

theorem holds_congr {c : Comparison} (h : ∀ x ∈ c.accesses, x.Agrees record record') :
    c.holds record = c.holds record' := by
  obtain ⟨raw, written, swapped, operands⟩ := c
  cases operands with
  | text field literal =>
      have hfield : record.textOf field = record'.textOf field := h _ List.mem_cons_self
      simp only [holds, hfield]
  | numeric left right =>
      have hleft := Arithmetic.value_congr fun x hx => h x (List.mem_append_left _ hx)
      have hright := Arithmetic.value_congr fun x hx => h x (List.mem_append_right _ hx)
      simp only [holds, hleft, hright]

end Comparison

namespace Condition

theorem failureOf_evaluate (record : Record) (c : Condition) :
    failureOf (c.evaluate record) = firstFailure record c.accesses := by
  induction c with
  | truth b => rfl
  | comparison c => exact c.failureOf_holds record
  | negation child raw ih =>
      calc
        failureOf ((negation child raw).evaluate record) = failureOf (child.evaluate record) :=
          failureOf_map _ not
        _ = firstFailure record child.accesses := ih
  | binary op left right raw ihl ihr =>
      calc
        failureOf ((binary op left right raw).evaluate record)
            = (failureOf (left.evaluate record)).or (failureOf (right.evaluate record)) :=
          failureOf_both _ _ op.apply
        _ = firstFailure record (left.accesses ++ right.accesses) := by
          rw [ihl, ihr, firstFailure_append]

theorem evaluate_congr {c : Condition} (h : ∀ x ∈ c.accesses, x.Agrees record record') :
    c.evaluate record = c.evaluate record' := by
  induction c with
  | truth b => rfl
  | comparison c => exact Comparison.holds_congr h
  | negation child raw ih =>
      have hchild := ih h
      simp only [evaluate, hchild]
  | binary op left right raw ihl ihr =>
      have hleft := ihl fun x hx => h x (List.mem_append_left _ hx)
      have hright := ihr fun x hx => h x (List.mem_append_right _ hx)
      simp only [evaluate, hleft, hright]

/-- Evaluation fails exactly if a read of the tree fails, with the failure of the first that does, and
nothing but the reads of the tree counts. -/
theorem evaluate_by_accesses (c : Condition) :
    (∀ record, (∃ e, c.evaluate record = .error e) ↔
        ∃ x ∈ c.accesses, x.failure? record ≠ none) ∧
      (∀ record e, c.evaluate record = .error e ↔
        ∃ before x after, c.accesses = before ++ x :: after ∧ x.failure? record = some e ∧
          ∀ y ∈ before, y.failure? record = none) ∧
      ∀ record record', (∀ x ∈ c.accesses, x.Agrees record record') →
        c.evaluate record = c.evaluate record' := by
  have hfails : ∀ record e, c.evaluate record = .error e ↔
      firstFailure record c.accesses = some e := by
    intro record e
    rw [← failureOf_evaluate, failureOf_eq_some_iff]
  refine ⟨?_, ?_, ?_⟩
  · intro record
    simp only [hfails]
    rw [← Option.isSome_iff_exists, firstFailure, List.findSome?_isSome_iff]
    simp only [ne_eq, Option.isSome_iff_ne_none]
  · intro record e
    rw [hfails, firstFailure, List.findSome?_eq_some_iff]
  · intro record record' h
    exact evaluate_congr h

end Condition
end RecordFilter
