import RecordFilter.Text.Basic

/-!
# Order — texts by code point

Texts are compared character by character; a text comes before its extensions.  For valid UTF-8
this is also the order of the encoded bytes.  `order` decides the relation `Before`
(`order_eq_lt_iff`, `order_eq_gt_iff`) and equality (`order_eq_iff`).
-/

namespace RecordFilter
namespace Text

/-- The first differing character decides, and a shorter text comes before its extensions. -/
def order : Text → Text → Ordering
  | [], [] => .eq
  | [], _ :: _ => .lt
  | _ :: _, [] => .gt
  | a :: as, b :: bs =>
      if a.toNat < b.toNat then .lt
      else if b.toNat < a.toNat then .gt
      else order as bs

theorem order_self (s : Text) : order s s = .eq := by
  induction s with
  | nil => rfl
  | cons c rest ih => simp [order, ih]

theorem eq_of_order {a b : Text} (h : order a b = .eq) : a = b := by
  induction a generalizing b with
  | nil => cases b with
    | nil => rfl
    | cons => cases h
  | cons c rest ih => cases b with
    | nil => cases h
    | cons d more =>
        simp only [order] at h
        split at h
        · cases h
        · split at h
          · cases h
          · have hcd : c = d := by
              apply Char.ext
              apply UInt32.toNat_inj.mp
              simp only [Char.toNat] at *
              omega
            rw [hcd, ih h]

theorem order_eq_iff {a b : Text} : order a b = .eq ↔ a = b :=
  ⟨eq_of_order, fun h => h ▸ order_self a⟩

/-! ## The order as a relation -/

/-- `a` comes before `b`: at the first difference it has the smaller code point, or it ends there. -/
def Before (a b : Text) : Prop := List.Lex (fun c d => c.toNat < d.toNat) a b

theorem order_eq_lt_iff {a b : Text} : order a b = .lt ↔ Before a b := by
  induction a generalizing b with
  | nil => cases b with
    | nil =>
        constructor
        · intro h
          cases h
        · intro h
          cases h
    | cons d more => exact ⟨fun _ => List.Lex.nil, fun _ => rfl⟩
  | cons c rest ih => cases b with
    | nil =>
        constructor
        · intro h
          cases h
        · intro h
          cases h
    | cons d more =>
        rw [order]
        rcases Nat.lt_trichotomy c.toNat d.toNat with hlt | heq | hgt
        · rw [if_pos hlt]
          exact ⟨fun _ => List.Lex.rel hlt, fun _ => rfl⟩
        · rcases Char.toNat_inj.1 heq with rfl
          rw [if_neg (Nat.lt_irrefl _), if_neg (Nat.lt_irrefl _), ih]
          constructor
          · exact List.Lex.cons
          · intro h
            cases h with
            | rel hlt => exact absurd hlt (Nat.lt_irrefl _)
            | cons htail => exact htail
        · rw [if_neg (Nat.lt_asymm hgt), if_pos hgt]
          constructor
          · intro h
            cases h
          · intro h
            cases h with
            | rel hlt => exact absurd hlt (Nat.lt_asymm hgt)
            | cons htail => exact absurd hgt (Nat.lt_irrefl _)

theorem order_swap (a b : Text) : order b a = (order a b).swap := by
  induction a generalizing b with
  | nil => cases b <;> rfl
  | cons c rest ih => cases b with
    | nil => rfl
    | cons d more =>
        rw [order, order]
        rcases Nat.lt_trichotomy c.toNat d.toNat with hlt | heq | hgt
        · rw [if_neg (Nat.lt_asymm hlt), if_pos hlt, if_pos hlt]
          rfl
        · rw [heq, if_neg (Nat.lt_irrefl _), if_neg (Nat.lt_irrefl _), if_neg (Nat.lt_irrefl _),
            if_neg (Nat.lt_irrefl _), ih]
        · rw [if_pos hgt, if_neg (Nat.lt_asymm hgt), if_pos hgt]
          rfl

theorem order_eq_gt_iff {a b : Text} : order a b = .gt ↔ Before b a := by
  rw [← order_eq_lt_iff, order_swap a b]
  cases order a b <;> decide

end Text
end RecordFilter
