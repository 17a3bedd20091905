import RecordFilter.Proofs.Expression.Tidying
import RecordFilter.Arithmetic.Reader

/-!
# Reading — what the reader of arithmetic accepts

`Arithmetic.Reads` relates a text to the tree that is read from it, with one rule for leaves and one
for operations; the reader computes exactly this relation (`read_eq_ok_iff`).
-/

namespace RecordFilter
namespace Arithmetic

open Text Expression

variable {schema : Schema} {s t raw : Text} {tree : Arithmetic}

/-- `Reads schema s tree`: the text `s` is read as `tree`. -/
inductive Reads (schema : Schema) : Text → Arithmetic → Prop where
  | leaf {s raw : Text} {tree : Arithmetic} :
      tidy s = .ok raw → raw ≠ [] → split? raw = none → readLeaf schema raw = .ok tree →
      Reads schema s tree
  | binary {s raw left right : Text} {op : Operator} {a b : Arithmetic} :
      tidy s = .ok raw → raw ≠ [] → split? raw = some (op, left, right) →
      allBlank left = false → allBlank right = false →
      Reads schema left a → Reads schema right b →
      Reads schema s (.binary op a b raw)

/-- A leaf keeps the text that it is read from. -/
theorem readLeaf_cases (h : readLeaf schema s = .ok tree) :
    tree = .field s ∨ ∃ x, tree = .number s x := by
  unfold readLeaf at h
  split at h
  case isTrue =>
    cases h
    exact Or.inl rfl
  case isFalse =>
    split at h
    case isTrue => cases h
    case isFalse =>
      split at h
      case h_1 x _ =>
        cases h
        exact Or.inr ⟨x, rfl⟩
      case h_2 => cases h

/-- The reader on a tidy text. -/
theorem read_of_tidy (schema : Schema) (htidy : tidy s = .ok raw) (hne : raw ≠ []) :
    read schema s =
      match split? raw with
      | none => readLeaf schema raw
      | some (op, left, right) =>
          if allBlank left || allBlank right then .error ⟨.missingOperand [op.symbol], raw⟩
          else
            (do
              let a ← read schema left
              let b ← read schema right
              .ok (.binary op a b raw)) := by
  rw [read]
  split
  case h_1 e herror =>
    rw [htidy] at herror
    cases herror
  case h_2 raw' hok =>
    rw [htidy] at hok
    cases hok
    rw [if_neg (by simpa using hne)]
    split
    case h_1 hsplit => rw [hsplit]
    case h_2 op left right hsplit =>
      rw [hsplit]
      rfl

theorem exists_tidy_of_read (h : read schema s = .ok tree) : ∃ raw, tidy s = .ok raw ∧ raw ≠ [] := by
  rw [read] at h
  split at h
  case h_1 => cases h
  case h_2 raw htidy =>
    split at h
    case isTrue => cases h
    case isFalse hne => exact ⟨raw, htidy, by simpa using hne⟩

theorem read_sound (h : read schema s = .ok tree) : Reads schema s tree := by
  -- the sides of an operator are shorter than the text
  induction hn : s.length using Nat.strongRecOn generalizing s tree with
  | ind n ih =>
      subst hn
      rcases exists_tidy_of_read h with ⟨raw, htidy, hne⟩
      rw [read_of_tidy schema htidy hne] at h
      cases hsplit : split? raw with
      | none =>
          rw [hsplit] at h
          exact Reads.leaf htidy hne hsplit h
      | some parts =>
          rcases parts with ⟨op, left, right⟩
          rw [hsplit] at h
          have hlen := length_of_split? hsplit
          have hraw := length_le_of_tidy htidy
          simp only at h
          split at h
          case isTrue => cases h
          case isFalse hblank =>
            simp only [Bool.or_eq_true, not_or, Bool.not_eq_true] at hblank
            have hleft := length_pos_of_not_allBlank hblank.1
            have hright := length_pos_of_not_allBlank hblank.2
            rcases bind_eq_ok_iff.1 h with ⟨a, ha, hrest⟩
            rcases bind_eq_ok_iff.1 hrest with ⟨b, hb, htree⟩
            cases htree
            exact Reads.binary htidy hne hsplit hblank.1 hblank.2
              (ih left.length (by omega) ha rfl) (ih right.length (by omega) hb rfl)

theorem read_complete (h : Reads schema s tree) : read schema s = .ok tree := by
  induction h with
  | leaf htidy hne hsplit hleaf => rw [read_of_tidy schema htidy hne, hsplit, hleaf]
  | binary htidy hne hsplit hleft hright _ _ iha ihb =>
      rw [read_of_tidy schema htidy hne, hsplit]
      simp only [hleft, hright, iha, ihb]
      rfl

theorem read_eq_ok_iff : read schema s = .ok tree ↔ Reads schema s tree :=
  ⟨read_sound, read_complete⟩

/-- Only the tidy text counts. -/
theorem Reads.of_tidy_eq (hreads : Reads schema s tree) (h : tidy s = tidy t) :
    Reads schema t tree := by
  cases hreads with
  | leaf htidy hne hsplit hleaf => exact Reads.leaf (h ▸ htidy) hne hsplit hleaf
  | binary htidy hne hsplit hleft hright ha hb =>
      exact Reads.binary (h ▸ htidy) hne hsplit hleft hright ha hb

/-- Parentheses around a settled text change nothing. -/
theorem read_group (schema : Schema) (he : Settled s) :
    read schema ('(' :: s ++ [')']) = .ok tree ↔ read schema s = .ok tree := by
  have htidy := tidy_group he.balanced he.quoteClosed
  rw [read_eq_ok_iff, read_eq_ok_iff]
  exact ⟨fun h => h.of_tidy_eq htidy, fun h => h.of_tidy_eq htidy.symm⟩

/-- Only the trim of a text counts. -/
theorem read_congr (schema : Schema) (h : trim s = trim t) : read schema s = read schema t := by
  rw [read, read, tidy_congr h, h]

end Arithmetic
end RecordFilter
