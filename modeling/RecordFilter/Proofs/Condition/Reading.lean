import RecordFilter.Proofs.Expression.Tidying
import RecordFilter.Condition.Reader

/-!
# Reading — what the reader of conditions accepts

`Condition.Reads` relates a text to the tree that is read from it, with one rule for each kind of
node; the reader computes exactly this relation (`read_eq_ok_iff`).
-/

namespace RecordFilter
namespace Condition

open Text Expression

variable {schema : Schema} {s t raw : Text} {tree : Condition}

/-- `Reads schema s tree`: the text `s` is read as `tree`. -/
inductive Reads (schema : Schema) : Text → Condition → Prop where
  | truth {s raw : Text} {b : Bool} :
      tidy s = .ok raw → raw ≠ [] → truthOf? raw = some b → Reads schema s (.truth b)
  | binary {s raw left right : Text} {op : Connective} {a b : Condition} :
      tidy s = .ok raw → raw ≠ [] → truthOf? raw = none → split? raw = some (op, left, right) →
      allBlank left = false → allBlank right = false →
      Reads schema left a → Reads schema right b →
      Reads schema s (.binary op a b raw)
  | negation {s raw rest : Text} {child : Condition} :
      tidy s = .ok raw → raw ≠ [] → truthOf? raw = none → split? raw = none →
      negated? raw = some rest → allBlank rest = false → Reads schema rest child →
      Reads schema s (.negation child raw)
  | comparison {s raw : Text} {c : Comparison} :
      tidy s = .ok raw → raw ≠ [] → truthOf? raw = none → split? raw = none →
      negated? raw = none → Comparison.read schema raw = .ok c →
      Reads schema s (.comparison c)

/-- The reader on a tidy text. -/
theorem read_of_tidy (schema : Schema) (htidy : tidy s = .ok raw) (hne : raw ≠ []) :
    read schema s =
      match truthOf? raw with
      | some b => .ok (.truth b)
      | none =>
          match split? raw with
          | some (op, left, right) =>
              if allBlank left || allBlank right then .error ⟨.missingOperand op.keyword, raw⟩
              else do
                let a ← read schema left
                let b ← read schema right
                .ok (.binary op a b raw)
          | none =>
              match negated? raw with
              | some rest =>
                  if allBlank rest then .error ⟨.missingOperand notKeyword, raw⟩
                  else do
                    let child ← read schema rest
                    .ok (.negation child raw)
              | none => (Comparison.read schema raw).map .comparison := by
  rw [read]
  split
  case h_1 e herror =>
    rw [htidy] at herror
    cases herror
  case h_2 raw' hok =>
    rw [htidy] at hok
    cases hok
    rw [if_neg (by simpa using hne)]
    cases truthOf? raw with
    | some b => rfl
    | none =>
        simp only
        split
        case h_1 op left right hsplit =>
          rw [hsplit]
          rfl
        case h_2 hsplit =>
          rw [hsplit]
          split
          case h_1 rest hneg => rw [hneg]
          case h_2 hneg => rw [hneg]

theorem exists_tidy_of_read (h : read schema s = .ok tree) : ∃ raw, tidy s = .ok raw ∧ raw ≠ [] := by
  rw [read] at h
  split at h
  case h_1 => cases h
  case h_2 raw htidy =>
    split at h
    case isTrue => cases h
    case isFalse hne => exact ⟨raw, htidy, by simpa using hne⟩

theorem read_sound (h : read schema s = .ok tree) : Reads schema s tree := by
  -- what is read on the next level is shorter than the text
  induction hn : s.length using Nat.strongRecOn generalizing s tree with
  | ind n ih =>
      subst hn
      rcases exists_tidy_of_read h with ⟨raw, htidy, hne⟩
      have hraw := length_le_of_tidy htidy
      rw [read_of_tidy schema htidy hne] at h
      cases htruth : truthOf? raw with
      | some b =>
          rw [htruth] at h
          cases h
          exact Reads.truth htidy hne htruth
      | none =>
          rw [htruth] at h
          cases hsplit : split? raw with
          | some parts =>
              rcases parts with ⟨op, left, right⟩
              have hlen := length_of_split? hsplit
              rw [hsplit] at h
              simp only at h
              split at h
              case isTrue => cases h
              case isFalse hblank =>
                simp only [Bool.or_eq_true, not_or, Bool.not_eq_true] at hblank
                have hleft := length_pos_of_not_allBlank hblank.1
                have hright := length_pos_of_not_allBlank hblank.2
                rcases bind_eq_ok_iff.1 h with ⟨a, ha, hrest⟩
                rcases bind_eq_ok_iff.1 hrest with ⟨b, hb, htree⟩
                cases htree
                exact Reads.binary htidy hne htruth hsplit hblank.1 hblank.2
                  (ih left.length (by omega) ha rfl) (ih right.length (by omega) hb rfl)
          | none =>
              rw [hsplit] at h
              cases hneg : negated? raw with
              | some rest =>
                  have hlen := length_of_negated? hneg
                  rw [hneg] at h
                  simp only at h
                  split at h
                  case isTrue => cases h
                  case isFalse hblank =>
                    rcases bind_eq_ok_iff.1 h with ⟨child, hchild, htree⟩
                    cases htree
                    exact Reads.negation htidy hne htruth hsplit hneg (by simpa using hblank)
                      (ih rest.length (by omega) hchild rfl)
              | none =>
                  rw [hneg] at h
                  cases hc : Comparison.read schema raw with
                  | error e =>
                      rw [hc] at h
                      cases h
                  | ok c =>
                      rw [hc] at h
                      cases h
                      exact Reads.comparison htidy hne htruth hsplit hneg hc

theorem read_complete (h : Reads schema s tree) : read schema s = .ok tree := by
  induction h with
  | truth htidy hne htruth => rw [read_of_tidy schema htidy hne, htruth]
  | binary htidy hne htruth hsplit hleft hright _ _ iha ihb =>
      rw [read_of_tidy schema htidy hne, htruth, hsplit]
      simp only [hleft, hright, iha, ihb]
      rfl
  | negation htidy hne htruth hsplit hneg hblank _ ih =>
      rw [read_of_tidy schema htidy hne, htruth, hsplit, hneg]
      simp only [hblank, ih]
      rfl
  | comparison htidy hne htruth hsplit hneg hc =>
      rw [read_of_tidy schema htidy hne, htruth, hsplit, hneg, hc]
      rfl

theorem read_eq_ok_iff : read schema s = .ok tree ↔ Reads schema s tree :=
  ⟨read_sound, read_complete⟩

/-- Only the tidy text counts. -/
theorem Reads.of_tidy_eq (hreads : Reads schema s tree) (h : tidy s = tidy t) :
    Reads schema t tree := by
  cases hreads with
  | truth htidy hne htruth => exact Reads.truth (h ▸ htidy) hne htruth
  | binary htidy hne htruth hsplit hleft hright ha hb =>
      exact Reads.binary (h ▸ htidy) hne htruth hsplit hleft hright ha hb
  | negation htidy hne htruth hsplit hneg hblank hchild =>
      exact Reads.negation (h ▸ htidy) hne htruth hsplit hneg hblank hchild
  | comparison htidy hne htruth hsplit hneg hc =>
      exact Reads.comparison (h ▸ htidy) hne htruth hsplit hneg hc

/-- Parentheses around a settled text change nothing. -/
theorem read_group (schema : Schema) (he : Settled s) :
    read schema ('(' :: s ++ [')']) = .ok tree ↔ read schema s = .ok tree := by
  have htidy := tidy_group he.balanced he.quoteClosed
  rw [read_eq_ok_iff, read_eq_ok_iff]
  exact ⟨fun h => h.of_tidy_eq htidy, fun h => h.of_tidy_eq htidy.symm⟩

/-- Only the trim of a text counts. -/
theorem read_congr (schema : Schema) (h : trim s = trim t) : read schema s = read schema t := by
  rw [read, read, tidy_congr h, h]

end Condition
end RecordFilter
