import RecordFilter.Comparison.Reader
import RecordFilter.Condition.Basic

/-!
# Reader — conditions from text

A condition is split at the last OR or XOR outside literals and groups, else at the last AND; what
has neither may begin with NOT, and the rest is a comparison.  So AND binds tighter than OR and
XOR, which bind alike, NOT binds tightest, and connectives group to the left.
-/

namespace RecordFilter
namespace Condition

open Text Expression

/-- The connective at which a condition is split, with its offset. -/
def rootConnective? (s : Text) : Option (Nat × Connective) :=
  match lastWord? Connective.or.keyword s, lastWord? Connective.xor.keyword s with
  | some i, some j => if i > j then some (i, .or) else some (j, .xor)
  | some i, none => some (i, .or)
  | none, some j => some (j, .xor)
  | none, none => (lastWord? Connective.and.keyword s).map (·, .and)

/-- The connective at which a condition is split, and its two sides. -/
def split? (s : Text) : Option (Connective × Text × Text) :=
  (rootConnective? s).map fun (offset, op) => (op, sidesOf offset (byteSize op.keyword) s)

theorem length_of_split? {s left right : Text} {op : Connective}
    (h : split? s = some (op, left, right)) : left.length + right.length ≤ s.length := by
  obtain ⟨⟨offset, _⟩, _, heq⟩ := Option.map_eq_some_iff.1 h
  cases heq
  exact length_sidesOf offset _ s

/-- What follows a leading NOT that no letter, digit or underscore continues. -/
def negated? (s : Text) : Option Text :=
  if notKeyword.isPrefixOf s then
    let rest := s.drop notKeyword.length
    if rest.head?.any fun c => c.isAlphanum || c == '_' then none else some rest
  else none

theorem length_of_negated? {s rest : Text} (h : negated? s = some rest) :
    rest.length < s.length := by
  unfold negated? at h
  split at h
  case isTrue hpre =>
    have hle := (List.isPrefixOf_iff_prefix.mp hpre).length_le
    have hlen : notKeyword.length = 3 := rfl
    dsimp only at h
    split at h
    · cases h
    · cases h
      simp only [List.length_drop]
      omega
  case isFalse => cases h

/-- The truth value that a word stands for. -/
def truthOf? (s : Text) : Option Bool :=
  if s = truthWord true then some true
  else if s = truthWord false then some false
  else none

/-- Reads a condition. -/
def read (schema : Schema) (s : Text) : Except SyntaxError Condition :=
  match _htidy : tidy s with
  | .error e => .error e
  | .ok raw =>
      if raw.isEmpty then .error ⟨.emptyCondition, trim s⟩
      else
        match truthOf? raw with
        | some b => .ok (.truth b)
        | none =>
            match _hsplit : split? raw with
            | some (op, left, right) =>
                if _hblank : allBlank left || allBlank right then
                  .error ⟨.missingOperand op.keyword, raw⟩
                else do
                  let a ← read schema left
                  let b ← read schema right
                  .ok (.binary op a b raw)
            | none =>
                match _hneg : negated? raw with
                | some rest =>
                    if allBlank rest then .error ⟨.missingOperand notKeyword, raw⟩
                    else do
                      let child ← read schema rest
                      .ok (.negation child raw)
                | none => (Comparison.read schema raw).map .comparison
termination_by s.length
decreasing_by
  · have := length_le_of_tidy _htidy
    have := length_of_split? _hsplit
    simp only [Bool.or_eq_true, not_or, Bool.not_eq_true] at _hblank
    have := length_pos_of_not_allBlank _hblank.2
    omega
  · have := length_le_of_tidy _htidy
    have := length_of_split? _hsplit
    simp only [Bool.or_eq_true, not_or, Bool.not_eq_true] at _hblank
    have := length_pos_of_not_allBlank _hblank.1
    omega
  · have := length_le_of_tidy _htidy
    have := length_of_negated? _hneg
    omega

end Condition
end RecordFilter
