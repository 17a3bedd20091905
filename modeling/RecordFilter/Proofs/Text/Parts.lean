import RecordFilter.Proofs.Text.Trimming

/-!
# Parts — contiguous parts of a text

Trimming takes a part out of a text (`trim_part`).  What stands on either side of something is a proper
part of the whole (`properPart_sides`).
-/

namespace RecordFilter
namespace Text

variable {s t u : Text}

/-! ## Trimming -/

theorem trimStart_isSuffix (s : Text) : trimStart s <:+ s := List.dropWhile_suffix _

theorem trimEnd_isPrefix (s : Text) : trimEnd s <+: s := by
  rcases exists_trimEnd s with ⟨q, -, hs⟩
  exact ⟨q, hs.symm⟩

theorem trim_part (s : Text) : trim s <:+: s :=
  (trimEnd_isPrefix _).isInfix.trans (trimStart_isSuffix s).isInfix

/-! ## Proper parts -/

/-- `t` is a contiguous part of `s` and shorter. -/
structure ProperPart (t s : Text) : Prop where
  part : t <:+: s
  shorter : t.length < s.length

theorem ProperPart.of_part (h : t <:+: s) (hs : ProperPart s u) : ProperPart t u :=
  ⟨h.trans hs.part, Nat.lt_of_le_of_lt h.length_le hs.shorter⟩

theorem properPart_sides {mid : Text} (hne : mid ≠ []) (a b : Text) :
    ProperPart a (a ++ mid ++ b) ∧ ProperPart b (a ++ mid ++ b) := by
  have hpos := List.length_pos_iff.2 hne
  refine ⟨⟨?_, ?_⟩, ⟨(List.suffix_append _ b).isInfix, ?_⟩⟩
  · exact ((List.prefix_append a mid).trans (List.prefix_append _ b)).isInfix
  · simp only [List.length_append]
    omega
  · simp only [List.length_append]
    omega

end Text
end RecordFilter
