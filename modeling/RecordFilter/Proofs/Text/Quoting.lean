import RecordFilter.Text.Quoted

/-!
# Quoting — a literal ends where its text does

In the encoded form of a text every quote has a second one behind it, so the quote that closes a
literal is the first one that no other quote follows (`encode_append_quote_inj`).
-/

namespace RecordFilter
namespace Text
namespace Quoted

variable {a b s t x y z : Text} {c : Char}

theorem encode_quote (s : Text) : encode ('\'' :: s) = '\'' :: '\'' :: encode s := rfl

theorem encode_cons (hc : c ≠ '\'') (s : Text) : encode (c :: s) = c :: encode s := by
  rw [encode, if_neg hc]

theorem encode_append (a b : Text) : encode (a ++ b) = encode a ++ encode b := by
  induction a with
  | nil => rfl
  | cons c a ih =>
      by_cases hc : c = '\''
      · subst hc
        rw [List.cons_append, encode_quote, encode_quote, ih]
        rfl
      · rw [List.cons_append, encode_cons hc, encode_cons hc, ih]
        rfl

theorem encode_of_no_quotes (h : '\'' ∉ s) : encode s = s := by
  induction s with
  | nil => rfl
  | cons c s ih =>
      have hc : c ≠ '\'' := fun hc => h (hc ▸ List.mem_cons_self)
      rw [encode_cons hc, ih (fun hs => h (List.mem_cons_of_mem _ hs))]

/-- Of two literals with no quote behind them, one stands in front of the other only if they are the
same. -/
theorem encode_append_quote_inj (h : encode x ++ '\'' :: t = encode z ++ '\'' :: s)
    (ht : t.head? ≠ some '\'') (hs : s.head? ≠ some '\'') : x = z ∧ t = s := by
  induction x generalizing z with
  | nil =>
      cases z with
      | nil => exact ⟨rfl, (List.cons.inj h).2⟩
      | cons d z =>
          exfalso
          by_cases hd : d = '\''
          · subst hd
            apply ht
            rw [(List.cons.inj h).2]
            rfl
          · rw [encode_cons hd] at h
            exact hd (List.cons.inj h).1.symm
  | cons c x ih =>
      by_cases hc : c = '\''
      · subst hc
        rw [encode_quote] at h
        cases z with
        | nil =>
            exfalso
            apply hs
            rw [← (List.cons.inj h).2]
            rfl
        | cons d z =>
            by_cases hd : d = '\''
            · subst hd
              -- both begin with a doubled quote
              have htail := (List.cons.inj (List.cons.inj h).2).2
              rcases ih htail with ⟨rfl, hrest⟩
              exact ⟨rfl, hrest⟩
            · rw [encode_cons hd] at h
              exact absurd (List.cons.inj h).1.symm hd
      · rw [encode_cons hc] at h
        cases z with
        | nil => exact absurd (List.cons.inj h).1 hc
        | cons d z =>
            by_cases hd : d = '\''
            · subst hd
              exact absurd (List.cons.inj h).1 hc
            · rw [encode_cons hd] at h
              rcases List.cons.inj h with ⟨rfl, htail⟩
              rcases ih htail with ⟨rfl, hrest⟩
              exact ⟨rfl, hrest⟩

theorem body?_eq_some_iff : body? s = some t ↔ s = '\'' :: t ++ ['\''] := by
  constructor
  · intro h
    cases s with
    | nil => cases h
    | cons c rest =>
        rw [body?] at h
        split at h
        case isTrue hmarks =>
          simp only [Bool.and_eq_true, decide_eq_true_eq, beq_iff_eq] at hmarks
          rcases hmarks with ⟨rfl, hlast⟩
          rcases List.getLast?_eq_some_iff.1 hlast with ⟨front, rfl⟩
          rw [List.dropLast_concat] at h
          cases h
          rfl
        case isFalse => cases h
  · rintro rfl
    simp [body?]

end Quoted
end Text
end RecordFilter
