import RecordFilter.Text.Blank

/-!
# Trimming — what a trim keeps and what it loses

A trim loses blanks only (`exists_trim`), it stops at the first character that is no blank
(`trim_append_cons`), and trimming again changes nothing (`trim_trim`).
-/

namespace RecordFilter
namespace Text

variable {a b s : Text} {c : Char}

/-! ## Blank texts -/

@[simp] theorem allBlank_nil : allBlank [] = true := rfl

@[simp] theorem allBlank_cons (c : Char) (s : Text) :
    allBlank (c :: s) = (isBlank c && allBlank s) := rfl

@[simp] theorem allBlank_append (a b : Text) :
    allBlank (a ++ b) = (allBlank a && allBlank b) := by
  simp [allBlank]

theorem allBlank_reverse (s : Text) : allBlank s.reverse = allBlank s := by
  simp [allBlank]

theorem allBlank_iff : allBlank s = true ↔ ∀ c ∈ s, isBlank c = true := by
  simp [allBlank]

theorem allBlank_eq_false_iff : allBlank s = false ↔ ∃ c ∈ s, isBlank c = false := by
  simp [allBlank]

/-- A text is blank, or it has a first character that is no blank. -/
theorem allBlank_or_exists (s : Text) :
    allBlank s = true ∨ ∃ p c rest, allBlank p = true ∧ isBlank c = false ∧ s = p ++ c :: rest := by
  induction s with
  | nil => exact Or.inl rfl
  | cons d s ih =>
      cases hd : isBlank d with
      | false => exact Or.inr ⟨[], d, s, rfl, hd, rfl⟩
      | true =>
          rcases ih with hs | ⟨p, c, rest, hp, hc, rfl⟩
          · exact Or.inl (by simp [hd, hs])
          · exact Or.inr ⟨d :: p, c, rest, by simp [hd, hp], hc, rfl⟩

/-! ## One end -/

theorem trimStart_append_of_allBlank (h : allBlank a = true) (b : Text) :
    trimStart (a ++ b) = trimStart b := by
  have hall : ∀ x ∈ a, isBlank x = true := allBlank_iff.1 h
  exact List.dropWhile_append_of_pos hall

theorem trimStart_of_allBlank (h : allBlank s = true) : trimStart s = [] := by
  simpa [trimStart] using trimStart_append_of_allBlank h []

theorem trimStart_cons (hc : isBlank c = false) (s : Text) : trimStart (c :: s) = c :: s := by
  simp [trimStart, hc]

theorem trimStart_append_cons (a : Text) (hc : isBlank c = false) (b : Text) :
    trimStart (a ++ c :: b) = trimStart a ++ c :: b := by
  rcases allBlank_or_exists a with ha | ⟨p, d, rest, hp, hd, rfl⟩
  · rw [trimStart_append_of_allBlank ha, trimStart_of_allBlank ha, trimStart_cons hc, List.nil_append]
  · rw [trimStart_append_of_allBlank hp, List.append_assoc, trimStart_append_of_allBlank hp,
      trimStart_cons hd, List.cons_append, trimStart_cons hd]

theorem trimEnd_eq_reverse (s : Text) : trimEnd s = (trimStart s.reverse).reverse := rfl

theorem trimEnd_append_of_allBlank (a : Text) (h : allBlank b = true) :
    trimEnd (a ++ b) = trimEnd a := by
  have hrev : allBlank b.reverse = true := by rwa [allBlank_reverse]
  calc
    trimEnd (a ++ b) = (trimStart (b.reverse ++ a.reverse)).reverse := by
      rw [trimEnd_eq_reverse, List.reverse_append]
    _ = (trimStart a.reverse).reverse := by rw [trimStart_append_of_allBlank hrev]
    _ = trimEnd a := (trimEnd_eq_reverse a).symm

theorem trimEnd_of_allBlank (h : allBlank s = true) : trimEnd s = [] := by
  simpa [trimEnd] using trimEnd_append_of_allBlank [] h

theorem trimEnd_append_cons (a : Text) (hc : isBlank c = false) (b : Text) :
    trimEnd (a ++ c :: b) = a ++ c :: trimEnd b := by
  have hrev : (a ++ c :: b).reverse = b.reverse ++ c :: a.reverse := by simp
  rw [trimEnd_eq_reverse, hrev, trimStart_append_cons _ hc]
  simp [trimEnd_eq_reverse]

theorem trimStart_append_of_not_allBlank (h : allBlank a = false) (b : Text) :
    trimStart (a ++ b) = trimStart a ++ b := by
  rcases allBlank_or_exists a with ha | ⟨p, c, rest, hp, hc, rfl⟩
  · rw [ha] at h
    cases h
  · simp [trimStart_append_cons p hc, List.append_assoc]

theorem trimEnd_append_of_not_allBlank (a : Text) (h : allBlank b = false) :
    trimEnd (a ++ b) = a ++ trimEnd b := by
  rcases allBlank_or_exists b with hb | ⟨p, c, rest, hp, hc, rfl⟩
  · rw [hb] at h
    cases h
  · simp [← List.append_assoc, trimEnd_append_cons _ hc]

theorem exists_trimStart (s : Text) : ∃ p, allBlank p = true ∧ s = p ++ trimStart s := by
  rcases allBlank_or_exists s with hs | ⟨p, c, rest, hp, hc, rfl⟩
  · exact ⟨s, hs, by simp [trimStart_of_allBlank hs]⟩
  · exact ⟨p, hp, by rw [trimStart_append_of_allBlank hp, trimStart_cons hc]⟩

theorem exists_trimEnd (s : Text) : ∃ q, allBlank q = true ∧ s = trimEnd s ++ q := by
  rcases exists_trimStart s.reverse with ⟨p, hp, heq⟩
  refine ⟨p.reverse, by rwa [allBlank_reverse], ?_⟩
  rw [trimEnd_eq_reverse, ← List.reverse_append, ← heq, List.reverse_reverse]

/-! ## Both ends -/

theorem trim_of_allBlank (h : allBlank s = true) : trim s = [] := by
  rw [trim, trimStart_of_allBlank h]
  rfl

theorem allBlank_of_trimStart_eq_nil (h : trimStart s = []) : allBlank s = true := by
  rcases exists_trimStart s with ⟨p, hp, heq⟩
  rwa [heq, h, List.append_nil]

theorem allBlank_of_trimEnd_eq_nil (h : trimEnd s = []) : allBlank s = true := by
  rcases exists_trimEnd s with ⟨q, hq, heq⟩
  rwa [heq, h, List.nil_append]

theorem trim_append_cons (a : Text) (hc : isBlank c = false) (b : Text) :
    trim (a ++ c :: b) = trimStart a ++ c :: trimEnd b := by
  rw [trim, trimStart_append_cons a hc, trimEnd_append_cons _ hc]

/-- What has no blank in it is kept, between what is left of the texts around it. -/
theorem trim_between {w : Text} (hne : w ≠ []) (hw : ∀ c ∈ w, isBlank c = false) (a b : Text) :
    trim (a ++ w ++ b) = trimStart a ++ w ++ trimEnd b := by
  have hstart : trimStart (a ++ w ++ b) = trimStart a ++ w ++ b := by
    cases w with
    | nil => exact absurd rfl hne
    | cons c rest => simpa using trimStart_append_cons a (hw c List.mem_cons_self) (rest ++ b)
  rw [trim, hstart]
  rcases List.eq_nil_or_concat w with rfl | ⟨front, d, rfl⟩
  · exact absurd rfl hne
  · simpa using trimEnd_append_cons (trimStart a ++ front) (hw d (by simp)) b

theorem trim_append_of_allBlank_left (h : allBlank a = true) (b : Text) :
    trim (a ++ b) = trim b := by
  rw [trim, trimStart_append_of_allBlank h, ← trim]

theorem trim_append_of_allBlank_right (a : Text) (h : allBlank b = true) :
    trim (a ++ b) = trim a := by
  rcases allBlank_or_exists a with ha | ⟨p, c, rest, hp, hc, rfl⟩
  · rw [trim_append_of_allBlank_left ha, trim_of_allBlank h, trim_of_allBlank ha]
  · rw [List.append_assoc, List.cons_append, trim_append_cons p hc, trim_append_cons p hc,
      trimEnd_append_of_allBlank rest h]

theorem exists_trim (s : Text) :
    ∃ p q, allBlank p = true ∧ allBlank q = true ∧ s = p ++ trim s ++ q := by
  rcases exists_trimStart s with ⟨p, hp, hs⟩
  rcases exists_trimEnd (trimStart s) with ⟨q, hq, ht⟩
  exact ⟨p, q, hp, hq, by rw [trim, List.append_assoc, ← ht, ← hs]⟩

theorem trim_trim (s : Text) : trim (trim s) = trim s := by
  rcases exists_trim s with ⟨p, q, hp, hq, hs⟩
  calc
    trim (trim s) = trim (trim s ++ q) := (trim_append_of_allBlank_right _ hq).symm
    _ = trim (p ++ (trim s ++ q)) := (trim_append_of_allBlank_left hp _).symm
    _ = trim s := by rw [← List.append_assoc, ← hs]

theorem trim_trimStart (s : Text) : trim (trimStart s) = trim s := by
  rcases exists_trimStart s with ⟨p, hp, hs⟩
  rw [← trim_append_of_allBlank_left hp, ← hs]

theorem trim_trimEnd (s : Text) : trim (trimEnd s) = trim s := by
  rcases exists_trimEnd s with ⟨q, hq, hs⟩
  rw [← trim_append_of_allBlank_right _ hq, ← hs]

theorem trim_eq_nil_iff : trim s = [] ↔ allBlank s = true := by
  constructor
  · intro h
    rcases exists_trim s with ⟨p, q, hp, hq, hs⟩
    rw [hs, h]
    simp [hp, hq]
  · exact trim_of_allBlank

/-- A trimmed text is empty or not blank. -/
theorem allBlank_eq_false_of_trim (h : trim s = s) (hne : s ≠ []) : allBlank s = false := by
  rw [← Bool.not_eq_true, ← trim_eq_nil_iff, h]
  exact hne

theorem allBlank_trim (s : Text) : allBlank (trim s) = allBlank s := by
  rw [Bool.eq_iff_iff, ← trim_eq_nil_iff, ← trim_eq_nil_iff, trim_trim]

theorem allBlank_trimStart (s : Text) : allBlank (trimStart s) = allBlank s := by
  rw [← allBlank_trim, trim_trimStart, allBlank_trim]

theorem allBlank_trimEnd (s : Text) : allBlank (trimEnd s) = allBlank s := by
  rw [← allBlank_trim, trim_trimEnd, allBlank_trim]

theorem mem_of_mem_trim (h : c ∈ trim s) : c ∈ s := by
  rcases exists_trim s with ⟨p, q, -, -, heq⟩
  rw [heq]
  exact List.mem_append_left _ (List.mem_append_right _ h)

theorem mem_trim_or_isBlank (h : c ∈ s) : c ∈ trim s ∨ isBlank c = true := by
  rcases exists_trim s with ⟨p, q, hp, hq, hs⟩
  rw [hs] at h
  rcases List.mem_append.1 h with h | h
  · rcases List.mem_append.1 h with h | h
    · exact Or.inr (allBlank_iff.1 hp c h)
    · exact Or.inl h
  · exact Or.inr (allBlank_iff.1 hq c h)

theorem trimStart_eq_self (h : ∀ c, s.head? = some c → isBlank c = false) : trimStart s = s := by
  cases s with
  | nil => rfl
  | cons c s => exact trimStart_cons (h c rfl) s

theorem trimEnd_eq_self (h : ∀ c, s.getLast? = some c → isBlank c = false) : trimEnd s = s := by
  rcases List.eq_nil_or_concat s with rfl | ⟨front, c, hs⟩
  · rfl
  · have hc : isBlank c = false := h c (by simp [hs])
    rw [hs, List.concat_eq_append, trimEnd_append_cons front hc]
    rfl

/-- A text without a blank at either end is what its trim leaves. -/
theorem trim_eq_self (hfirst : ∀ c, s.head? = some c → isBlank c = false)
    (hlast : ∀ c, s.getLast? = some c → isBlank c = false) : trim s = s := by
  rw [trim, trimStart_eq_self hfirst, trimEnd_eq_self hlast]

theorem isBlank_head?_trim (h : (trim s).head? = some c) : isBlank c = false := by
  rcases allBlank_or_exists s with hs | ⟨p, d, rest, hp, hd, rfl⟩
  · rw [trim_of_allBlank hs] at h
    cases h
  · rw [trim_append_cons p hd, trimStart_of_allBlank hp] at h
    cases h
    exact hd

theorem isBlank_getLast?_trim (h : (trim s).getLast? = some c) : isBlank c = false := by
  rcases allBlank_or_exists s.reverse with hs | ⟨p, d, rest, hp, hd, hrev⟩
  · rw [allBlank_reverse] at hs
    rw [trim_of_allBlank hs] at h
    cases h
  · have hs : s = rest.reverse ++ d :: p.reverse := by
      rw [← List.reverse_reverse s, hrev]
      simp
    rw [hs, trim_append_cons _ hd, trimEnd_of_allBlank (by rwa [allBlank_reverse])] at h
    simp only [List.getLast?_append, List.getLast?_singleton, Option.some_or,
      Option.some.injEq] at h
    rwa [← h]

theorem trimStart_of_trim (h : trim s = s) : trimStart s = s :=
  trimStart_eq_self fun _ hc => isBlank_head?_trim (by rwa [h])

theorem trimEnd_of_trim (h : trim s = s) : trimEnd s = s :=
  trimEnd_eq_self fun _ hc => isBlank_getLast?_trim (by rwa [h])

end Text
end RecordFilter
