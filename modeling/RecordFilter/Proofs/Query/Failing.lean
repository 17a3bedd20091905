import RecordFilter.Proofs.Condition.Parentheses
import RecordFilter.Proofs.Condition.Precedence
import RecordFilter.Proofs.Expression.Parts
import RecordFilter.Query

/-!
# Failing — the part of a filter that an error names

Whatever reader refuses a text, at whatever depth, the error names a contiguous part of that text, and
some of it unless the text is blank (`read_names_part`).  Each step of a reader hands a part of its text
on, and never an empty one.
-/

namespace RecordFilter

open Text Expression SyntaxError

variable {schema : Schema} {e : SyntaxError} {s t raw left right : Text}

/-! ## Arithmetic -/

namespace Arithmetic

theorem expression_of_readLeaf (h : readLeaf schema s = .error e) : e.expression = s := by
  unfold readLeaf at h
  split at h
  case isTrue => cases h
  case isFalse =>
    split at h
    case isTrue =>
      cases h
      rfl
    case isFalse =>
      split at h
      case h_1 => cases h
      case h_2 =>
        cases h
        rfl

theorem namesPartOf_of_read (h : read schema s = .error e) : e.NamesPartOf s := by
  fun_induction read schema s with
  | case1 s e' htidy =>
      cases h
      exact namesPartOf_of_tidy htidy
  | case2 s raw htidy hempty =>
      cases h
      exact .of_trim rfl
  | case3 s raw htidy hempty hsplit =>
      have hexpression := expression_of_readLeaf h
      refine .of_part ?_ ?_
      · rw [hexpression]
        exact part_of_tidy htidy
      · rw [hexpression]
        simpa using hempty
  | case4 s raw htidy hempty op left right hsplit hblank =>
      cases h
      exact .of_part (part_of_tidy htidy) (by simpa using hempty)
  | case5 s raw htidy hempty op left right hsplit hblank ihl ihr =>
      simp only [Bool.or_eq_true, not_or, Bool.not_eq_true] at hblank
      rcases properPart_of_split? hsplit with ⟨hleft, hright⟩
      have hraw := part_of_tidy htidy
      rcases eq_error_of_bind₂ h with ha | hb
      · exact (ihl ha).mono (hleft.part.trans hraw) hblank.1
      · exact (ihr hb).mono (hright.part.trans hraw) hblank.2

end Arithmetic

/-! ## Comparisons -/

namespace Comparison

variable {r : Relation}

/-- The sides are trimmed, so one that is not empty is not blank. -/
theorem not_allBlank_of_split? (h : split? s = some (r, left, right)) :
    (left ≠ [] → allBlank left = false) ∧ (right ≠ [] → allBlank right = false) := by
  rcases split?_eq_some h with ⟨a, b, -, rfl, rfl⟩
  exact ⟨allBlank_eq_false_of_trim (trim_trim a), allBlank_eq_false_of_trim (trim_trim b)⟩

theorem expression_of_readLiteral (h : readLiteral raw s = .error e) : e.expression = raw := by
  unfold readLiteral at h
  split at h
  case h_1 =>
    cases h
    rfl
  case h_2 =>
    split at h
    case h_1 =>
      cases h
      rfl
    case h_2 => cases h

/-- A side that cannot be read names a part of itself; all else names the whole comparison. -/
theorem namesPartOf_of_readOperands (hraw : raw ≠ []) (hleft : left <:+: raw) (hright : right <:+: raw)
    (hlblank : allBlank left = false) (hrblank : allBlank right = false)
    (h : readOperands schema raw left right = .error e) : e.NamesPartOf raw := by
  unfold readOperands at h
  split at h
  case isTrue =>
    rcases eq_error_of_bind₂ h with ha | hb
    · exact (Arithmetic.namesPartOf_of_read ha).mono hleft hlblank
    · exact (Arithmetic.namesPartOf_of_read hb).mono hright hrblank
  case isFalse =>
    split at h
    case isTrue =>
      have hexpression := expression_of_readLiteral (eq_error_of_bind_ok h)
      subst hexpression
      exact .of_part List.infix_rfl hraw
    case isFalse =>
      cases h
      exact .of_part List.infix_rfl hraw

theorem namesPartOf_of_readSides (hraw : raw ≠ []) (hsplit : split? raw = some (r, left, right))
    (h : readSides schema raw r left right = .error e) : e.NamesPartOf raw := by
  rcases properPart_of_split? hsplit with ⟨hleft, hright⟩
  rcases not_allBlank_of_split? hsplit with ⟨hlblank, hrblank⟩
  unfold readSides at h
  split at h
  case isTrue =>
    cases h
    exact .of_part List.infix_rfl hraw
  case isFalse hempty =>
    simp only [Bool.or_eq_true, List.isEmpty_iff, not_or] at hempty
    split at h
    case isTrue =>
      exact namesPartOf_of_readOperands hraw hleft.part hright.part (hlblank hempty.1) (hrblank hempty.2)
        (eq_error_of_bind_ok h)
    case isFalse =>
      exact namesPartOf_of_readOperands hraw hright.part hleft.part (hrblank hempty.2) (hlblank hempty.1)
        (eq_error_of_bind_ok h)

theorem namesPartOf_of_read (h : read schema s = .error e) : e.NamesPartOf s := by
  unfold read at h
  rcases bind_eq_error_iff.1 h with htidy | ⟨raw, htidy, hrest⟩
  · exact namesPartOf_of_tidy htidy
  · split at hrest
    case isTrue =>
      cases hrest
      exact .of_trim rfl
    case isFalse hempty =>
      have hne : raw ≠ [] := by simpa using hempty
      have hblank := allBlank_eq_false_of_trim (tidy_spec htidy).1 hne
      -- from here on an error names a part of the tidy text
      refine SyntaxError.NamesPartOf.mono ?_ (part_of_tidy htidy) hblank
      rcases bind_eq_error_iff.1 hrest with houtside | ⟨outside, -, hchecks⟩
      · exact namesPartOf_of_outermost htidy houtside
      · split at hchecks
        case isTrue =>
          cases hchecks
          exact .of_part List.infix_rfl hne
        case isFalse =>
          split at hchecks
          case isTrue =>
            cases hchecks
            exact .of_part List.infix_rfl hne
          case isFalse =>
            split at hchecks
            case h_1 =>
              cases hchecks
              exact .of_part List.infix_rfl hne
            case h_2 r left right hsplit => exact namesPartOf_of_readSides hne hsplit hchecks

end Comparison

/-! ## Conditions -/

namespace Condition

theorem namesPartOf_of_read (h : read schema s = .error e) : e.NamesPartOf s := by
  fun_induction read schema s with
  | case1 s e' htidy =>
      cases h
      exact namesPartOf_of_tidy htidy
  | case2 s raw htidy hempty =>
      cases h
      exact .of_trim rfl
  | case3 s raw htidy hempty b htruth => cases h
  | case4 s raw htidy hempty htruth op left right hsplit hblank =>
      cases h
      exact .of_part (part_of_tidy htidy) (by simpa using hempty)
  | case5 s raw htidy hempty htruth op left right hsplit hblank ihl ihr =>
      simp only [Bool.or_eq_true, not_or, Bool.not_eq_true] at hblank
      rcases properPart_of_split? hsplit with ⟨hleft, hright⟩
      have hraw := part_of_tidy htidy
      rcases eq_error_of_bind₂ h with ha | hb
      · exact (ihl ha).mono (hleft.part.trans hraw) hblank.1
      · exact (ihr hb).mono (hright.part.trans hraw) hblank.2
  | case6 s raw htidy hempty htruth hsplit rest hneg hblank =>
      cases h
      exact .of_part (part_of_tidy htidy) (by simpa using hempty)
  | case7 s raw htidy hempty htruth hsplit rest hneg hblank ih =>
      have hrest := (properPart_of_negated? hneg).part
      exact (ih (eq_error_of_bind_ok h)).mono (hrest.trans (part_of_tidy htidy))
        (by simpa using hblank)
  | case8 s raw htidy hempty htruth hsplit hneg =>
      have hne : raw ≠ [] := by simpa using hempty
      have hblank := allBlank_eq_false_of_trim (tidy_spec htidy).1 hne
      cases hc : Comparison.read schema raw with
      | ok c =>
          rw [hc] at h
          cases h
      | error e' =>
          rw [hc] at h
          cases h
          exact (Comparison.namesPartOf_of_read hc).mono (part_of_tidy htidy) hblank

end Condition

/-! ## Statements -/

namespace Query

theorem suffix_of_afterKeyword? {word : Text} (h : afterKeyword? word s = some t) : t <:+ s := by
  fun_induction afterKeyword? word s with
  | case1 s =>
      cases h
      exact List.suffix_rfl
  | case2 => cases h
  | case3 k word c rest _ ih => exact (ih h).trans (List.suffix_cons c rest)
  | case4 => cases h

theorem suffix_of_afterBlanks? (h : afterBlanks? s = some t) : t <:+ s := by
  cases s with
  | nil => cases h
  | cons c rest =>
      rw [afterBlanks?] at h
      split at h
      case isTrue =>
        cases h
        exact (trimStart_isSuffix rest).trans (List.suffix_cons c rest)
      case isFalse => cases h

theorem parts_of_word? {inWord : Char → Bool} {word : Text} (h : word? inWord s = some (word, t)) :
    word <:+: s ∧ word ≠ [] ∧ t <:+ s := by
  unfold word? at h
  dsimp only at h
  split at h
  case isTrue => cases h
  case isFalse hne =>
    cases h
    exact ⟨(List.takeWhile_prefix _).isInfix, by simpa using hne, List.dropWhile_suffix _⟩

theorem dropSemicolon_isPrefix (s : Text) : dropSemicolon s <+: s := by
  unfold dropSemicolon
  split
  case isTrue => exact List.dropLast_prefix s
  case isFalse => exact List.prefix_rfl

theorem trimSemicolons_isPrefix (s : Text) : trimSemicolons s <+: s := by
  have hsuffix := List.dropWhile_suffix (l := s.reverse) (· == ';')
  have hprefix := List.reverse_prefix.2 hsuffix
  rwa [List.reverse_reverse] at hprefix

theorem part_of_ending? {clause : Text} (h : ending? s = some (some clause)) : clause <:+: s := by
  unfold ending? at h
  split at h
  case h_1 c hc =>
    cases h
    -- the clause begins behind WHERE and ends before the semicolon
    simp only [clause?, Option.bind_eq_bind, Option.bind_eq_some_iff] at hc
    rcases hc with ⟨a, ha, b, hb, hc⟩
    have hsuffix : c <:+ s := (suffix_of_afterBlanks? hc).trans
      ((suffix_of_afterKeyword? hb).trans (suffix_of_afterBlanks? ha))
    have hprefix : trimEnd (dropSemicolon (trimEnd c)) <+: c :=
      (trimEnd_isPrefix _).trans ((dropSemicolon_isPrefix _).trans (trimEnd_isPrefix c))
    exact hprefix.isInfix.trans hsuffix.isInfix
  case h_2 =>
    split at h
    case isTrue => cases h
    case isFalse => cases h

/-- The projection and the clause of a statement stand in it. -/
theorem parts_of_statement? {projection source : Text} {clause : Option Text}
    (h : statement? s = some ⟨projection, source, clause⟩) :
    (projection <:+: s ∧ projection ≠ []) ∧ ∀ c, clause = some c → c <:+: s := by
  simp only [statement?, Option.bind_eq_bind, Option.bind_eq_some_iff, Option.some.injEq,
    Statement.mk.injEq, Prod.exists] at h
  rcases h with ⟨s₁, hselect, s₂, hblanks, projection', s₃, hprojection, s₄, hgap, s₅, hfrom, s₆, hblanks',
    source', s₇, hsource, clause', hending, rfl, rfl, rfl⟩
  have h₂ : s₂ <:+ s := (suffix_of_afterBlanks? hblanks).trans
    ((suffix_of_afterKeyword? hselect).trans (trimStart_isSuffix s))
  rcases parts_of_word? hprojection with ⟨hword, hne, h₃⟩
  have h₆ : s₆ <:+ s₃ := (suffix_of_afterBlanks? hblanks').trans
    ((suffix_of_afterKeyword? hfrom).trans (suffix_of_afterBlanks? hgap))
  have h₇ : s₇ <:+ s := (parts_of_word? hsource).2.2.trans (h₆.trans (h₃.trans h₂))
  refine ⟨⟨hword.trans h₂.isInfix, hne⟩, fun c hc => ?_⟩
  subst hc
  exact (part_of_ending? hending).trans h₇.isInfix

theorem namesPartOf_of_read (h : read schema s = .error e) : e.NamesPartOf s := by
  unfold read at h
  split at h
  case h_1 =>
    cases h
    exact .of_trim rfl
  case h_2 projection source clause hstatement =>
    rcases parts_of_statement? hstatement with ⟨hprojection, hclause⟩
    split at h
    case isTrue =>
      cases h
      exact .of_part hprojection.1 hprojection.2
    case isFalse =>
      split at h
      case isTrue =>
        cases h
        exact .of_trim rfl
      case isFalse hempty =>
        have hroot := eq_error_of_bind_ok h
        cases clause with
        | none =>
            -- the condition of a statement without a clause is TRUE, which is always read
            have hread : Condition.read schema (Condition.truthWord true) = .ok (.truth true) :=
              Condition.read_truthWord schema true
            rw [conditionOf, hread] at hroot
            cases hroot
        | some c =>
            have hpart : conditionOf (some c) <:+: s :=
              (trim_part _).trans ((trimSemicolons_isPrefix _).isInfix.trans
                ((trim_part c).trans (hclause c rfl)))
            have hblank : allBlank (conditionOf (some c)) = false :=
              allBlank_eq_false_of_trim (trim_trim _) (by simpa using hempty)
            exact (Condition.namesPartOf_of_read hroot).mono hpart hblank

/-- An error of any reader names a contiguous part of the text it was given, and not an empty one
unless the text is blank. -/
theorem read_names_part (schema : Schema) (s : Text) :
    (∀ e, read schema s = .error e → e.NamesPartOf s) ∧
      (∀ e, Condition.read schema s = .error e → e.NamesPartOf s) ∧
      (∀ e, Comparison.read schema s = .error e → e.NamesPartOf s) ∧
      ∀ e, Arithmetic.read schema s = .error e → e.NamesPartOf s :=
  ⟨fun _ => namesPartOf_of_read, fun _ => Condition.namesPartOf_of_read,
    fun _ => Comparison.namesPartOf_of_read, fun _ => Arithmetic.namesPartOf_of_read⟩

/-- A parenthesis that is never closed: the error of the query names the condition, that of the
condition names itself. -/
theorem read_unclosed_parenthesis :
    let condition := "thing > (result".toList
    let statement := "SELECT * FROM s WHERE thing > (result ;".toList
    let e : SyntaxError := ⟨.unclosedParentheses, condition⟩
    read .default statement = .error e ∧ e.NamesPartOf statement ∧
      Condition.read .default condition = .error e ∧ e.NamesPartOf condition ∧
      Comparison.read .default condition = .error e ∧ Arithmetic.read .default condition = .error e := by
  intro condition statement e
  have htidy : tidy condition = .error e := by
    have hrepair : repair (trim condition) = none := by
      rw [repair, if_neg (by decide)]
      rfl
    rw [tidy, balance_eq_error_iff.2 ⟨hrepair, rfl⟩]
    rfl
  have hcondition : Condition.read .default condition = .error e := by
    rw [Condition.read, htidy]
  have hcomparison : Comparison.read .default condition = .error e := by
    rw [Comparison.read, htidy]
    rfl
  have harithmetic : Arithmetic.read .default condition = .error e := by
    rw [Arithmetic.read, htidy]
  have hstatement : read .default statement = .error e := by
    have hparts : statement? statement = some ⟨['*'], ['s'], some condition⟩ := by decide
    have hwhere : conditionOf (some condition) = condition := by decide
    simp only [read, hparts]
    rw [if_neg (by simp), hwhere, if_neg (by decide), hcondition]
    rfl
  exact ⟨hstatement, (read_names_part .default statement).1 e hstatement, hcondition,
    (read_names_part .default condition).2.1 e hcondition, hcomparison, harithmetic⟩

end Query
end RecordFilter
