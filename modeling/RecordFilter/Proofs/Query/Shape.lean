import Mathlib.Data.List.Forall2
import RecordFilter.Proofs.Text.Spans
import RecordFilter.Proofs.Text.Trimming
import RecordFilter.Query

/-!
# Shape — how a statement may be written

A statement is `SELECT <projection> FROM <source>`, then a clause behind WHERE or nothing but at most one
semicolon, with blanks between the words and keywords in any letter case (`IsStatement`).  The reader
takes a text apart exactly if it has this shape (`statement?_eq_none_iff`), and a clause that is trimmed
and ends in no semicolon comes out as it was written (`ending?_clause`).
-/

namespace RecordFilter
namespace Query

open Text

variable {s t w c g k word p source head stop : Text} {d : Char}

/-! ## The parts of a statement -/

/-- A keyword in some letter case. -/
def Spells (word s : Text) : Prop := List.Forall₂ (fun capital c => isLetter capital c = true) word s

instance (word s : Text) : Decidable (Spells word s) := inferInstanceAs (Decidable (List.Forall₂ _ _ _))

/-- One or more blanks. -/
def IsGap (g : Text) : Prop := g ≠ [] ∧ allBlank g = true

instance (g : Text) : Decidable (IsGap g) := inferInstanceAs (Decidable (_ ∧ _))

/-- A word that may be a projection. -/
def IsProjection (p : Text) : Prop := p ≠ [] ∧ ∀ c ∈ p, isBlank c = false

instance (p : Text) : Decidable (IsProjection p) := inferInstanceAs (Decidable (_ ∧ _))

/-- A word that may be a source. -/
def IsSource (source : Text) : Prop := source ≠ [] ∧ ∀ c ∈ source, isBlank c = false ∧ c ≠ ';'

instance (source : Text) : Decidable (IsSource source) := inferInstanceAs (Decidable (_ ∧ _))

/-- `SELECT <projection> FROM <source>` with any blanks in front. -/
inductive Head (p source : Text) : Text → Prop where
  | mk {lead select gap gap' word gap'' : Text} :
      allBlank lead = true → Spells "SELECT".toList select → IsGap gap → IsGap gap' →
      Spells "FROM".toList word → IsGap gap'' →
      Head p source (lead ++ (select ++ (gap ++ (p ++ (gap' ++ (word ++ (gap'' ++ source)))))))

/-- The word WHERE between blanks. -/
inductive Where : Text → Prop where
  | mk {gap word gap' : Text} :
      IsGap gap → Spells "WHERE".toList word → IsGap gap' → Where (gap ++ (word ++ gap'))

/-- Blanks and at most one semicolon. -/
inductive IsStop : Text → Prop where
  | blank {w : Text} : allBlank w = true → IsStop w
  | semicolon {v w : Text} : allBlank v = true → allBlank w = true → IsStop (v ++ ';' :: w)

/-- The text of a statement. -/
inductive IsStatement : Text → Prop where
  | bare {p source head stop : Text} :
      Head p source head → IsProjection p → IsSource source → IsStop stop → IsStatement (head ++ stop)
  | clause {p source head w c : Text} :
      Head p source head → IsProjection p → IsSource source → Where w → IsStatement (head ++ (w ++ c))

/-! ## Keywords -/

theorem toUpper_of_isBlank (h : isBlank d = true) : d.toUpper = d := by
  unfold Char.toUpper
  split
  case isTrue hlower =>
    -- no small letter is a blank
    exfalso
    have hcode : 97 ≤ d.toNat ∧ d.toNat ≤ 122 := hlower
    simp only [isBlank, Bool.or_eq_true, Bool.and_eq_true, decide_eq_true_eq, beq_iff_eq] at h
    omega
  case isFalse => rfl

theorem isBlank_of_isLetter {capital : Char} (hcapital : isBlank capital = false)
    (h : isLetter capital d = true) : isBlank d = false := by
  cases hd : isBlank d with
  | false => rfl
  | true =>
      simp only [isLetter, toUpper_of_isBlank hd, Bool.or_eq_true, Bool.and_eq_true, beq_iff_eq] at h
      rcases h with rfl | ⟨-, rfl⟩
      · rw [hd] at hcapital
        cases hcapital
      · cases hd

theorem afterKeyword?_append (h : Spells word k) (t : Text) :
    afterKeyword? word (k ++ t) = some t := by
  induction h with
  | nil => rfl
  | cons hletter _ ih => rw [List.cons_append, afterKeyword?, if_pos hletter, ih]

theorem exists_of_afterKeyword? (h : afterKeyword? word s = some t) :
    ∃ k, Spells word k ∧ s = k ++ t := by
  fun_induction afterKeyword? word s with
  | case1 s =>
      cases h
      exact ⟨[], .nil, rfl⟩
  | case2 => cases h
  | case3 capital word c rest hletter ih =>
      rcases ih h with ⟨k, hk, rfl⟩
      exact ⟨c :: k, .cons hletter hk, rfl⟩
  | case4 => cases h

/-- A keyword begins with no blank. -/
theorem Spells.trimStart_append (h : Spells word k) (hword : ∃ capital rest, word = capital :: rest ∧
    isBlank capital = false) (t : Text) : trimStart (k ++ t) = k ++ t := by
  rcases hword with ⟨capital, rest, rfl, hcapital⟩
  cases h with
  | cons hletter _ => exact trimStart_cons (isBlank_of_isLetter hcapital hletter) _

/-! ## Blanks -/

theorem afterBlanks?_append (hg : IsGap g) (t : Text) : afterBlanks? (g ++ t) = some (trimStart t) := by
  rcases hg with ⟨hne, hblank⟩
  cases g with
  | nil => exact absurd rfl hne
  | cons d g =>
      rw [allBlank_cons, Bool.and_eq_true] at hblank
      rw [List.cons_append, afterBlanks?, if_pos hblank.1, trimStart_append_of_allBlank hblank.2]

theorem exists_of_afterBlanks? (h : afterBlanks? s = some t) : ∃ g, IsGap g ∧ s = g ++ t := by
  cases s with
  | nil => cases h
  | cons d rest =>
      rw [afterBlanks?] at h
      split at h
      case isTrue hd =>
        cases h
        rcases exists_trimStart rest with ⟨g, hg, hrest⟩
        refine ⟨d :: g, ⟨List.cons_ne_nil d g, ?_⟩, ?_⟩
        · rw [allBlank_cons, hd, hg]
          rfl
        · rw [List.cons_append, ← hrest]
      case isFalse => cases h

theorem IsGap.head?_append (hg : IsGap g) (t : Text) :
    ∀ d, (g ++ t).head? = some d → isBlank d = true := by
  rcases hg with ⟨hne, hblank⟩
  cases g with
  | nil => exact absurd rfl hne
  | cons x g =>
      intro d hd
      cases hd
      exact allBlank_iff.1 hblank x List.mem_cons_self

/-! ## Words -/

theorem trimStart_word (hne : word ≠ []) (hword : ∀ c ∈ word, isBlank c = false) (t : Text) :
    trimStart (word ++ t) = word ++ t := by
  cases word with
  | nil => exact absurd rfl hne
  | cons c word => exact trimStart_cons (hword c List.mem_cons_self) _

theorem word?_append {inWord : Char → Bool} (hne : word ≠ []) (hword : ∀ c ∈ word, inWord c = true)
    (ht : ∀ c, t.head? = some c → inWord c = false) : word? inWord (word ++ t) = some (word, t) := by
  have hempty : word.isEmpty = false := List.isEmpty_eq_false_iff.2 hne
  simp only [word?, takeWhile_append_of_all hword ht, dropWhile_append_of_all hword ht, hempty]
  rfl

theorem exists_of_word? {inWord : Char → Bool} (h : word? inWord s = some (word, t)) :
    word ≠ [] ∧ (∀ c ∈ word, inWord c = true) ∧ s = word ++ t := by
  unfold word? at h
  dsimp only at h
  split at h
  case isTrue => cases h
  case isFalse hne =>
    cases h
    exact ⟨by simpa using hne, fun c hc => List.mem_takeWhile_imp hc,
      (List.takeWhile_append_dropWhile).symm⟩

/-! ## The end of a statement -/

theorem dropSemicolon_append (s : Text) : dropSemicolon (s ++ [';']) = s := by
  simp [dropSemicolon]

theorem dropSemicolon_of_getLast? (h : s.getLast? ≠ some ';') : dropSemicolon s = s := if_neg h

theorem trimEnd_append_stop (hc : trimEnd c = c) (hlast : c.getLast? ≠ some ';') (hstop : IsStop stop) :
    trimEnd (dropSemicolon (trimEnd (c ++ stop))) = c := by
  cases hstop with
  | blank hw => rw [trimEnd_append_of_allBlank c hw, hc, dropSemicolon_of_getLast? hlast, hc]
  | @semicolon v w hv hw =>
      have hend : trimEnd (c ++ (v ++ ';' :: w)) = c ++ v ++ [';'] := by
        rw [← List.append_assoc, trimEnd_append_cons _ (by decide), trimEnd_of_allBlank hw]
      rw [hend, dropSemicolon_append, trimEnd_append_of_allBlank c hv, hc]

/-- Nothing but blanks and at most one semicolon. -/
theorem isStop_iff : IsStop s ↔ allBlank (dropSemicolon (trimEnd s)) = true := by
  constructor
  · intro h
    have hnil := trimEnd_append_stop (c := []) rfl (by decide) h
    rw [List.nil_append] at hnil
    exact allBlank_of_trimEnd_eq_nil hnil
  · intro h
    rcases exists_trimEnd s with ⟨w, hw, hs⟩
    by_cases hlast : (trimEnd s).getLast? = some ';'
    · rcases List.getLast?_eq_some_iff.1 hlast with ⟨v, hv⟩
      rw [hv, dropSemicolon_append] at h
      rw [hs, hv, List.append_assoc]
      exact .semicolon h hw
    · rw [dropSemicolon_of_getLast? hlast, allBlank_trimEnd] at h
      exact .blank h

theorem clause?_append (hw : Where w) (c : Text) : clause? (w ++ c) = some (trimStart c) := by
  cases hw with
  | @mk gap word gap' hgap hword hgap' =>
      have hassoc : gap ++ (word ++ gap') ++ c = gap ++ (word ++ (gap' ++ c)) := by
        simp only [List.append_assoc]
      rw [hassoc, clause?, afterBlanks?_append hgap, hword.trimStart_append ⟨'W', _, rfl, rfl⟩]
      simp only [Option.bind_eq_bind, Option.bind_some, afterKeyword?_append hword,
        afterBlanks?_append hgap']

theorem exists_of_clause? (h : clause? s = some c) : ∃ w, Where w ∧ s = w ++ c := by
  simp only [clause?, Option.bind_eq_bind, Option.bind_eq_some_iff] at h
  rcases h with ⟨a, ha, b, hb, hc⟩
  rcases exists_of_afterBlanks? ha with ⟨gap, hgap, rfl⟩
  rcases exists_of_afterKeyword? hb with ⟨word, hword, rfl⟩
  rcases exists_of_afterBlanks? hc with ⟨gap', hgap', rfl⟩
  exact ⟨_, .mk hgap hword hgap', by simp only [List.append_assoc]⟩

theorem IsStop.isBlank_or_eq (h : IsStop s) (hd : d ∈ s) : isBlank d = true ∨ d = ';' := by
  cases h with
  | blank hw => exact Or.inl (allBlank_iff.1 hw d hd)
  | semicolon hv hw =>
      rcases List.mem_append.1 hd with hd | hd
      · exact Or.inl (allBlank_iff.1 hv d hd)
      · rcases List.mem_cons.1 hd with rfl | hd
        · exact Or.inr rfl
        · exact Or.inl (allBlank_iff.1 hw d hd)

/-- No clause stands in blanks and semicolons. -/
theorem clause?_stop (h : IsStop stop) : clause? stop = none := by
  cases hclause : clause? stop with
  | none => rfl
  | some c =>
      exfalso
      rcases exists_of_clause? hclause with ⟨w, hw, rfl⟩
      cases hw with
      | mk _ hword _ =>
          -- the first letter of WHERE would be a blank or a semicolon
          cases hword with
          | @cons capital d word rest hletter _ =>
              rcases h.isBlank_or_eq (d := d) (by simp) with hblank | rfl
              · rw [isBlank_of_isLetter (by decide) hletter] at hblank
                cases hblank
              · revert hletter
                decide

/-- A clause that is trimmed and ends in no semicolon comes out as it was written. -/
theorem ending?_clause (hw : Where w) (hne : c ≠ []) (htrim : trim c = c)
    (hlast : c.getLast? ≠ some ';') (hstop : IsStop stop) :
    ending? (w ++ (c ++ stop)) = some (some c) := by
  have hnotBlank := allBlank_eq_false_of_trim htrim hne
  have hfront : trimStart (c ++ stop) = c ++ stop := by
    rw [trimStart_append_of_not_allBlank hnotBlank, trimStart_of_trim htrim]
  rw [ending?, clause?_append hw, hfront]
  simp only [trimEnd_append_stop (trimEnd_of_trim htrim) hlast hstop]

theorem ending?_stop (h : IsStop stop) : ending? stop = some none := by
  rw [ending?, clause?_stop h]
  exact if_pos (isStop_iff.1 h)

theorem ending?_eq_none_iff : ending? s = none ↔ ¬(IsStop s ∨ ∃ w c, Where w ∧ s = w ++ c) := by
  constructor
  · rintro hnone (hstop | ⟨w, c, hw, rfl⟩)
    · rw [ending?_stop hstop] at hnone
      cases hnone
    · rw [ending?, clause?_append hw] at hnone
      cases hnone
  · intro h
    rw [not_or] at h
    cases hclause : clause? s with
    | some c =>
        rcases exists_of_clause? hclause with ⟨w, hw, hs⟩
        exact absurd ⟨w, c, hw, hs⟩ h.2
    | none =>
        rw [ending?, hclause]
        exact if_neg fun hblank => h.1 (isStop_iff.2 hblank)

/-- What may stand behind a source: nothing, a blank or a semicolon. -/
theorem head?_of_ending (h : IsStop t ∨ ∃ w c, Where w ∧ t = w ++ c) :
    ∀ d, t.head? = some d → (!(isBlank d || d == ';')) = false := by
  intro d hd
  rcases h with hstop | ⟨w, c, hw, rfl⟩
  · rcases hstop.isBlank_or_eq (List.mem_of_mem_head? hd) with hblank | rfl
    · rw [hblank]
      rfl
    · rfl
  · cases hw with
    | mk hgap hword hgap' =>
        rw [List.append_assoc] at hd
        rw [hgap.head?_append _ d hd]
        rfl

/-! ## Statements -/

/-- A statement is taken apart as it was written. -/
theorem statement?_append (hhead : Head p source head) (hp : IsProjection p) (hsource : IsSource source)
    (ht : IsStop t ∨ ∃ w c, Where w ∧ t = w ++ c) :
    statement? (head ++ t) = (ending? t).map (⟨p, source, ·⟩) := by
  cases hhead with
  | @mk lead select gap gap' word gap'' hlead hselect hgap hgap' hword hgap'' =>
      have hp' : ∀ c ∈ p, (!isBlank c) = true := by
        intro c hc
        rw [hp.2 c hc]
        rfl
      have hsource' : ∀ c ∈ source, (!(isBlank c || c == ';')) = true := by
        intro c hc
        simp [hsource.2 c hc]
      have hafter : ∀ d, (gap' ++ (word ++ (gap'' ++ (source ++ t)))).head? = some d →
          (!isBlank d) = false := by
        intro d hd
        rw [hgap'.head?_append _ d hd]
        rfl
      -- each step takes one part off the front
      simp only [List.append_assoc]
      rw [statement?, trimStart_append_of_allBlank hlead, hselect.trimStart_append ⟨'S', _, rfl, rfl⟩]
      simp only [Option.bind_eq_bind, Option.bind_some, afterKeyword?_append hselect,
        afterBlanks?_append hgap, trimStart_word hp.1 hp.2, word?_append hp.1 hp' hafter,
        afterBlanks?_append hgap', hword.trimStart_append ⟨'F', _, rfl, rfl⟩,
        afterKeyword?_append hword, afterBlanks?_append hgap'',
        trimStart_word hsource.1 (fun c hc => (hsource.2 c hc).1),
        word?_append hsource.1 hsource' (head?_of_ending ht)]
      cases ending? t with
      | none => rfl
      | some clause => rfl

theorem exists_of_statement? {st : Statement} (h : statement? s = some st) :
    ∃ head t, Head st.projection st.source head ∧ IsProjection st.projection ∧ IsSource st.source ∧
      s = head ++ t ∧ ending? t = some st.clause := by
  simp only [statement?, Option.bind_eq_bind, Option.bind_eq_some_iff, Option.some.injEq,
    Prod.exists] at h
  rcases h with ⟨s₁, hselect, s₂, hgap, p, s₃, hp, s₄, hgap', s₅, hword, s₆, hgap'', source, t, hsource,
    clause, hending, rfl⟩
  rcases exists_trimStart s with ⟨lead, hlead, hs⟩
  rcases exists_of_afterKeyword? hselect with ⟨select, hs₁, heq⟩
  rcases exists_of_afterBlanks? hgap with ⟨gap, hg, rfl⟩
  rcases exists_of_word? hp with ⟨hpne, hpchars, rfl⟩
  rcases exists_of_afterBlanks? hgap' with ⟨gap', hg', rfl⟩
  rcases exists_of_afterKeyword? hword with ⟨word, hs₄, rfl⟩
  rcases exists_of_afterBlanks? hgap'' with ⟨gap'', hg'', rfl⟩
  rcases exists_of_word? hsource with ⟨hsourcene, hsourcechars, rfl⟩
  refine ⟨_, t, .mk hlead hs₁ hg hg' hs₄ hg'', ⟨hpne, ?_⟩, ⟨hsourcene, ?_⟩, ?_, hending⟩
  · intro c hc
    simpa using hpchars c hc
  · intro c hc
    simpa using hsourcechars c hc
  · rw [hs, heq]
    simp only [List.append_assoc]

/-- A text is taken apart exactly if it has the shape of a statement. -/
theorem statement?_eq_none_iff : statement? s = none ↔ ¬IsStatement s := by
  constructor
  · intro hnone hstatement
    cases hstatement with
    | bare hhead hp hsource hstop =>
        rw [statement?_append hhead hp hsource (Or.inl hstop), ending?_stop hstop] at hnone
        cases hnone
    | @clause p source head w c hhead hp hsource hw =>
        have hending : IsStop (w ++ c) ∨ ∃ w' c', Where w' ∧ w ++ c = w' ++ c' :=
          Or.inr ⟨w, c, hw, rfl⟩
        rw [statement?_append hhead hp hsource hending, Option.map_eq_none_iff,
          ending?_eq_none_iff] at hnone
        exact hnone hending
  · intro h
    cases hst : statement? s with
    | none => rfl
    | some st =>
        exfalso
        rcases exists_of_statement? hst with ⟨head, t, hhead, hp, hsource, rfl, hending⟩
        have hsome : ending? t ≠ none := by
          rw [hending]
          exact Option.some_ne_none _
        rcases not_not.1 fun hnot => hsome (ending?_eq_none_iff.2 hnot) with hstop | ⟨w, c, hw, rfl⟩
        · exact h (.bare hhead hp hsource hstop)
        · exact h (.clause hhead hp hsource hw)

end Query
end RecordFilter
