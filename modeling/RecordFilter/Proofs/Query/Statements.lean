import RecordFilter.Proofs.Condition.Precedence
import RecordFilter.Proofs.Query.Semicolons
import RecordFilter.Proofs.Query.Shape

/-!
# Statements — a condition in a statement and alone

However a statement is written, its condition is cut out of it as it stands, and the statement is read
exactly if the condition is (`read_clause`).  The condition of a query is read alone as the same tree,
unless it ends in a semicolon (`ofCondition_condition`), which only a schema with such a name allows.
-/

namespace RecordFilter
namespace Query

open Text

variable {schema : Schema} {s w c source head stop : Text} {clause : Option Text} {q : Query}

/-! ## The condition of a clause -/

theorem trimSemicolons_of_getLast? (h : s.getLast? ≠ some ';') : trimSemicolons s = s := by
  rcases List.eq_nil_or_concat s with rfl | ⟨front, d, rfl⟩
  · rfl
  · have hd : d ≠ ';' := by
      rintro rfl
      exact h (by simp)
    simp [trimSemicolons, hd]

/-- A clause that is trimmed and ends in no semicolon is the condition. -/
theorem conditionOf_some (htrim : trim c = c) (hlast : c.getLast? ≠ some ';') :
    conditionOf (some c) = c := by
  rw [conditionOf, htrim, trimSemicolons_of_getLast? hlast, htrim]

theorem trim_conditionOf (clause : Option Text) : trim (conditionOf clause) = conditionOf clause := by
  cases clause with
  | none => decide
  | some c => exact trim_trim _

/-! ## Reading -/

theorem read_of_statement? (h : statement? s = some ⟨['*'], source, clause⟩)
    (hne : conditionOf clause ≠ []) :
    read schema s = (Condition.read schema (conditionOf clause)).map fun root =>
      ⟨trim s, source, conditionOf clause, root⟩ := by
  have hempty : (conditionOf clause).isEmpty = false := List.isEmpty_eq_false_iff.2 hne
  simp only [read, h, ne_eq, not_true_eq_false, if_false, hempty]
  cases Condition.read schema (conditionOf clause) with
  | error e => rfl
  | ok root => rfl

/-- The condition of a query is trimmed and is read as the tree of the query. -/
theorem condition_of_read (h : read schema s = .ok q) :
    q.condition ≠ [] ∧ trim q.condition = q.condition ∧
      Condition.read schema q.condition = .ok q.root := by
  unfold read at h
  split at h
  case h_1 => cases h
  case h_2 projection source clause _ =>
    split at h
    case isTrue => cases h
    case isFalse =>
      split at h
      case isTrue => cases h
      case isFalse hempty =>
        rcases bind_eq_ok_iff.1 h with ⟨root, hroot, heq⟩
        cases heq
        exact ⟨by simpa using hempty, trim_conditionOf clause, hroot⟩

/-- However it is written, a statement with a clause is read as its condition is. -/
theorem read_clause (schema : Schema) (hhead : Head ['*'] source head) (hsource : IsSource source)
    (hw : Where w) (hne : c ≠ []) (htrim : trim c = c) (hlast : c.getLast? ≠ some ';')
    (hstop : IsStop stop) :
    read schema (head ++ (w ++ (c ++ stop))) = (Condition.read schema c).map fun root =>
      ⟨trim (head ++ (w ++ (c ++ stop))), source, c, root⟩ := by
  have hstar : IsProjection ['*'] := ⟨by decide, by decide⟩
  have hparts : statement? (head ++ (w ++ (c ++ stop))) = some ⟨['*'], source, some c⟩ := by
    rw [statement?_append hhead hstar hsource (Or.inr ⟨w, _, hw, rfl⟩),
      ending?_clause hw hne htrim hlast hstop]
    rfl
  have hcondition := conditionOf_some htrim hlast
  rw [read_of_statement? hparts (by rwa [hcondition]), hcondition]

/-- A statement without a clause accepts everything. -/
theorem read_bare (schema : Schema) (hhead : Head ['*'] source head) (hsource : IsSource source)
    (hstop : IsStop stop) :
    read schema (head ++ stop) =
      .ok ⟨trim (head ++ stop), source, Condition.truthWord true, .truth true⟩ := by
  have hstar : IsProjection ['*'] := ⟨by decide, by decide⟩
  have hparts : statement? (head ++ stop) = some ⟨['*'], source, none⟩ := by
    rw [statement?_append hhead hstar hsource (Or.inl hstop), ending?_stop hstop]
    rfl
  have hread : Condition.read schema (conditionOf none) = .ok (.truth true) :=
    Condition.read_truthWord schema true
  rw [read_of_statement? hparts (by decide), hread]
  rfl

/-! ## Bare conditions -/

theorem head_ofCondition : Head ['*'] ['*'] "SELECT * FROM *".toList :=
  @Head.mk ['*'] ['*'] [] "SELECT".toList [' '] [' '] "FROM".toList [' '] rfl (by decide) (by decide)
    (by decide) (by decide) (by decide)

theorem where_ofCondition : Where " WHERE ".toList :=
  @Where.mk [' '] "WHERE".toList [' '] (by decide) (by decide) (by decide)

theorem ofCondition_eq (schema : Schema) (hne : c ≠ []) (htrim : trim c = c)
    (hlast : c.getLast? ≠ some ';') :
    ofCondition schema c = (Condition.read schema c).map fun root =>
      ⟨trim ("SELECT * FROM * WHERE ".toList ++ c), ['*'], c, root⟩ := by
  have hread := read_clause schema head_ofCondition (by decide) where_ofCondition hne htrim hlast
    (.blank allBlank_nil)
  rw [List.append_nil] at hread
  exact hread

/-- The condition of a query is read alone as the same tree, unless it ends in a semicolon. -/
theorem ofCondition_condition (h : read schema s = .ok q) (hlast : q.condition.getLast? ≠ some ';') :
    ∃ q', ofCondition schema q.condition = .ok q' ∧ q'.root = q.root := by
  rcases condition_of_read h with ⟨hne, htrim, hread⟩
  rw [ofCondition_eq schema hne htrim hlast, hread]
  exact ⟨_, rfl, rfl⟩

theorem getLast?_condition (hnames : ∀ name ∈ schema.numeric :: schema.allowed, name.getLast? ≠ some ';')
    (h : read schema s = .ok q) : q.condition.getLast? ≠ some ';' := by
  intro hlast
  rcases condition_of_read h with ⟨-, htrim, hread⟩
  have hends : EndsInSemicolon q.condition := (endsInSemicolon_iff_of_trim htrim).2 hlast
  rcases Condition.exists_name_of_endsInSemicolon (Condition.read_sound hread) hends with
    ⟨name, hname, hsemicolon⟩
  exact hnames name hname hsemicolon

/-! ## Statements and their conditions -/

/-- A statement is read exactly if its condition is, and as the same tree, however it is written and
however the condition reads; alone the condition is read in the same way.  The condition of a query can
be taken back, unless it ends in a semicolon, as only a name of the schema can make it; and nothing but a
statement is read. -/
theorem read_statement (schema : Schema) :
    (∀ source head w c stop, Head ['*'] source head → IsSource source → Where w → c ≠ [] → trim c = c →
      c.getLast? ≠ some ';' → IsStop stop →
      (read schema (head ++ (w ++ (c ++ stop))) = (Condition.read schema c).map fun root =>
        ⟨trim (head ++ (w ++ (c ++ stop))), source, c, root⟩) ∧
      ofCondition schema c = (Condition.read schema c).map fun root =>
        ⟨trim ("SELECT * FROM * WHERE ".toList ++ c), ['*'], c, root⟩) ∧
    (∀ source head stop, Head ['*'] source head → IsSource source → IsStop stop →
      read schema (head ++ stop) =
        .ok ⟨trim (head ++ stop), source, Condition.truthWord true, .truth true⟩) ∧
    (∀ s q, read schema s = .ok q → q.condition.getLast? ≠ some ';' →
      ∃ q', ofCondition schema q.condition = .ok q' ∧ q'.root = q.root) ∧
    ((∀ name ∈ schema.numeric :: schema.allowed, name.getLast? ≠ some ';') →
      ∀ s q, read schema s = .ok q → q.condition.getLast? ≠ some ';') ∧
    ∀ s, ¬IsStatement s → read schema s = .error ⟨.notASelect, trim s⟩ := by
  refine ⟨?_, ?_, ?_, ?_, ?_⟩
  · intro source head w c stop hhead hsource hw hne htrim hlast hstop
    exact ⟨read_clause schema hhead hsource hw hne htrim hlast hstop,
      ofCondition_eq schema hne htrim hlast⟩
  · intro source head stop hhead hsource hstop
    exact read_bare schema hhead hsource hstop
  · intro s q h hlast
    exact ofCondition_condition h hlast
  · intro hnames s q h
    exact getLast?_condition hnames h
  · intro s hnot
    rw [read, statement?_eq_none_iff.2 hnot]

/-- A literal with a semicolon and the word FROM in it. -/
theorem read_statement_around_literal :
    let head := "\nselect * From s".toList
    let c := "thing = '; from b'".toList
    let root := Condition.comparison ⟨c, .eq, false, .text "thing".toList "; from b".toList⟩
    let q : Query := ⟨"select * From s\twhere thing = '; from b' ;".toList, ['s'], c, root⟩
    read .default (head ++ ("\twhere ".toList ++ (c ++ " ; ".toList))) = .ok q ∧
      ofCondition .default c = .ok ⟨"SELECT * FROM * WHERE thing = '; from b'".toList, ['*'], c, root⟩ ∧
      read .default (head ++ [';']) =
        .ok ⟨"select * From s;".toList, ['s'], "TRUE".toList, .truth true⟩ ∧
      (∃ q', ofCondition .default q.condition = .ok q' ∧ q'.root = q.root) ∧
      q.condition.getLast? ≠ some ';' ∧
      read .default "select *;".toList = .error ⟨.notASelect, "select *;".toList⟩ := by
  intro head c root q
  rcases read_statement .default with ⟨hclause, hbare, hback, hnames, hshape⟩
  have hhead : Head ['*'] ['s'] head :=
    @Head.mk ['*'] ['s'] ['\n'] "select".toList [' '] [' '] "From".toList [' '] (by decide) (by decide)
      (by decide) (by decide) (by decide) (by decide)
  have hwhere : Where "\twhere ".toList :=
    @Where.mk ['\t'] "where".toList [' '] (by decide) (by decide) (by decide)
  have hstop : IsStop " ; ".toList := @IsStop.semicolon [' '] [' '] (by decide) (by decide)
  have hroot : Condition.read .default c = .ok root := by decide +kernel
  have hc := hclause ['s'] head "\twhere ".toList c " ; ".toList hhead (by decide) hwhere (by decide)
    (by decide) (by decide) hstop
  rw [hroot] at hc
  have hread : read .default (head ++ ("\twhere ".toList ++ (c ++ " ; ".toList))) = .ok q := hc.1
  have hlast := hnames (by decide) _ q hread
  have hbareStop : IsStop [';'] := @IsStop.semicolon [] [] (by decide) (by decide)
  have hnot : ¬IsStatement "select *;".toList := by
    rw [← statement?_eq_none_iff]
    decide
  exact ⟨hread, hc.2, hbare ['s'] head [';'] hhead (by decide) hbareStop, hback _ q hread hlast, hlast,
    hshape _ hnot⟩

/-- Alone, the semicolon at the end of a condition ends the statement, and the name is cut short. -/
theorem ofCondition_semicolon :
    let schema : Schema := ⟨["a;".toList, "result".toList], "result".toList⟩
    let c := "'x' = a;".toList
    schema.problem? = none ∧
      read schema "SELECT * FROM * WHERE 'x' = a; ; ;".toList =
        .ok ⟨"SELECT * FROM * WHERE 'x' = a; ; ;".toList, ['*'], c,
          .comparison ⟨c, .eq, true, .text "a;".toList "x".toList⟩⟩ ∧
      ofCondition schema c = .error ⟨.noKnownField schema.allowed, "'x' = a".toList⟩ := by
  decide +kernel

end Query
end RecordFilter
