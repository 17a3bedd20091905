import RecordFilter.Text.Listing

/-!
# Failure — what can go wrong, and how it is worded

Failures are causes; their wording is in one `message` function each.

* `SyntaxError`: a filter, or a part of it, cannot be read; it carries that part.
* `FieldError`: a record has no usable value in a field that the filter reads.
* `RecordError`: a text is no record.
* `SettingsError`: settings cannot be read or are not valid.
-/

namespace RecordFilter

/-! ## Filters that cannot be read -/

/-- Why an expression cannot be read. -/
inductive SyntaxProblem where
  | unclosedParentheses
  | noOuterContent
  | emptyArithmetic
  | emptyComparison
  | emptyCondition
  | missingOperand (operator : Text)
  | textFieldInArithmetic (field : Text)
  | notANumber
  | unknownNames (allowed : List Text)
  | noKnownField (allowed : List Text)
  | noComparisonOperator
  | noBareField
  | noQuotedLiteral
  | loneQuote
  | notASelect
  | projection
  | emptyWhere
  deriving DecidableEq, Repr

/-- A problem, and the part of the filter that has it. -/
structure SyntaxError where
  problem : SyntaxProblem
  expression : Text
  deriving DecidableEq, Repr

/-- Wording of a problem. -/
def SyntaxProblem.message : SyntaxProblem → Text
  | .unclosedParentheses => "parentheses are not closing".toList
  | .noOuterContent => "query is invalid".toList
  | .emptyArithmetic => "empty arithmetic expression".toList
  | .emptyComparison => "empty comparison".toList
  | .emptyCondition => "empty logical expression".toList
  | .missingOperand operator => "missing operand for '".toList ++ operator ++ "'".toList
  | .textFieldInArithmetic field =>
      "field '".toList ++ field ++ "' is not numeric and cannot be used in arithmetic".toList
  | .notANumber => "not a number".toList
  | .unknownNames allowed =>
      "the sanity check fails, the key must be one of ".toList ++ Text.listing allowed
  | .noKnownField allowed =>
      "the expression does not contain a key of ".toList ++ Text.listing allowed
  | .noComparisonOperator => "couldn't find a comparison operator".toList
  | .noBareField => "a string comparison needs a bare field name on one side".toList
  | .noQuotedLiteral => "expected a quoted string literal opposite the field".toList
  | .loneQuote => "unescaped quote inside string literal".toList
  | .notASelect => "expected 'SELECT * FROM <source> [WHERE <condition>]'".toList
  | .projection => "only '*' projections are supported".toList
  | .emptyWhere => "empty WHERE clause".toList

/-- The problem, then the part that has it between quotes. -/
def SyntaxError.message (e : SyntaxError) : Text :=
  e.problem.message ++ ": '".toList ++ e.expression ++ "'".toList

/-! ## Records that do not fit -/

/-- What stands where a scalar, a number or a record was expected. -/
inductive ValueKind where
  | null
  | boolean
  | number
  | string
  | array
  | object
  deriving DecidableEq, Repr

/-- A value kind with its article. -/
def ValueKind.name : ValueKind → Text
  | .null => "null".toList
  | .boolean => "a boolean".toList
  | .number => "a number".toList
  | .string => "a string".toList
  | .array => "an array".toList
  | .object => "an object".toList

/-- Why a field has no usable value. -/
inductive FieldProblem where
  | missing
  | notAScalar (kind : ValueKind)
  | notNumeric (kind : ValueKind)
  | unreadableNumber (text : Text)
  deriving DecidableEq, Repr

/-- A field without a usable value. -/
structure FieldError where
  field : Text
  problem : FieldProblem
  deriving DecidableEq, Repr

/-- Wording of a field's problem. -/
def FieldProblem.message : FieldProblem → Text
  | .missing => "missing from record".toList
  | .notAScalar kind => "expected a scalar, got ".toList ++ kind.name
  | .notNumeric kind => "expected a number, got ".toList ++ kind.name
  | .unreadableNumber text => "'".toList ++ text ++ "' is not a number".toList

/-- The field's name, then its problem. -/
def FieldError.message (e : FieldError) : Text :=
  "field '".toList ++ e.field ++ "': ".toList ++ e.problem.message

/-- Why a text is no record. -/
inductive RecordError where
  | malformed
  | notAnObject (kind : ValueKind)
  deriving DecidableEq, Repr

/-- Wording of a record's error. -/
def RecordError.message : RecordError → Text
  | .malformed => "JSON error: malformed text".toList
  | .notAnObject kind => "invalid record: expected a JSON object, got ".toList ++ kind.name

/-! ## Settings that cannot be used -/

/-- Why a list of field names is no schema. -/
inductive SchemaError where
  | noFields
  | invalidName (name : Text)
  | numericNotAllowed (numeric : Text) (allowed : List Text)
  deriving DecidableEq, Repr

/-- Wording of a schema's error. -/
def SchemaError.message : SchemaError → Text
  | .noFields => "configuration error: fields.allowed is empty".toList
  | .invalidName name => "configuration error: invalid field name '".toList ++ name ++ "'".toList
  | .numericNotAllowed numeric allowed =>
      "configuration error: numeric field '".toList ++ numeric ++ "' is not one of ".toList
        ++ Text.listing allowed

/-- Why settings cannot be read. -/
inductive SettingsError where
  | malformed
  | schema (e : SchemaError)
  deriving DecidableEq, Repr

/-- Wording of the settings' error. -/
def SettingsError.message : SettingsError → Text
  | .malformed => "configuration error: malformed settings".toList
  | .schema e => e.message

/-! ## Steps that can fail -/

/-- A computation succeeds if its first step does and the rest does with what that step gave. -/
theorem bind_eq_ok_iff {ε α β : Type} {x : Except ε α} {f : α → Except ε β} {b : β} :
    (x >>= f) = .ok b ↔ ∃ a, x = .ok a ∧ f a = .ok b := by
  cases x with
  | error e =>
      refine ⟨fun h => ?_, fun h => ?_⟩
      · cases h
      · rcases h with ⟨a, ha, -⟩
        cases ha
  | ok a =>
      refine ⟨fun h => ⟨a, rfl, h⟩, fun h => ?_⟩
      rcases h with ⟨a', ha, hb⟩
      cases ha
      exact hb

/-- A computation fails if its first step does, or the rest with what that step gave. -/
theorem bind_eq_error_iff {ε α β : Type} {x : Except ε α} {f : α → Except ε β} {e : ε} :
    (x >>= f) = .error e ↔ x = .error e ∨ ∃ a, x = .ok a ∧ f a = .error e := by
  cases x with
  | error e' =>
      refine ⟨fun h => ?_, fun h => ?_⟩
      · cases h
        exact Or.inl rfl
      · rcases h with h | ⟨a, ha, -⟩
        · cases h
          rfl
        · cases ha
  | ok a =>
      refine ⟨fun h => Or.inr ⟨a, rfl, h⟩, fun h => ?_⟩
      rcases h with h | ⟨a', ha, he⟩
      · cases h
      · cases ha
        exact he

/-- Where the last step cannot fail, the one before it did. -/
theorem eq_error_of_bind_ok {ε α β : Type} {x : Except ε α} {k : α → β} {e : ε}
    (h : (x >>= fun a => .ok (k a)) = .error e) : x = .error e := by
  rcases bind_eq_error_iff.1 h with hx | ⟨a, -, hnone⟩
  · exact hx
  · cases hnone

/-- Of two steps whose results are put together one failed. -/
theorem eq_error_of_bind₂ {ε α β γ : Type} {x : Except ε α} {y : Except ε β} {k : α → β → γ} {e : ε}
    (h : (x >>= fun a => y >>= fun b => .ok (k a b)) = .error e) : x = .error e ∨ y = .error e := by
  rcases bind_eq_error_iff.1 h with hx | ⟨a, -, hrest⟩
  · exact Or.inl hx
  · exact Or.inr (eq_error_of_bind_ok hrest)

end RecordFilter
