import RecordFilter.Text.Order
import RecordFilter.Number.Notation
import RecordFilter.Failure

/-!
# Json — values

A value is null, a boolean, a number, a string, an array or an object.  An object lists its members
in increasing order of their keys, each key once; `Members.insert` keeps that order.
-/

namespace RecordFilter
namespace Json

/-- A number is an integer of at most 64 bits or a float. -/
inductive Number where
  | integer (n : Int)
  | real (x : Float)
  deriving DecidableEq, Repr

namespace Number

/-- Base ten for integers, the shortest digits for floats. -/
def text : Number → Text
  | .integer n => RecordFilter.Number.intText n
  | .real x => RecordFilter.Number.floatText x

/-- The nearest float. -/
def toFloat : Number → Float
  | .integer n => Float.ofInt n
  | .real x => x

end Number

/-- A value. -/
inductive Value where
  | null
  | boolean (b : Bool)
  | number (n : Number)
  | string (s : Text)
  | array (items : List Value)
  | object (members : List (Text × Value))
  deriving Repr

namespace Value

/-- The kind of a value. -/
def kind : Value → ValueKind
  | .null => .null
  | .boolean _ => .boolean
  | .number _ => .number
  | .string _ => .string
  | .array _ => .array
  | .object _ => .object

/-- The words for truth and falsehood. -/
def booleanText (b : Bool) : Text := if b then "true".toList else "false".toList

/-- The text of a string, number or boolean; nothing for other values. -/
def scalarText? : Value → Option Text
  | .string s => some s
  | .number n => some n.text
  | .boolean b => some (booleanText b)
  | _ => none

end Value

/-! ## Members of an object -/

/-- Members in increasing order of their keys. -/
abbrev Members := List (Text × Value)

namespace Members

/-- The value of a key. -/
def get? (key : Text) : Members → Option Value
  | [] => none
  | (k, v) :: rest => if k = key then some v else get? key rest

/-- Puts a value at its place, where it replaces the value of an equal key. -/
def insert (key : Text) (value : Value) : Members → Members
  | [] => [(key, value)]
  | (k, v) :: rest =>
      match Text.order key k with
      | .lt => (key, value) :: (k, v) :: rest
      | .eq => (key, value) :: rest
      | .gt => (k, v) :: insert key value rest

theorem get?_insert_self (key : Text) (value : Value) (ms : Members) :
    get? key (insert key value ms) = some value := by
  induction ms with
  | nil => simp [insert, get?]
  | cons m rest ih =>
      obtain ⟨k, v⟩ := m
      cases h : Text.order key k with
      | lt => simp [insert, h, get?]
      | eq => simp [insert, h, get?]
      | gt =>
          have : k ≠ key := by
            intro hk
            rw [hk, Text.order_self] at h
            cases h
          simp [insert, h, get?, this, ih]

theorem get?_insert_of_ne {key other : Text} (h : other ≠ key) (value : Value) (ms : Members) :
    get? other (insert key value ms) = get? other ms := by
  induction ms with
  | nil => simp [insert, get?, Ne.symm h]
  | cons m rest ih =>
      obtain ⟨k, v⟩ := m
      cases ho : Text.order key k with
      | lt => simp [insert, ho, get?, Ne.symm h]
      | eq =>
          have := Text.eq_of_order ho
          subst this
          simp [insert, ho, get?, Ne.symm h]
      | gt => simp [insert, ho, get?, ih]

end Members

end Json
end RecordFilter
