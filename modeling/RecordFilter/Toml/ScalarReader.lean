import RecordFilter.Number.Reading
import RecordFilter.Text.Hex
import RecordFilter.Toml.Value

/-!
# ScalarReader — numbers, dates and words

Underscores may stand between two digits of a number.  An integer fits in 64 bits with a sign; it
is written in base ten without leading zeros, or without a sign in base 16, 8 or 2.  A float has a
fraction, an exponent or both.  Dates and times are checked and dropped.
-/

namespace RecordFilter
namespace Toml

/-! ## Digits -/

/-- Digits, with underscores between digits, at the front of a text.  `afterDigit` says that a
digit stands before it.  Gives the digits and what follows them. -/
def digitsFrom (isDigit : Char → Bool) (afterDigit : Bool) : Text → Text × Text
  | [] => ([], [])
  | [c] => if isDigit c then ([c], []) else ([], [c])
  | c :: d :: rest =>
      if isDigit c then
        let (ds, r) := digitsFrom isDigit true (d :: rest)
        (c :: ds, r)
      else if afterDigit && c == '_' && isDigit d then digitsFrom isDigit false (d :: rest)
      else ([], c :: d :: rest)

/-- One or more digits. -/
def digits? (isDigit : Char → Bool) (s : Text) : Option (Text × Text) :=
  let (ds, rest) := digitsFrom isDigit false s
  if ds.isEmpty then none else some (ds, rest)

/-- An optional sign, which is kept. -/
def sign (s : Text) : Text × Text :=
  match s with
  | '+' :: rest => (['+'], rest)
  | '-' :: rest => (['-'], rest)
  | _ => ([], s)

/-- Digits in base ten without leading zeros. -/
def plainDigits? (s : Text) : Option (Text × Text) :=
  match s with
  | '0' :: rest => some (['0'], rest)
  | _ => digits? Char.isDigit s

/-! ## Integers -/

/-- An integer within the range of 64 bits. -/
def fitting? (n : Int) : Option Int :=
  if -(Nat.pow 2 63 : Int) ≤ n && n < (Nat.pow 2 63 : Int) then some n else none

/-- The value of digits in a base up to sixteen. -/
def valueInBase (base : Nat) (digits : Text) : Nat :=
  digits.foldl (fun n c => base * n + (Text.hexDigit? c).getD 0) 0

/-- An integer in a base other than ten, behind its mark. -/
def basedInteger? (base : Nat) (isDigit : Char → Bool) (s : Text) : Option (Int × Text) := do
  let (ds, rest) ← digits? isDigit s
  let n ← fitting? (valueInBase base ds)
  pure (n, rest)

/-- An integer in base ten. -/
def decimalInteger? (s : Text) : Option (Int × Text) := do
  let (mark, body) := sign s
  let (ds, rest) ← plainDigits? body
  let magnitude : Int := valueInBase 10 ds
  let n ← fitting? (if mark == ['-'] then -magnitude else magnitude)
  pure (n, rest)

/-- An integer. -/
def integer? (s : Text) : Option (Int × Text) :=
  match s with
  | '0' :: 'x' :: rest => basedInteger? 16 (fun c => (Text.hexDigit? c).isSome) rest
  | '0' :: 'o' :: rest => basedInteger? 8 (fun c => '0' ≤ c && c ≤ '7') rest
  | '0' :: 'b' :: rest => basedInteger? 2 (fun c => c == '0' || c == '1') rest
  | _ => decimalInteger? s

/-! ## Floats -/

/-- A point and digits, which are kept. -/
def fraction? (s : Text) : Option (Text × Text) :=
  match s with
  | '.' :: rest => (digits? Char.isDigit rest).map fun (ds, r) => ('.' :: ds, r)
  | _ => none

/-- An exponent, which is kept. -/
def exponent? (s : Text) : Option (Text × Text) :=
  match s with
  | c :: rest =>
      if c = 'e' || c = 'E' then
        let (mark, body) := sign rest
        (digits? Char.isDigit body).map fun (ds, r) => ('e' :: mark ++ ds, r)
      else none
  | [] => none

/-- What stands behind the whole part of a float. -/
def floatTail? (s : Text) : Option (Text × Text) :=
  match fraction? s with
  | some (fraction, rest) =>
      match exponent? rest with
      | some (exponent, rest) => some (fraction ++ exponent, rest)
      | none => some (fraction, rest)
  | none => exponent? s

/-- A float in base ten.  One too large is refused. -/
def decimalFloat? (s : Text) : Option (Float × Text) := do
  let (mark, body) := sign s
  let (whole, rest) ← plainDigits? body
  let (tail, rest) ← floatTail? rest
  let x ← Number.read? (mark ++ whole ++ tail)
  if x.isInf && 0 < x then none else pure (x, rest)

/-- A float that is a word. -/
def wordFloat? (s : Text) : Option (Float × Text) := do
  let (mark, body) := sign s
  if ['i', 'n', 'f'].isPrefixOf body || ['n', 'a', 'n'].isPrefixOf body then
    let x ← Number.read? (mark ++ body.take 3)
    pure (x, body.drop 3)
  else none

/-! ## Dates and times -/

/-- A number of exactly `width` digits. -/
def fixedDigits? (width : Nat) (s : Text) : Option (Nat × Text) :=
  let ds := s.take width
  if ds.length = width && ds.all Char.isDigit then
    some (Number.digitsValue ds, s.drop width)
  else none

/-- What follows a given character at the front. -/
def afterChar? (c : Char) (s : Text) : Option Text :=
  match s with
  | d :: rest => if d = c then some rest else none
  | [] => none

/-- The number of days in a month. -/
def daysIn (year month : Nat) : Nat :=
  if month = 2 then
    if (year % 4 = 0 && year % 100 ≠ 0) || year % 400 = 0 then 29 else 28
  else if month = 4 || month = 6 || month = 9 || month = 11 then 30
  else 31

/-- What follows a date. -/
def date? (s : Text) : Option Text := do
  let (year, s) ← fixedDigits? 4 s
  let (month, s) ← fixedDigits? 2 (← afterChar? '-' s)
  let (day, s) ← fixedDigits? 2 (← afterChar? '-' s)
  if 1 ≤ month && month ≤ 12 && 1 ≤ day && day ≤ daysIn year month then some s else none

/-- What follows an hour and a minute. -/
def hourMinute? (s : Text) : Option Text := do
  let (hour, s) ← fixedDigits? 2 s
  let (minute, s) ← fixedDigits? 2 (← afterChar? ':' s)
  if hour ≤ 23 && minute ≤ 59 then some s else none

/-- What follows a time of day. -/
def time? (s : Text) : Option Text := do
  let (second, s) ← fixedDigits? 2 (← afterChar? ':' (← hourMinute? s))
  if second ≤ 60 then
    match s with
    | '.' :: rest =>
        if (rest.takeWhile Char.isDigit).isEmpty then none else some (rest.dropWhile Char.isDigit)
    | _ => some s
  else none

/-- What follows an optional offset from universal time. -/
def afterOffset (s : Text) : Text :=
  match s with
  | c :: rest =>
      if c = 'Z' || c = 'z' then rest
      else if c = '+' || c = '-' then (hourMinute? rest).getD s
      else s
  | [] => []

/-- What follows an optional time of day behind a date. -/
def afterDayTime (s : Text) : Text :=
  match s with
  | c :: rest =>
      if c = 'T' || c = 't' || c = ' ' then ((time? rest).map afterOffset).getD s else s
  | [] => []

/-- What follows a date, a time of day, or both. -/
def moment? (s : Text) : Option Text :=
  match date? s with
  | some rest => some (afterDayTime rest)
  | none => time? s

/-! ## All of them -/

/-- A truth value. -/
def boolean? (s : Text) : Option (Bool × Text) :=
  if ['t', 'r', 'u', 'e'].isPrefixOf s then some (true, s.drop 4)
  else if ['f', 'a', 'l', 's', 'e'].isPrefixOf s then some (false, s.drop 5)
  else none

/-- A number, a date, a time or a truth value, and the rest of the text. -/
def scalar? (s : Text) : Option (Value × Text) :=
  (boolean? s).map (fun (b, r) => (.boolean b, r))
    <|> (moment? s).map (fun r => (.moment, r))
    <|> (decimalFloat? s).map (fun (x, r) => (.real x, r))
    <|> (wordFloat? s).map (fun (x, r) => (.real x, r))
    <|> (integer? s).map (fun (n, r) => (.integer n, r))

end Toml
end RecordFilter
