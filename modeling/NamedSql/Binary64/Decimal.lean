import NamedSql.Binary64

/-!
# Reading decimal numbers

`Binary64.ofDecimal` rounds `digits * 10 ^ exponent` once, from its exact value. `Binary64.ofText?`
reads the usual spellings: a sign, digits with or without a point, an exponent, or one of the names
of infinity and NaN in any case.
-/

namespace NamedSql

namespace Decimal

def isDigit (c : Char) : Bool :=
  '0' ≤ c && c ≤ '9'

def digitValue (c : Char) : Nat :=
  c.toNat - '0'.toNat

/-- The number written by a row of digits. -/
def value (digits : List Char) : Nat :=
  digits.foldl (fun n c => 10 * n + digitValue c) 0

/-- A sign in front, if there is one: whether it is a minus, and what follows. -/
def takeSign : List Char → Bool × List Char
  | '-' :: s => (true, s)
  | '+' :: s => (false, s)
  | s => (false, s)

/-- A whole text as an integer: an optional sign and at least one digit. -/
def toInt? (s : List Char) : Option Int :=
  let (negative, digits) := takeSign s
  if digits.isEmpty || !digits.all isDigit then none
  else some (if negative then -(value digits : Int) else value digits)

end Decimal

namespace Binary64

open Decimal

/-- The number nearest to `digits * 10 ^ exponent`. A magnitude of `10 ^ 310` or more is infinite and
one below `10 ^ (-330)` is zero, so the powers formed stay small. -/
def ofDecimal (negative : Bool) (digits : Nat) (exponent : Int) : Binary64 :=
  if digits = 0 then zero negative
  else
    let size : Int := ((Nat.toDigits 10 digits).length : Int) + exponent
    if 310 < size then infinity negative
    else if size < -330 then zero negative
    else if 0 ≤ exponent then ofRatio negative (digits * tenTo exponent.toNat) 1
    else ofRatio negative digits (tenTo (-exponent).toNat)

/-- An exponent: nothing, or an `e` with an optional sign and at least one digit. -/
def exponent? : List Char → Option Int
  | [] => some 0
  | c :: s => if c == 'e' || c == 'E' then Decimal.toInt? s else none

/-- An unsigned number: digits, perhaps a point and more digits, with a digit on one side of it at
least, and an exponent. -/
def ofUnsigned? (negative : Bool) (s : List Char) : Option Binary64 :=
  let whole := s.takeWhile isDigit
  let rest := s.dropWhile isDigit
  let (part, rest) :=
    match rest with
    | '.' :: r => (r.takeWhile isDigit, r.dropWhile isDigit)
    | r => ([], r)
  if whole.isEmpty && part.isEmpty then none
  else (exponent? rest).map fun e =>
    ofDecimal negative (value (whole ++ part)) (e - (part.length : Int))

/-- The number that a whole text spells. -/
def ofText? (s : List Char) : Option Binary64 :=
  let (negative, body) := takeSign s
  let small := body.map Char.toLower
  if small == "inf".toList || small == "infinity".toList then some (infinity negative)
  else if small == "nan".toList then some (nan negative)
  else ofUnsigned? negative body

end Binary64

end NamedSql
