import NamedSql.Binary64.Decimal
import NamedSql.Calendar
import NamedSql.Text.Blank

/-!
# Written dates and timestamps

A date is written `2024-03-01` and a timestamp `2024-03-01 12:30:00.250`; years outside 0 to 9999
have a sign. Reading is laxer than writing: numbers may be short and may follow white space, and a
`T` may stand between date and time.
-/

namespace NamedSql

namespace Calendar

open Decimal Text

/-- The digits of `n`, with zeros in front up to `width` of them. -/
def padded (width n : Nat) : List Char :=
  let digits := Nat.toDigits 10 n
  List.replicate (width - digits.length) '0' ++ digits

def renderYear (year : Int) : List Char :=
  let digits := padded 4 year.natAbs
  if year < 0 then '-' :: digits
  else if 9999 < year then '+' :: digits
  else digits

/-- A fraction of a second to the thousand-fold that is exact, and nothing for none. -/
def renderFraction (nano : Nat) : List Char :=
  if nano = 0 then []
  else if nano % 1000000 = 0 then '.' :: padded 3 (nano / 1000000)
  else if nano % 1000 = 0 then '.' :: padded 6 (nano / 1000)
  else '.' :: padded 9 nano

/-- A number of one to `most` digits after optional white space. -/
def number? (most : Nat) (s : List Char) : Option (Nat × List Char) :=
  let s := trimStart s
  let digits := (s.take most).takeWhile isDigit
  if digits.isEmpty then none else some (value digits, s.drop digits.length)

/-- A year after optional white space: up to four digits, or a sign and any number of them. -/
def year? (s : List Char) : Option (Int × List Char) :=
  match trimStart s with
  | '-' :: r => signed? r |>.map fun (n, r) => (-(n : Int), r)
  | '+' :: r => signed? r |>.map fun (n, r) => ((n : Int), r)
  | r => number? 4 r |>.map fun (n, r) => ((n : Int), r)
where
  signed? (r : List Char) : Option (Nat × List Char) :=
    let digits := r.takeWhile isDigit
    if digits.isEmpty then none else some (value digits, r.dropWhile isDigit)

/-- The rest of a text after one given character. -/
def after? (c : Char) : List Char → Option (List Char)
  | [] => none
  | d :: s => if d = c then some s else none

/-- A fraction of a second in nanoseconds, digits after the ninth being dropped; none is zero. -/
def fraction? : List Char → Option (Nat × List Char)
  | '.' :: s =>
    let digits := s.takeWhile isDigit
    if digits.isEmpty then none
    else
      let kept := digits.take 9
      some (value kept * tenTo (9 - kept.length), s.dropWhile isDigit)
  | s => some (0, s)

/-- A date at the front of a text. -/
def date? (s : List Char) : Option (Date × List Char) := do
  let (year, s) ← year? s
  let s ← after? '-' s
  let (month, s) ← number? 2 s
  let s ← after? '-' s
  let (day, s) ← number? 2 s
  let date ← Date.ofFields? year month day
  pure (date, s)

/-- A time of day at the front of a text, as a timestamp of the given date. The second 60 is the leap
second of the second 59. -/
def time? (date : Date) (s : List Char) : Option (Timestamp × List Char) := do
  let (hour, s) ← number? 2 s
  let s ← after? ':' s
  let (minute, s) ← number? 2 s
  let s ← after? ':' s
  let (second, s) ← number? 2 s
  let (nano, s) ← fraction? s
  let time ←
    if second = 60 then Timestamp.ofFields? date hour minute 59 (1000000000 + nano)
    else Timestamp.ofFields? date hour minute second nano
  pure (time, s)

end Calendar

open Calendar

namespace Date

def render (d : Date) : List Char :=
  renderYear d.year ++ '-' :: padded 2 d.month ++ '-' :: padded 2 d.day

/-- The date that a whole text writes. -/
def ofText? (s : List Char) : Option Date :=
  match date? s with
  | some (d, []) => some d
  | _ => none

end Date

namespace Timestamp

def render (t : Timestamp) : List Char :=
  let leap := t.nano / 1000000000
  t.date.render ++ ' ' :: padded 2 t.hour ++ ':' :: padded 2 t.minute
    ++ ':' :: padded 2 (t.second + leap) ++ renderFraction (t.nano % 1000000000)

/-- The timestamp that a whole text writes, with what `between` takes off between date and time. -/
def readWith? (between : List Char → Option (List Char)) (s : List Char) : Option Timestamp := do
  let (date, s) ← date? s
  let s ← between s
  match ← time? date s with
  | (t, []) => some t
  | _ => none

/-- The timestamp that a whole text writes: white space, perhaps none, or a `T` stands between date
and time. -/
def ofText? (s : List Char) : Option Timestamp :=
  readWith? (some <| Text.trimStart ·) s <|> readWith? (after? 'T') s

end Timestamp

end NamedSql
