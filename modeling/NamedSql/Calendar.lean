/-!
# Dates, timestamps and instants

The proleptic Gregorian calendar between the years -262143 and 262142. A `Date` and a `Timestamp`
are valid by their types; a day number counts days from 1970-01-01, an `Instant` milliseconds.
-/

namespace NamedSql

namespace Calendar

def minYear : Int := -262143

def maxYear : Int := 262142

def isLeap (year : Int) : Bool :=
  year % 4 == 0 && (year % 100 != 0 || year % 400 == 0)

def daysInMonth (year : Int) (month : Nat) : Nat :=
  match month with
  | 2 => if isLeap year then 29 else 28
  | 4 | 6 | 9 | 11 => 30
  | _ => 31

/-- Days of a year in front of a month. -/
def daysBeforeMonth (year : Int) : Nat → Nat
  | 0 => 0
  | 1 => 0
  | month + 1 => daysBeforeMonth year month + daysInMonth year month

/-- Days from 0001-01-01 to the first day of a year. -/
def daysBeforeYear (year : Int) : Int :=
  365 * (year - 1) + (year - 1) / 4 - (year - 1) / 100 + (year - 1) / 400

/-- Days from 0001-01-01 to 1970-01-01. -/
def epochDays : Int := 719162

def ValidDate (year : Int) (month day : Nat) : Prop :=
  minYear ≤ year ∧ year ≤ maxYear ∧ 1 ≤ month ∧ month ≤ 12 ∧ 1 ≤ day ∧ day ≤ daysInMonth year month

instance (year : Int) (month day : Nat) : Decidable (ValidDate year month day) := by
  unfold ValidDate; infer_instance

/-- A leap second is a second with a nanosecond of a milliard or more; only the last second of a
minute has one. -/
def ValidTime (hour minute second nano : Nat) : Prop :=
  hour < 24 ∧ minute < 60 ∧ second < 60 ∧ nano < 2000000000 ∧ (1000000000 ≤ nano → second = 59)

instance (hour minute second nano : Nat) : Decidable (ValidTime hour minute second nano) := by
  unfold ValidTime; infer_instance

end Calendar

open Calendar

structure Date where
  year : Int
  month : Nat
  day : Nat
  valid : ValidDate year month day
deriving DecidableEq, Repr

structure Timestamp where
  date : Date
  hour : Nat
  minute : Nat
  second : Nat
  nano : Nat
  valid : ValidTime hour minute second nano
deriving DecidableEq, Repr

namespace Date

/-- The date with the given fields, if the calendar has it. -/
def ofFields? (year : Int) (month day : Nat) : Option Date :=
  if h : ValidDate year month day then some ⟨year, month, day, h⟩ else none

/-- Days from 1970-01-01. -/
def dayNumber (d : Date) : Int :=
  daysBeforeYear d.year + daysBeforeMonth d.year d.month + ((d.day : Int) - 1) - epochDays

/-- The year that holds the day `n`, counted from 0001-01-01: the mean length of a year gives a guess
that is at most one off. -/
def yearOfDay (n : Int) : Int :=
  let guess := n * 400 / 146097 + 1
  if n < daysBeforeYear guess then guess - 1
  else if daysBeforeYear (guess + 1) ≤ n then guess + 1
  else guess

/-- The month, among `month` and the `left` ones after it, that holds the day `n` of the year,
counted from 0, and the day of this month. -/
def monthOfDay (year : Int) (n : Nat) : (left month : Nat) → Nat × Nat
  | 0, month => (month, n - daysBeforeMonth year month + 1)
  | left + 1, month =>
    if n < daysBeforeMonth year (month + 1) then (month, n - daysBeforeMonth year month + 1)
    else monthOfDay year n left (month + 1)

/-- The date of a day number, if the calendar has it. -/
def ofDayNumber? (n : Int) : Option Date :=
  let n := n + epochDays
  let year := yearOfDay n
  let (month, day) := monthOfDay year (n - daysBeforeYear year).toNat 11 1
  ofFields? year month day

end Date

namespace Timestamp

def ofFields? (date : Date) (hour minute second nano : Nat) : Option Timestamp :=
  if h : ValidTime hour minute second nano then some ⟨date, hour, minute, second, nano, h⟩ else none

/-- The first moment of a date. -/
def midnight (d : Date) : Timestamp :=
  ⟨d, 0, 0, 0, 0, by decide⟩

/-- Milliseconds from the start of 1970, the finer part cut off. A leap second counts on from the
second before it. -/
def toMillis (t : Timestamp) : Int :=
  ((t.date.dayNumber * 24 + t.hour) * 60 + t.minute) * 60000 + t.second * 1000
    + (t.nano / 1000000 : Nat)

/-- The timestamp of a number of milliseconds, if the calendar has it. -/
def ofMillis? (n : Int) : Option Timestamp :=
  (Date.ofDayNumber? (n / 86400000)).bind fun date =>
    let m := (n % 86400000).toNat
    ofFields? date (m / 3600000) (m / 60000 % 60) (m / 1000 % 60) (m % 1000 * 1000000)

end Timestamp

/-- A point in time in milliseconds from the start of 1970. -/
structure Instant where
  millis : Int
deriving DecidableEq, Repr

namespace Instant

def epoch : Instant := ⟨0⟩

/-- The first and the last instant of the calendar. -/
def first : Instant := ⟨-8334601228800000⟩

def last : Instant := ⟨8210266876799999⟩

/-- A later or earlier instant, if the calendar has it. -/
def add? (t : Instant) (millis : Int) : Option Instant :=
  let n := t.millis + millis
  if first.millis ≤ n ∧ n ≤ last.millis then some ⟨n⟩ else none

/-- Milliseconds from `u` to `t`. -/
def since (t u : Instant) : Int :=
  t.millis - u.millis

end Instant

/-- The longest span of time, in milliseconds. -/
def maxSpan : Int := 9223372036854775807

/-- A span of seconds in milliseconds, if it is not too long. -/
def spanOfSeconds? (seconds : Int) : Option Int :=
  if seconds ≤ maxSpan / 1000 then some (seconds * 1000) else none

end NamedSql
