import NamedSql.Binary64

/-!
# The shortest decimal that reads back

The numbers that round to a given one fill an interval around it. Among the decimals in this interval
those with the fewest digits are taken, and of these the one nearest to the number. What is open
after that is a choice of the format that is written: which way a tie goes, and how the digits and
the exponent are laid out.
-/

namespace NamedSql

/-- A decimal number `0.d₁d₂… * 10 ^ point`. -/
structure Decimal.Form where
  digits : List Char
  point : Int
deriving DecidableEq, Repr

namespace Binary64

/-- Which of two equally near decimals is written. -/
inductive Tie where
  | up
  | toEven
deriving DecidableEq, Repr

/-- The interval of a number over a common denominator: the number is `mid / den`, and everything
strictly between `low / den` and `high / den` rounds to it, and the ends too when `closed`. -/
structure Interval where
  low : Nat
  mid : Nat
  high : Nat
  den : Nat
  closed : Bool
deriving DecidableEq, Repr

/-- Half a unit on both sides, but a quarter below a power of two. -/
def interval (x : Binary64) : Interval :=
  let m := x.significand
  let unit := twoTo x.power
  let below := if m = twoTo 52 ∧ 1 < x.exponentField then 1 else 2
  ⟨(4 * m - below) * unit, 4 * m * unit, (4 * m + 2) * unit, twoTo 1076, m % 2 == 0⟩

/-- Whether `num / den` lies in the interval. -/
def Interval.holds (i : Interval) (num den : Nat) : Bool :=
  let n := num * i.den
  if i.closed then i.low * den ≤ n && n ≤ i.high * den
  else i.low * den < n && n < i.high * den

/-- The least `e` in a range of exponents with `num / den < 10 ^ e`, for `num` positive: the guess
from the binary sizes is at most one off. -/
def decimalPoint (num den : Nat) : Int :=
  let guess : Int := ((num.log2 : Int) - (den.log2 : Int)) * 30103 / 100000 - 1
  let below (e : Int) : Bool :=
    if 0 ≤ e then num < den * tenTo e.toNat else num * tenTo (-e).toNat < den
  if below guess then guess
  else if below (guess + 1) then guess + 1
  else if below (guess + 2) then guess + 2
  else guess + 3

/-- The neighbours of the number on the grid of `count` digits: `k` and `k + 1` units of
`scaleNum / scaleDen`, of which those in the interval count, the nearer first. -/
def onGrid? (i : Interval) (tie : Tie) (point : Int) (count : Nat) : Option Nat :=
  let shift : Int := point - (count : Int)
  let up := tenTo shift.toNat
  let down := tenTo (-shift).toNat
  let k := i.mid * down / (i.den * up)
  let r := i.mid * down % (i.den * up)
  let lowHit := i.holds (k * up) down
  let highHit := i.holds ((k + 1) * up) down
  let lowNearer : Bool :=
    if 2 * r < i.den * up then true
    else if i.den * up < 2 * r then false
    else match tie with
      | .up => false
      | .toEven => k % 2 == 0
  if lowHit && (!highHit || lowNearer) then some k
  else if highHit then some (k + 1)
  else none

/-- The first grid with a decimal in the interval; seventeen digits always have one. -/
def firstHit (i : Interval) (tie : Tie) (point : Int) : (tries count : Nat) → Nat × Nat
  | 0, count => (i.mid, count)
  | tries + 1, count =>
    match onGrid? i tie point count with
    | some n => (n, count)
    | none => firstHit i tie point tries (count + 1)

/-- Digits without the zeros at their end. -/
def dropEndZeros (digits : List Char) : List Char :=
  (digits.reverse.dropWhile (· == '0')).reverse

/-- The shortest decimal of a finite number other than zero, without its sign. -/
def shortest (x : Binary64) (tie : Tie) : Decimal.Form :=
  let i := x.interval
  let point := decimalPoint i.mid i.den
  let (n, count) := firstHit i tie point 17 1
  let digits := Nat.toDigits 10 n
  ⟨dropEndZeros digits, point + ((digits.length : Int) - (count : Int))⟩

/-- The digits of a form with the point among them: the whole part, `0` at least, and the rest. -/
def positional (f : Decimal.Form) : List Char × List Char :=
  if f.point ≤ 0 then (['0'], List.replicate (-f.point).toNat '0' ++ f.digits)
  else
    let n := f.point.toNat
    (f.digits.take n ++ List.replicate (n - f.digits.length) '0', f.digits.drop n)

/-- The plain text of a number: never an exponent, and a point only before digits. -/
def render (x : Binary64) : List Char :=
  let sign := if x.isNegative then ['-'] else []
  if x.isNaN then "NaN".toList
  else if x.isInfinite then sign ++ "inf".toList
  else if x.isZero then sign ++ ['0']
  else
    let (whole, part) := positional (x.shortest .up)
    sign ++ whole ++ (if part.isEmpty then [] else '.' :: part)

end Binary64

end NamedSql
