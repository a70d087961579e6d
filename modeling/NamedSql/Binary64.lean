import NamedSql.Power

/-!
# Binary floating point numbers of 64 bits

A number is its bit pattern. The pattern is read as an exact fraction, and a fraction is rounded to
the nearest pattern, both in natural numbers, so that nothing here depends on machine arithmetic.
-/

namespace NamedSql

/-- A floating point number, given by its 64 bits. Two numbers are equal when their bits are. -/
structure Binary64 where
  bits : UInt64
deriving DecidableEq, Repr

namespace Binary64

def isNegative (x : Binary64) : Bool :=
  twoTo 63 ≤ x.bits.toNat

/-- The eleven bits of the exponent. -/
def exponentField (x : Binary64) : Nat :=
  x.bits.toNat / twoTo 52 % twoTo 11

/-- The fifty-two bits behind the leading one. -/
def fractionField (x : Binary64) : Nat :=
  x.bits.toNat % twoTo 52

def isNaN (x : Binary64) : Bool :=
  x.exponentField == 2047 && x.fractionField != 0

def isInfinite (x : Binary64) : Bool :=
  x.exponentField == 2047 && x.fractionField == 0

def isFinite (x : Binary64) : Bool :=
  x.exponentField != 2047

/-- A finite number has the magnitude `significand * 2 ^ power / 2 ^ 1074`. -/
def significand (x : Binary64) : Nat :=
  if x.exponentField = 0 then x.fractionField else twoTo 52 + x.fractionField

def power (x : Binary64) : Nat :=
  x.exponentField - 1

/-- Both zeros. -/
def isZero (x : Binary64) : Bool :=
  x.exponentField == 0 && x.fractionField == 0

/-- The number with the magnitude pattern `magnitude` and the given sign. -/
def ofMagnitude (negative : Bool) (magnitude : Nat) : Binary64 :=
  ⟨UInt64.ofNat (if negative then twoTo 63 + magnitude else magnitude)⟩

/-- The magnitude pattern of infinity; finite magnitudes lie below it. -/
def infinityMagnitude : Nat :=
  2047 * twoTo 52

def zero (negative : Bool) : Binary64 :=
  ofMagnitude negative 0

def infinity (negative : Bool) : Binary64 :=
  ofMagnitude negative infinityMagnitude

def nan (negative : Bool) : Binary64 :=
  ofMagnitude negative (infinityMagnitude + twoTo 51)

/-- `num / den` to the nearest integer, a half to the even neighbour. -/
def roundDiv (num den : Nat) : Nat :=
  let q := num / den
  let r := num % den
  if 2 * r < den then q
  else if den < 2 * r then q + 1
  else q + q % 2

/-- The power with which a magnitude `n / 2 ^ 1074` keeps fifty-three bits. -/
def powerFor (n : Nat) : Nat :=
  n.log2 - 52

/-- The magnitude pattern nearest to `num / den`, a half to the even neighbour. With a power `p` and
a rounded significand `m` the pattern is `p * 2 ^ 52 + m` in all cases: below the normal numbers,
among them, and where rounding carries into the next power. -/
def roundMagnitude (num den : Nat) : Nat :=
  let scaled := num * twoTo 1074
  let p := powerFor (scaled / den)
  min (p * twoTo 52 + roundDiv scaled (den * twoTo p)) infinityMagnitude

/-- The number nearest to `num / den`, infinite beyond the range. -/
def ofRatio (negative : Bool) (num den : Nat) : Binary64 :=
  ofMagnitude negative (roundMagnitude num den)

/-- The number nearest to an integer. -/
def ofInt (n : Int) : Binary64 :=
  ofRatio (n < 0) n.natAbs 1

/-- The magnitude of a finite number over `2 ^ 1074`. -/
def scaledMagnitude (x : Binary64) : Nat :=
  x.significand * twoTo x.power

/-- The product of two finite magnitudes, rounded once. -/
def mulMagnitude (x y : Binary64) : Binary64 :=
  ofRatio false (x.scaledMagnitude * y.scaledMagnitude) (twoTo 2148)

/-- The quotient of two finite magnitudes, rounded once. -/
def divMagnitude (x y : Binary64) : Binary64 :=
  ofRatio false x.scaledMagnitude y.scaledMagnitude

/-- The same number with the other sign. -/
def neg (x : Binary64) : Binary64 :=
  ⟨x.bits ^^^ 0x8000000000000000⟩

/-- The exact value of a finite number, if it is an integer. -/
def toInt? (x : Binary64) : Option Int :=
  let scaled := x.scaledMagnitude
  if x.isFinite && scaled % twoTo 1074 == 0 then
    let n : Int := (scaled / twoTo 1074 : Nat)
    some (if x.isNegative then -n else n)
  else
    none

/-- Equality of values: the zeros are equal, and nothing equals a NaN. -/
def sameValue (x y : Binary64) : Bool :=
  !x.isNaN && !y.isNaN && (x.bits == y.bits || (x.isZero && y.isZero))

end Binary64

end NamedSql
