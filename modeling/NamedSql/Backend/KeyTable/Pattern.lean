import NamedSql.Like
import NamedSql.Text.Utf8
import NamedSql.Value

/-!
# Patterns on stored values

A LIKE pattern sees every value but NULL as a text. `storedText?` is that text: numbers are written
out, bytes are read as characters, and everything ends at a character of code zero.
-/

namespace NamedSql

namespace Binary64

/-- The decimal of `count` digits nearest to a finite number other than zero, without its sign; a half
goes up. Zeros at the end are left out. -/
def rounded (x : Binary64) (count : Nat) : Decimal.Form :=
  let i := x.interval
  let point := decimalPoint i.mid i.den
  let shift : Int := point - (count : Int)
  let unit := i.den * tenTo shift.toNat
  let digits := Nat.toDigits 10 ((2 * i.mid * tenTo (-shift).toNat + unit) / (2 * unit))
  ⟨dropEndZeros digits, point + ((digits.length : Int) - (count : Int))⟩

/-- Digits behind a point, one at least. -/
def pointed (whole part : List Char) : List Char :=
  whole ++ '.' :: (if part.isEmpty then ['0'] else part)

/-- An exponent with its sign and two digits at least. -/
def signedExponent (e : Int) : List Char :=
  let digits := Nat.toDigits 10 e.natAbs
  'e' :: (if e < 0 then '-' else '+') :: List.replicate (2 - digits.length) '0' ++ digits

/-- The text of a number with fifteen digits at most, which always has a point. -/
def stored (x : Binary64) : List Char :=
  let sign := if x.isNegative && !x.isZero then ['-'] else []
  sign ++
    (if x.isInfinite then "Inf".toList
    else if x.isZero then "0.0".toList
    else
      let f := x.rounded 15
      let e := f.point - 1
      if e < -4 ∨ 14 < e then pointed (f.digits.take 1) (f.digits.drop 1) ++ signedExponent e
      else pointed (positional f).1 (positional f).2)

end Binary64

namespace KeyTable

/-- The characters of a text up to the first one of code zero. -/
def visiblePart (bytes : List UInt8) : List Char :=
  (Text.readUtf8 bytes).takeWhile (· != '\x00')

/-- What a pattern sees of a stored value. -/
def storedText? : Value → Option (List Char)
  | .integer n => some (toString n.toInt).toList
  | .float x => some x.stored
  | .text s => some (visiblePart (Text.utf8Bytes s))
  | .blob bytes => some (visiblePart bytes)
  | _ => none

/-- The number of bytes that a pattern may have. -/
def longestPattern : Nat :=
  50000

/-- Whether a value is too long for a pattern. -/
def isTooLong : Value → Bool
  | .text s => longestPattern < s.utf8ByteSize
  | .blob bytes => longestPattern < bytes.length
  | _ => false

/-- Whether a value matches a pattern, in capital or in small letters. The escape character is read as
the pattern is. -/
def matchesLike (escape : Option Char) (pattern v : Value) : Bool :=
  match storedText? pattern, storedText? v with
  | some p, some s =>
    Like.isMatch (fun c d => c.toLower == d.toLower) (escape.map Text.readChar) p s
  | _, _ => false

end KeyTable

end NamedSql
