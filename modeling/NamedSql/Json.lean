import NamedSql.Binary64.Shortest
import NamedSql.Json.Spelling

/-!
# JSON documents

A document keeps integers of 64 bits as integers and any other number as a floating point number;
the members of an object stand in the order of their keys, each key once. `Json.ofText?` gives the
document that a text spells and `Json.render` writes one.
-/

namespace NamedSql

inductive Json where
  | null
  | boolean (b : Bool)
  | integer (n : Int)
  | float (x : Binary64)
  | string (s : String)
  | array (items : List Json)
  | object (members : List (String × Json))
deriving Repr

namespace Json

/-! ### Numbers -/

/-- Appends digits to a number of 64 bits while it stays one; gives the digits left over. -/
def gather (n : Nat) : List Char → Nat × List Char
  | [] => (n, [])
  | c :: s =>
    let n' := 10 * n + Decimal.digitValue c
    if n' < twoTo 64 then gather n' s else (n, c :: s)

/-- A power of ten as a floating point number, for exponents up to 308. -/
def powerOfTen (e : Nat) : Binary64 :=
  Binary64.ofDecimal false 1 e

/-- `x * 10 ^ exponent` by one multiplication or division with a power of ten up to `10 ^ 308`, after
divisions by `10 ^ 308` as long as the exponent is below -308. None beyond the range. Three divisions
bring every number of 64 bits to zero. -/
def scale? : (divisions : Nat) → Binary64 → (exponent : Int) → Option Binary64
  | divisions, x, exponent =>
    if exponent.natAbs ≤ 308 then
      if 0 ≤ exponent then
        let y := x.mulMagnitude (powerOfTen exponent.natAbs)
        if y.isInfinite then none else some y
      else
        some (x.divMagnitude (powerOfTen exponent.natAbs))
    else if x.isZero then some x
    else if 0 ≤ exponent then none
    else
      match divisions with
      | 0 => some (Binary64.zero false)
      | divisions + 1 => scale? divisions (x.divMagnitude (powerOfTen 308)) (exponent + 308)

/-- A floating point number with a significand of 64 bits. -/
def float? (negative : Bool) (significand : Nat) (exponent : Int) : Option Json :=
  (scale? 3 (Binary64.ofInt significand) exponent).map fun x =>
    .float (if negative then x.neg else x)

/-- The number that a numeral spells. An integer that 64 bits can hold is exact, though zero with a
minus is not an integer. Otherwise the digits that do not fit into 64 bits are dropped, and those
before the point raise the exponent instead. -/
def ofNumeral? (n : Numeral) : Option Json :=
  let (whole, wholeLeft) := gather 0 n.whole
  match n.part, n.exponent with
  | none, none =>
    if !wholeLeft.isEmpty then float? n.negative whole wholeLeft.length
    else if !n.negative then some (.integer whole)
    else if 0 < whole && whole ≤ twoTo 63 then some (.integer (-(whole : Int)))
    else float? true whole 0
  | part, exponent =>
    let digits := part.getD []
    let (significand, left) := gather whole digits
    let taken := digits.length - left.length
    float? n.negative significand ((wholeLeft.length : Int) - taken + exponent.getD 0)

/-! ### Strings -/

/-- The text of a string's elements; code units above the characters must come in pairs. -/
def joinParts? : List StringPart → Option (List Char)
  | [] => some []
  | .char c :: s => (joinParts? s).map (c :: ·)
  | .unit n :: s =>
    if n < 0xD800 || 0xE000 ≤ n then (joinParts? s).map (Char.ofNat n :: ·)
    else
      match s with
      | .unit m :: s =>
        if n < 0xDC00 && 0xDC00 ≤ m && m < 0xE000 then
          (joinParts? s).map (Char.ofNat (0x10000 + (n - 0xD800) * 0x400 + (m - 0xDC00)) :: ·)
        else none
      | _ => none

/-- Puts a member into its place among members ordered by key, in place of one with the same key. -/
def putMember (key : String) (v : Json) : List (String × Json) → List (String × Json)
  | [] => [(key, v)]
  | (k, w) :: rest =>
    if key = k then (key, v) :: rest
    else if key < k then (key, v) :: (k, w) :: rest
    else (k, w) :: putMember key v rest

/-! ### Reading -/

/-- Arrays and objects may be nested this deep. -/
def maxDepth : Nat := 127

mutual

/-- The document of a spelling that is nested at most `depth` deep. -/
def ofSpelling? (depth : Nat) : Spelling → Option Json
  | .null => some .null
  | .boolean b => some (.boolean b)
  | .number n => ofNumeral? n
  | .string s => (joinParts? s).map fun s => .string (String.ofList s)
  | .array items =>
    match depth with
    | 0 => none
    | depth + 1 => (itemsOf? depth items).map .array
  | .object members =>
    match depth with
    | 0 => none
    | depth + 1 => (membersOf? depth [] members).map .object

def itemsOf? (depth : Nat) : List Spelling → Option (List Json)
  | [] => some []
  | v :: rest => do
    let v ← ofSpelling? depth v
    let rest ← itemsOf? depth rest
    pure (v :: rest)

/-- Members after those in `found`; of two with one key the later stays. -/
def membersOf? (depth : Nat) (found : List (String × Json)) :
    List (List StringPart × Spelling) → Option (List (String × Json))
  | [] => some found
  | (key, v) :: rest => do
    let key ← joinParts? key
    let v ← ofSpelling? depth v
    membersOf? depth (putMember (String.ofList key) v found) rest

end

/-- The document that a whole text spells. -/
def ofText? (s : List Char) : Option Json :=
  (Spelling.ofText? s).bind (ofSpelling? maxDepth)

/-! ### Writing -/

/-- The shortest digits of a number: with a point, and at least one digit on both sides of it, for
decimal exponents from -5 to 15, and with a signed exponent otherwise. -/
def renderFloat (x : Binary64) : List Char :=
  let sign := if x.isNegative then ['-'] else []
  if x.isZero then sign ++ "0.0".toList
  else
    let f := x.shortest .toEven
    let e := f.point - 1
    if -5 ≤ e && e ≤ 15 then
      let (whole, part) := Binary64.positional f
      sign ++ whole ++ '.' :: (if part.isEmpty then ['0'] else part)
    else
      let part := f.digits.drop 1
      sign ++ f.digits.take 1 ++ (if part.isEmpty then [] else '.' :: part)
        ++ 'e' :: (if e < 0 then '-' else '+') :: Nat.toDigits 10 e.natAbs

/-- A character within quotes. -/
def escapeChar (c : Char) : List Char :=
  match c with
  | '"' => ['\\', '"']
  | '\\' => ['\\', '\\']
  | '\x08' => ['\\', 'b']
  | '\x0c' => ['\\', 'f']
  | '\n' => ['\\', 'n']
  | '\r' => ['\\', 'r']
  | '\t' => ['\\', 't']
  | c =>
    if c.toNat < 0x20 then
      '\\' :: 'u' :: '0' :: '0' :: Nat.digitChar (c.toNat / 16) :: [Nat.digitChar (c.toNat % 16)]
    else [c]

def renderString (s : List Char) : List Char :=
  '"' :: s.flatMap escapeChar ++ ['"']

mutual

/-- The text of a document, without white space. -/
def render : Json → List Char
  | .null => "null".toList
  | .boolean b => (if b then "true" else "false").toList
  | .integer n => (toString n).toList
  | .float x => renderFloat x
  | .string s => renderString s.toList
  | .array items => '[' :: renderItems items ++ [']']
  | .object members => '\x7b' :: renderMembers members ++ ['\x7d']

def renderItems : List Json → List Char
  | [] => []
  | [v] => v.render
  | v :: rest => v.render ++ ',' :: renderItems rest

def renderMembers : List (String × Json) → List Char
  | [] => []
  | [(k, v)] => renderString k.toList ++ ':' :: v.render
  | (k, v) :: rest => renderString k.toList ++ ':' :: v.render ++ ',' :: renderMembers rest

end

/-! ### Equality -/

mutual

/-- Equality of documents, with floating point numbers compared by value. -/
def same : Json → Json → Bool
  | .null, .null => true
  | .boolean a, .boolean b => a == b
  | .integer m, .integer n => m == n
  | .float x, .float y => x.sameValue y
  | .string s, .string t => s == t
  | .array xs, .array ys => sameItems xs ys
  | .object xs, .object ys => sameMembers xs ys
  | _, _ => false

def sameItems : List Json → List Json → Bool
  | [], [] => true
  | x :: xs, y :: ys => x.same y && sameItems xs ys
  | _, _ => false

def sameMembers : List (String × Json) → List (String × Json) → Bool
  | [], [] => true
  | (k, x) :: xs, (l, y) :: ys => k == l && x.same y && sameMembers xs ys
  | _, _ => false

end

end Json

end NamedSql
