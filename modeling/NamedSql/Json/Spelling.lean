import NamedSql.Binary64.Decimal

/-!
# JSON as it is spelled

The grammar of JSON text, apart from what the text means: numbers keep their digits, strings their
escapes, objects the order and the repetitions of their keys. `Spelling.ofText?` reads a whole text;
nothing is said here about ranges, lone surrogates or depth.
-/

namespace NamedSql.Json

open Decimal

/-- An element of a string: a character, or an escape by its UTF-16 code unit. -/
inductive StringPart where
  | char (c : Char)
  | unit (n : Nat)
deriving DecidableEq, Repr

/-- A number: its sign, the digits before and after the point, and the exponent with its sign. -/
structure Numeral where
  negative : Bool
  whole : List Char
  part : Option (List Char)
  exponent : Option Int
deriving DecidableEq, Repr

inductive Spelling where
  | null
  | boolean (b : Bool)
  | number (n : Numeral)
  | string (s : List StringPart)
  | array (items : List Spelling)
  | object (members : List (List StringPart × Spelling))
deriving Repr

/-- The white space between tokens. -/
def isSpace (c : Char) : Bool :=
  c == ' ' || c == '\n' || c == '\t' || c == '\r'

def skipSpace (s : List Char) : List Char :=
  s.dropWhile isSpace

def hexValue? (c : Char) : Option Nat :=
  if isDigit c then some (c.toNat - '0'.toNat)
  else if 'a' ≤ c && c ≤ 'f' then some (c.toNat - 'a'.toNat + 10)
  else if 'A' ≤ c && c ≤ 'F' then some (c.toNat - 'A'.toNat + 10)
  else none

def hex4? (a b c d : Char) : Option Nat := do
  pure (((← hexValue? a) * 16 + (← hexValue? b)) * 256 + (← hexValue? c) * 16 + (← hexValue? d))

/-- The character that an escape of two characters stands for. -/
def shortEscape? : Char → Option Char
  | '"' => some '"'
  | '\\' => some '\\'
  | '/' => some '/'
  | 'b' => some '\x08'
  | 'f' => some '\x0c'
  | 'n' => some '\n'
  | 'r' => some '\r'
  | 't' => some '\t'
  | _ => none

/-- A string behind its opening quote, and what follows its closing one. Control characters must be
escaped. -/
def readString? : List Char → Option (List StringPart × List Char)
  | '"' :: s => some ([], s)
  | '\\' :: 'u' :: a :: b :: c :: d :: s => do
    let n ← hex4? a b c d
    let (parts, s) ← readString? s
    pure (.unit n :: parts, s)
  | '\\' :: c :: s => do
    let c ← shortEscape? c
    let (parts, s) ← readString? s
    pure (.char c :: parts, s)
  | c :: s =>
    if c.toNat < 0x20 || c == '\\' then none
    else do
      let (parts, s) ← readString? s
      pure (.char c :: parts, s)
  | [] => none

/-- The digits after a point, at least one of them, if there is a point. -/
def readPart? : List Char → Option (Option (List Char) × List Char)
  | '.' :: s =>
    let digits := s.takeWhile isDigit
    if digits.isEmpty then none else some (some digits, s.dropWhile isDigit)
  | s => some (none, s)

/-- An exponent, with at least one digit, if there is one. -/
def readExponent? : List Char → Option (Option Int × List Char)
  | [] => some (none, [])
  | c :: s =>
    if c == 'e' || c == 'E' then
      let (negative, s) := takeSign s
      let digits := s.takeWhile isDigit
      if digits.isEmpty then none
      else
        let n : Int := value digits
        some (some (if negative then -n else n), s.dropWhile isDigit)
    else
      some (none, c :: s)

/-- A number behind its sign. Its first digit is zero only if it stands alone before the point. -/
def readNumeral? (negative : Bool) (s : List Char) : Option (Numeral × List Char) := do
  let whole := s.takeWhile isDigit
  guard (!whole.isEmpty && (whole.head? != some '0' || whole.length == 1))
  let (part, s) ← readPart? (s.dropWhile isDigit)
  let (exponent, s) ← readExponent? s
  pure (⟨negative, whole, part, exponent⟩, s)

mutual

/-- A value at the front of a text. Every call spends one unit of `fuel`, and no path makes more than
two calls for each character that it takes. -/
def readValue? : (fuel : Nat) → List Char → Option (Spelling × List Char)
  | 0, _ => none
  | fuel + 1, s =>
    match skipSpace s with
    | 'n' :: 'u' :: 'l' :: 'l' :: s => some (.null, s)
    | 't' :: 'r' :: 'u' :: 'e' :: s => some (.boolean true, s)
    | 'f' :: 'a' :: 'l' :: 's' :: 'e' :: s => some (.boolean false, s)
    | '"' :: s => (readString? s).map fun (parts, s) => (.string parts, s)
    | '-' :: s => (readNumeral? true s).map fun (n, s) => (.number n, s)
    | '[' :: s =>
      match skipSpace s with
      | ']' :: s => some (.array [], s)
      | s => (readItems? fuel s).map fun (items, s) => (.array items, s)
    | '\x7b' :: s =>
      match skipSpace s with
      | '\x7d' :: s => some (.object [], s)
      | s => (readMembers? fuel s).map fun (members, s) => (.object members, s)
    | s => (readNumeral? false s).map fun (n, s) => (.number n, s)

/-- The items of an array up to its closing bracket; there is at least one. -/
def readItems? : (fuel : Nat) → List Char → Option (List Spelling × List Char)
  | 0, _ => none
  | fuel + 1, s => do
    let (item, s) ← readValue? fuel s
    match skipSpace s with
    | ']' :: s => pure ([item], s)
    | ',' :: s => do
      let (items, s) ← readItems? fuel s
      pure (item :: items, s)
    | _ => none

/-- The members of an object up to its closing brace; there is at least one. -/
def readMembers? : (fuel : Nat) → List Char → Option (List (List StringPart × Spelling) × List Char)
  | 0, _ => none
  | fuel + 1, s =>
    match skipSpace s with
    | '"' :: s => do
      let (key, s) ← readString? s
      match skipSpace s with
      | ':' :: s => do
        let (item, s) ← readValue? fuel s
        match skipSpace s with
        | '\x7d' :: s => pure ([(key, item)], s)
        | ',' :: s => do
          let (members, s) ← readMembers? fuel s
          pure ((key, item) :: members, s)
        | _ => none
      | _ => none
    | _ => none

end

/-- A whole text as one value between white space. -/
def Spelling.ofText? (s : List Char) : Option Spelling := do
  let (v, s) ← readValue? (2 * s.length + 2) s
  guard (skipSpace s).isEmpty
  pure v

end NamedSql.Json
