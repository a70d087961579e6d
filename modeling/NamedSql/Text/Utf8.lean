/-!
# UTF-8

Texts as bytes and bytes as texts. `ofUtf8?` refuses bytes that are not well formed; `readUtf8` makes
something of all bytes.
-/

namespace NamedSql.Text

/-- The bytes of a text. -/
def utf8Bytes (s : String) : List UInt8 :=
  s.toUTF8.toList

/-- The text that bytes spell, if they are well formed. -/
def ofUtf8? (bytes : List UInt8) : Option String :=
  String.fromUTF8? (ByteArray.mk bytes.toArray)

/-- The character of a code. A code that is no character counts as a replacement, and one beyond all
characters as U+FFFE, as which nothing else is read. -/
def charOrReplacement (code : Nat) : Char :=
  if 0x10FFFF < code then '\ufffe'
  else if code < 0x80 ∨ (0xD800 ≤ code ∧ code < 0xE000) ∨ code = 0xFFFE ∨ code = 0xFFFF then '\ufffd'
  else Char.ofNat code

/-- What a character of a well formed text is read as. -/
def readChar (c : Char) : Char :=
  if c.toNat < 0x80 then c else charOrReplacement c.toNat

/-- The bits of a leading byte that belong to the code. -/
def leadingBits (b : Nat) : Nat :=
  if b < 0xE0 then b % 32
  else if b < 0xF0 then b % 16
  else if b < 0xF8 then b % 8
  else if b < 0xFC then b % 4
  else if b < 0xFE then b % 2
  else 0

/-- Reads bytes behind a leading byte whose code so far is `code`, or behind none. All continuation
bytes that follow a leading byte belong to it, and one that follows none stands for itself. -/
def readUtf8From (code : Option Nat) : List UInt8 → List Char
  | [] => (code.map charOrReplacement).toList
  | b :: bytes =>
    let b := b.toNat
    let done := (code.map charOrReplacement).toList
    if b < 0x80 then done ++ Char.ofNat b :: readUtf8From none bytes
    else if b < 0xC0 then
      match code with
      | some n => readUtf8From (some ((64 * n + b % 64) % 4294967296)) bytes
      | none => Char.ofNat b :: readUtf8From none bytes
    else done ++ readUtf8From (some (leadingBits b)) bytes

/-- The characters that bytes spell, whatever bytes they are. -/
def readUtf8 (bytes : List UInt8) : List Char :=
  readUtf8From none bytes

end NamedSql.Text
