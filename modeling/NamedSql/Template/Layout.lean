import NamedSql.Template
import NamedSql.Text.Utf8

/-!
# Templates by their bytes

A template can be laid out without pieces: its text is read byte after byte, and its SQL is kept as one
text, with the bytes at which the placeholders stand. What is copied is a part of a text between two of
its bytes. There is such a part only if no character is cut and its end is not in front of its start;
otherwise all work stops.
-/

namespace NamedSql

namespace Text

/-- The part of a text between two bytes, both of which are bounds of characters. -/
def slice? (s : String) (first last : Nat) : Option String :=
  if h : first ≤ last ∧ String.Pos.Raw.IsValid s ⟨first⟩ ∧ String.Pos.Raw.IsValid s ⟨last⟩ then
    some (s.extract ⟨⟨first⟩, h.2.1⟩ ⟨⟨last⟩, h.2.2⟩)
  else none

/-- Whether an ASCII character stands at a byte. -/
def isAt (s : String) (i : Nat) (c : Char) : Bool :=
  (utf8Bytes s)[i]? == some c.toUInt8

/-- The byte behind a run of ASCII characters of some kind. -/
def runEnd (kind : Char → Bool) (s : String) (start : Nat) : Nat :=
  start + (((utf8Bytes s).drop start).takeWhile fun b => kind (Char.ofUInt8 b)).length

end Text

/-- The SQL of a template with one placeholder for each marker, and the bytes at which these stand. -/
structure Layout where
  sql : String
  markers : List Marker
  offsets : List Nat
deriving DecidableEq, Repr

namespace Layout

open Decimal Text

/-- Why there is no layout: a marker is malformed, or there is no part between two bytes. -/
inductive Stop where
  | malformed (cause : Failure)
  | noPart (first last : Nat)

/-- The part of a text between two bytes. -/
def part (s : String) (first last : Nat) : Except Stop String :=
  match slice? s first last with
  | some t => .ok t
  | none => .error (.noPart first last)

/-! ### Reading -/

/-- The subscript that starts at a byte, if there is one, and the byte behind it. -/
def readSubscript (s : String) (start : Nat) : Except Stop (Option Subscript × Nat) :=
  if !isAt s start '[' then .ok (none, start)
  else if isAt s (start + 1) ']' then .ok (some .all, start + 2)
  else
    let last := runEnd isDigit s (start + 1)
    if last = start + 1 then .error (.malformed (.parse start .badSubscript))
    else
      match part s (start + 1) last with
      | .error e => .error e
      | .ok digits =>
        if isAt s last ']' && value digits.toList < twoTo 64 then
          .ok (some (.at (value digits.toList)), last + 1)
        else .error (.malformed (.parse start .badSubscript))

/-- The marker with its colon at a byte and its name up to another, and the byte behind it. -/
def readMarker (s : String) (colon nameEnd : Nat) : Except Stop (Marker × Nat) :=
  match part s (colon + 1) nameEnd with
  | .error e => .error e
  | .ok raw =>
    match Template.nameOfRaw colon raw.toList with
    | .error (pos, fault) => .error (.malformed (.parse pos fault))
    | .ok name =>
      match readSubscript s nameEnd with
      | .error e => .error e
      | .ok (subscript, last) =>
        .ok (⟨name, raw.toList.head? == some '%', raw.toList.getLast? == some '%', subscript⟩, last)

theorem le_of_readSubscript {s : String} {start last : Nat} {sub : Option Subscript}
    (h : readSubscript s start = .ok (sub, last)) : start ≤ last := by
  have hend : start + 1 ≤ runEnd isDigit s (start + 1) := Nat.le_add_right _ _
  unfold readSubscript at h
  dsimp only at h
  split at h
  · cases h; exact Nat.le_refl _
  split at h
  · cases h; omega
  split at h
  · cases h
  split at h
  · cases h
  split at h
  · cases h; omega
  · cases h

theorem lt_of_readMarker {s : String} {colon last : Nat} {m : Marker}
    (h : readMarker s colon (runEnd Template.isNameChar s (colon + 1)) = .ok (m, last)) : colon < last := by
  have hname : colon + 1 ≤ runEnd Template.isNameChar s (colon + 1) := Nat.le_add_right _ _
  unfold readMarker at h
  split at h
  · cases h
  split at h
  · cases h
  split at h
  · cases h
  · next hsub =>
    have hlast := le_of_readSubscript hsub
    cases h
    exact Nat.lt_of_lt_of_le hname hlast

/-! ### Laying out -/

/-- Adds plain text and a marker behind it. -/
def place (escape : Char) (before : String) (m : Marker) (l : Layout) : Layout :=
  ⟨l.sql ++ before ++ String.ofList ('?' :: m.escapeClause escape), l.markers ++ [m],
    l.offsets ++ [(l.sql ++ before).utf8ByteSize]⟩

/-- Reads a text from the byte `i` on, within a literal if `quoted`. What stands in front of the byte
`copied` is laid out already. -/
def walk (escape : Char) (s : String) (quoted : Bool) (copied i : Nat) (l : Layout) : Except Stop Layout :=
  if i < s.utf8ByteSize then
    if quoted then
      if isAt s i '\'' && isAt s (i + 1) '\'' then walk escape s true copied (i + 2) l
      else walk escape s (!isAt s i '\'') copied (i + 1) l
    else if isAt s i '\'' then walk escape s true copied (i + 1) l
    else if isAt s i ':' && isAt s (i + 1) ':' then walk escape s false copied (i + 2) l
    else if isAt s i ':' then
      let nameEnd := runEnd Template.isNameChar s (i + 1)
      if nameEnd = i + 1 then walk escape s false copied (i + 1) l
      else
        match h : readMarker s i nameEnd with
        | .error e => .error e
        | .ok (m, last) =>
          have := lt_of_readMarker h
          match part s copied i with
          | .error e => .error e
          | .ok before => walk escape s false last last (l.place escape before m)
    else walk escape s false copied (i + 1) l
  else
    match part s copied s.utf8ByteSize with
    | .error e => .error e
    | .ok rest => .ok { l with sql := l.sql ++ rest }
termination_by s.utf8ByteSize - i

/-- The layout of a template. -/
def ofText (escape : Char) (s : String) : Except Stop Layout :=
  walk escape s false 0 0 ⟨"", [], []⟩

/-! ### Numbers of values -/

/-- A text from the byte `copied` on, with as many placeholders as are asked for in place of the ones at
some bytes. -/
def expandFrom (sql : String) (copied : Nat) : List (Nat × Nat) → Except Stop String
  | [] => part sql copied sql.utf8ByteSize
  | (offset, width) :: rest => do
    let before ← part sql copied offset
    let after ← expandFrom sql (offset + 1) rest
    pure (before ++ String.ofList (Marker.placeholders width) ++ after)

/-- The SQL whose markers take the given numbers of values. -/
def expand (l : Layout) (widths : List Nat) : Except Stop String :=
  expandFrom l.sql 0 (l.offsets.zip widths)

end Layout

end NamedSql
