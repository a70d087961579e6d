import NamedSql.Binary64.Decimal
import NamedSql.Failure

/-!
# Templates

A template is SQL text with markers such as `:id`, `:%name%`, `:ids[]` and `:range[0]`. It is cut into
pieces, each of them one character of SQL or one marker; a marker becomes a `?` in the SQL that the
database gets. Markers within single quotes are SQL like everything else there.
-/

namespace NamedSql

open Decimal

/-- What stands in brackets behind a name: `[]` for all elements of a sequence, `[n]` for one. -/
inductive Subscript where
  | all
  | at (n : Nat)
deriving DecidableEq, Repr

/-- A parameter's place in a template. With a percent sign in front of the name the bound text may
have anything before it, with one behind the name anything after it. -/
structure Marker where
  name : String
  openStart : Bool
  openEnd : Bool
  subscript : Option Subscript
deriving DecidableEq, Repr

namespace Marker

/-- Whether the marker is matched by LIKE. -/
def isLike (m : Marker) : Bool :=
  m.openEnd || m.openStart

/-- Whether the marker takes a whole sequence. -/
def takesAll (m : Marker) : Bool :=
  m.subscript == some .all

/-- A text as a LIKE pattern for itself: every character with a meaning is escaped. -/
def escapeLike (escape : Char) (s : List Char) : List Char :=
  s.flatMap fun c => if c == '%' || c == '_' || c == escape then [escape, c] else [c]

/-- The pattern for a text under this marker. -/
def pattern (m : Marker) (escape : Char) (s : List Char) : List Char :=
  (if m.openStart then ['%'] else []) ++ escapeLike escape s ++ (if m.openEnd then ['%'] else [])

/-- What stands behind the `?` of a marker. -/
def escapeClause (m : Marker) (escape : Char) : List Char :=
  if m.isLike then " ESCAPE '".toList ++ [escape, '\''] else []

/-- The SQL of a marker that takes `width` values; there is always one `?` at least. -/
def placeholders : (width : Nat) → List Char
  | 0 => ['?']
  | 1 => ['?']
  | width + 1 => '?' :: ',' :: ' ' :: placeholders width

end Marker

/-- A character of SQL, or a marker. -/
inductive Piece where
  | sql (c : Char)
  | marker (m : Marker)
deriving DecidableEq, Repr

/-- A template and the character that its LIKE patterns use for escapes. -/
structure Template where
  source : String
  escape : Char
  pieces : List Piece
deriving DecidableEq, Repr

namespace Template

/-! ### Parsing -/

/-- The characters of a name, with the percent signs around it. -/
def isNameChar (c : Char) : Bool :=
  c.isAlphanum || c == '_' || c == '%'

/-- A failure at a byte of the source. -/
abbrev Parse (α : Type) := Except (Nat × TemplateFault) α

/-- The name within a raw name, which stands behind the colon at the byte `pos`. -/
def nameOfRaw (pos : Nat) (raw : List Char) : Parse String :=
  let isPercent (c : Char) : Bool := c == '%'
  let name := ((raw.dropWhile isPercent).reverse.dropWhile isPercent).reverse
  if name.isEmpty then .error (pos, .noName (String.ofList raw))
  else if name.contains '%' then .error (pos, .strayPercent (String.ofList raw))
  else .ok (String.ofList name)

/-- The subscript at the front of a text that starts at the byte `pos`, if there is one, and what
follows it. Its number must fit into 64 bits. -/
def readSubscript (pos : Nat) : List Char → Parse (Option Subscript × List Char)
  | '[' :: ']' :: s => .ok (some .all, s)
  | '[' :: s =>
    let digits := s.takeWhile isDigit
    match s.dropWhile isDigit with
    | ']' :: rest =>
      if !digits.isEmpty && value digits < twoTo 64 then .ok (some (.at (value digits)), rest)
      else .error (pos, .badSubscript)
    | _ => .error (pos, .badSubscript)
  | s => .ok (none, s)

theorem length_dropWhile_le {α : Type} (p : α → Bool) (s : List α) :
    (s.dropWhile p).length ≤ s.length := by
  induction s with
  | nil => simp
  | cons c s ih =>
    rw [List.dropWhile_cons]
    split
    · simp only [List.length_cons]; omega
    · simp

theorem length_of_readSubscript {pos : Nat} {s rest : List Char} {sub : Option Subscript}
    (h : readSubscript pos s = .ok (sub, rest)) : rest.length ≤ s.length := by
  unfold readSubscript at h
  split at h
  · cases h; simp only [List.length_cons]; omega
  · rename_i s _
    have hd := length_dropWhile_le isDigit s
    dsimp only at h
    split at h
    · rename_i r hr
      rw [hr] at hd
      split at h
      · cases h; simp only [List.length_cons] at *; omega
      · cases h
    · cases h
  · cases h; exact Nat.le_refl _

/-- The pieces of a text that starts at the byte `pos`, within a literal if `quoted`. A doubled quote
does not end a literal, and a literal without an end takes the rest of the text; `::` and a colon
without a name are SQL. A marker takes as much as it can. -/
def scan (quoted : Bool) (pos : Nat) (s : List Char) : Parse (List Piece) :=
  match quoted, s with
  | _, [] => .ok []
  | true, '\'' :: '\'' :: s =>
    (scan true (pos + 2) s).map fun p => .sql '\'' :: .sql '\'' :: p
  | true, c :: s => (scan (c != '\'') (pos + c.utf8Size) s).map (.sql c :: ·)
  | false, ':' :: ':' :: s =>
    (scan false (pos + 2) s).map fun p => .sql ':' :: .sql ':' :: p
  | false, ':' :: s =>
    let raw := s.takeWhile isNameChar
    if raw.isEmpty then (scan false (pos + 1) s).map (.sql ':' :: ·)
    else
      match nameOfRaw pos raw with
      | .error e => .error e
      | .ok name =>
        match h : readSubscript (pos + 1 + raw.length) (s.dropWhile isNameChar) with
        | .error e => .error e
        | .ok (subscript, rest) =>
          let m : Marker := ⟨name, raw.head? == some '%', raw.getLast? == some '%', subscript⟩
          (scan false (pos + 1 + (s.length - rest.length)) rest).map (.marker m :: ·)
  | false, c :: s => (scan (c == '\'') (pos + c.utf8Size) s).map (.sql c :: ·)
termination_by s.length
decreasing_by
  all_goals simp only [List.length_cons]
  all_goals try omega
  have h1 := length_of_readSubscript h
  have h2 := length_dropWhile_le isNameChar s
  omega

/-- The template of a text, or the first malformed marker. -/
def parse (escape : Char) (source : String) : Except Failure Template :=
  match scan false 0 source.toList with
  | .ok pieces => .ok ⟨source, escape, pieces⟩
  | .error (pos, fault) => .error (.parse pos fault)

/-! ### Views -/

/-- The markers from left to right. -/
def markers (t : Template) : List Marker :=
  t.pieces.filterMap fun
    | .marker m => some m
    | .sql _ => none

/-- Whether some marker takes a whole sequence, so that the SQL depends on the bindings. -/
def hasSequences (t : Template) : Bool :=
  t.markers.any (·.takesAll)

/-- The SQL of pieces whose markers, from left to right, take the given numbers of values; a marker
beyond them takes one. -/
def expandPieces (escape : Char) : (widths : List Nat) → List Piece → List Char
  | _, [] => []
  | widths, .sql c :: p => c :: expandPieces escape widths p
  | widths, .marker m :: p =>
    Marker.placeholders (widths.headD 1) ++ m.escapeClause escape
      ++ expandPieces escape widths.tail p

/-- The SQL whose markers take the given numbers of values. -/
def expand (t : Template) (widths : List Nat) : String :=
  String.ofList (expandPieces t.escape widths t.pieces)

/-- The SQL with one `?` for each marker. -/
def sql (t : Template) : String :=
  t.expand []

/-- The bytes of the SQL at which the markers' placeholders stand. -/
def offsetsFrom (escape : Char) (pos : Nat) : List Piece → List Nat
  | [] => []
  | .sql c :: p => offsetsFrom escape (pos + c.utf8Size) p
  | .marker m :: p =>
    let width := ((m.escapeClause escape).map Char.utf8Size).sum
    pos :: offsetsFrom escape (pos + 1 + width) p

def offsets (t : Template) : List Nat :=
  offsetsFrom t.escape 0 t.pieces

/-- The SQL for a sequence of `size` elements under a name, all other markers taking one value. -/
def widen (t : Template) (name : String) (size : Nat) : Except Failure String :=
  let isNamed (m : Marker) : Bool := m.name == name && m.takesAll
  if size = 0 then .error (.binding (.emptySequence name))
  else if !t.markers.any isNamed then .error (.binding (.noSequenceMarker name))
  else .ok (t.expand (t.markers.map fun m => if isNamed m then size else 1))

end Template

end NamedSql
