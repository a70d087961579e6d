import NamedSql.Text.Lower
import NamedSql.Vendor

/-!
# Tables

The rows of a query under the names of its columns. A column is found by its name in any case and with
or without separators; where two columns have the same name in this sense, the first one is found.
-/

namespace NamedSql

/-- A column name for look-ups: in small letters, without underscores, hyphens and spaces. -/
def plainName (s : List Char) : List Char :=
  Text.lower (s.filter fun c => c != '_' && c != '-' && c != ' ')

/-- A row in the order of the columns. -/
abbrev Row := List Value

/-- The names of columns, and the position of each plain name. -/
structure Columns where
  names : List String
  positions : List (List Char × Nat)
deriving Repr

namespace Columns

/-- Enters a name unless it is there. -/
def enter (positions : List (List Char × Nat)) (name : List Char) (n : Nat) :
    List (List Char × Nat) :=
  match positions.lookup name with
  | some _ => positions
  | none => (name, n) :: positions

/-- Enters names, the first of which has the position `n`. -/
def enterAll (positions : List (List Char × Nat)) (n : Nat) : List String → List (List Char × Nat)
  | [] => positions
  | name :: rest => enterAll (enter positions (plainName name.toList) n) (n + 1) rest

def ofNames (names : List String) : Columns :=
  ⟨names, enterAll [] 0 names⟩

/-- The position of a column. -/
def position? (c : Columns) (name : String) : Option Nat :=
  c.positions.lookup (plainName name.toList)

end Columns

/-- A row together with the columns of its table; it may be shorter or longer than they are. -/
structure Record where
  columns : Columns
  values : Row
deriving Repr

namespace Record

def get? (r : Record) (name : String) : Option Value :=
  (r.columns.position? name).bind (r.values[·]?)

/-- The value at a position, in a form that is asked for. -/
def readAt (r : Record) (index : Nat) (target : Representation) : Except Failure Value :=
  match r.values[index]? with
  | none => .error (.usage (.columnOutOfRange index r.values.length))
  | some v => Vendor.ofStorage v target

/-- The value under a name, in a form that is asked for. -/
def read (r : Record) (name : String) (target : Representation) : Except Failure Value :=
  match r.columns.position? name with
  | none => .error (.usage (.noColumn name r.columns.names))
  | some index => r.readAt index target

def readInteger (r : Record) (name : String) : Except Failure (Option Int64) := do
  match ← r.read name .integer with
  | .integer n => pure (some n)
  | _ => pure none

def readText (r : Record) (name : String) : Except Failure (Option String) := do
  match ← r.read name .text with
  | .text s => pure (some s)
  | _ => pure none

def readBoolean (r : Record) (name : String) : Except Failure (Option Bool) := do
  match ← r.read name .boolean with
  | .boolean b => pure (some b)
  | _ => pure none

def readDate (r : Record) (name : String) : Except Failure (Option Date) := do
  match ← r.read name .date with
  | .date d => pure (some d)
  | _ => pure none

def readTimestamp (r : Record) (name : String) : Except Failure (Option Timestamp) := do
  match ← r.read name .timestamp with
  | .timestamp t => pure (some t)
  | _ => pure none

def readBytes (r : Record) (name : String) : Except Failure (Option (List UInt8)) := do
  match ← r.read name .bytes with
  | .blob b => pure (some b)
  | _ => pure none

end Record

structure Table where
  columns : Columns
  rows : List Row
deriving Repr

namespace Table

def empty (names : List String) : Table :=
  ⟨Columns.ofNames names, []⟩

def push (t : Table) (r : Row) : Table :=
  { t with rows := t.rows ++ [r] }

def size (t : Table) : Nat :=
  t.rows.length

def record? (t : Table) (index : Nat) : Option Record :=
  t.rows[index]?.map (⟨t.columns, ·⟩)

end Table

end NamedSql
