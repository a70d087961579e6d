import NamedSql.Value

/-!
# Prepared statements

What a database keeps for a handle: the bound values, the limits, and what it made of the SQL. They
stay until they are changed. A `Shelf` holds the statements of a connection by handle.
-/

namespace NamedSql

/-- A prepared statement. The bound values stand in the order of their positions, which count from
1; times are in milliseconds. -/
structure Prepared (κ : Type) where
  body : κ
  bound : List (Nat × Value)
  maxRows : Option UInt64
  timeout : Option Nat
deriving Repr

namespace Prepared

variable {κ : Type}

/-- A statement without values and limits. -/
def ofBody (body : κ) : Prepared κ :=
  ⟨body, [], none, none⟩

/-- Enters a value at its position, in place of one that stands there. -/
def putValue (position : Nat) (v : Value) : List (Nat × Value) → List (Nat × Value)
  | [] => [(position, v)]
  | (n, w) :: rest =>
    if position < n then (position, v) :: (n, w) :: rest
    else if position = n then (position, v) :: rest
    else (n, w) :: putValue position v rest

def bind (p : Prepared κ) (position : Nat) (v : Value) : Prepared κ :=
  { p with bound := putValue position v p.bound }

def clear (p : Prepared κ) : Prepared κ :=
  { p with bound := [] }

/-- The greatest position with a value, or 0. -/
def width (bound : List (Nat × Value)) : Nat :=
  (bound.map (·.1)).foldl max 0

/-- The values at the positions from 1 to `count`; where none is bound there is NULL. -/
def valuesUpTo (bound : List (Nat × Value)) (count : Nat) : List Value :=
  (List.range count).map fun i => (bound.lookup (i + 1)).getD .null

end Prepared

/-- The prepared statements of a connection. -/
abbrev Shelf (κ : Type) := List (Nat × Prepared κ)

namespace Shelf

variable {κ : Type}

def get? (s : Shelf κ) (handle : Nat) : Option (Prepared κ) :=
  s.lookup handle

def put (s : Shelf κ) (handle : Nat) (p : Prepared κ) : Shelf κ :=
  (handle, p) :: s.filter (·.1 != handle)

/-- Changes a statement if there is one. -/
def update (s : Shelf κ) (handle : Nat) (f : Prepared κ → Prepared κ) : Shelf κ :=
  s.map fun e => if e.1 = handle then (e.1, f e.2) else e

def erase (s : Shelf κ) (handle : Nat) : Shelf κ :=
  s.filter (·.1 != handle)

def has (s : Shelf κ) (handle : Nat) : Bool :=
  s.any (·.1 == handle)

end Shelf

end NamedSql
