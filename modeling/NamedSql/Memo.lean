import NamedSql.Bindings
import NamedSql.Calendar
import NamedSql.Page
import NamedSql.Table

/-!
# Memos of results

A `Memo` keeps the tables of a limited number of queries until they expire. When it is full the entry
that came first makes room, however often it was read; an entry that is stored anew keeps its turn,
and one that has expired is missed but stays until its turn comes.
-/

namespace NamedSql

/-- What a table is stored under: the statement, its parameters and the page. -/
structure MemoKey where
  statement : String
  bindings : Bindings
  start : UInt64
  limit : Option UInt64
deriving Repr

namespace MemoKey

def ofPage (statement : String) (bindings : Bindings) (page : Option Page) : MemoKey :=
  match page with
  | some p => ⟨statement, bindings, p.start, p.limit⟩
  | none => ⟨statement, bindings, 1, none⟩

def offset (k : MemoKey) : UInt64 :=
  k.start - 1

/-- Equality of keys; a key with a stream equals none. -/
def same (k l : MemoKey) : Bool :=
  k.statement == l.statement && k.bindings.same l.bindings && k.start == l.start
    && k.limit == l.limit

/-- Whether tables can be stored under the key. -/
def isStorable (k : MemoKey) : Bool :=
  !k.bindings.hasStream

end MemoKey

structure MemoEntry where
  table : Table
  expires : Instant
deriving Repr

/-- A memo: the entries by key, and the keys in the order in which they came. Lifetimes are in
milliseconds. -/
structure Memo where
  capacity : Nat
  lifetime : Int
  entries : List (MemoKey × MemoEntry)
  order : List MemoKey
  closed : Bool
deriving Repr

namespace Memo

/-- The lifetime of entries unless another one is chosen. -/
def defaultLifetime : Int := 60000

/-- An empty memo, with room for one entry at least. -/
def create (capacity : Nat) (lifetime : Int) : Except Failure Memo :=
  if capacity = 0 then .error (.setting .zeroCapacity)
  else if lifetime ≤ 0 then .error (.setting .badLifetime)
  else .ok ⟨capacity, lifetime, [], [], false⟩

def checkOpen (m : Memo) : Except Failure Unit :=
  if m.closed then .error (.state .memoClosed) else .ok ()

def find? (m : Memo) (k : MemoKey) : Option MemoEntry :=
  (m.entries.find? fun e => e.1.same k).map (·.2)

/-- The table under a key, unless it has expired. -/
def get (m : Memo) (now : Instant) (k : MemoKey) : Except Failure (Option Table) := do
  m.checkOpen
  if !k.isStorable then pure none
  else
    match m.find? k with
    | some e => pure (if now.millis < e.expires.millis then some e.table else none)
    | none => pure none

/-- Stores an entry under a key that has one. -/
def replace (m : Memo) (k : MemoKey) (e : MemoEntry) : Memo :=
  { m with entries := m.entries.map fun old => if old.1.same k then (old.1, e) else old }

/-- Takes out the entry that came first. -/
def dropFirst (m : Memo) : Memo :=
  match m.order with
  | [] => m
  | k :: order => { m with entries := m.entries.filter (!·.1.same k), order := order }

/-- Stores an entry under a new key. -/
def append (m : Memo) (k : MemoKey) (e : MemoEntry) : Memo :=
  { m with entries := (k, e) :: m.entries, order := m.order ++ [k] }

/-- Stores a table until it expires. -/
def put (m : Memo) (k : MemoKey) (t : Table) (expires : Instant) : Except Failure Memo := do
  m.checkOpen
  if !k.isStorable then pure m
  else
    match m.find? k with
    | some _ => pure (m.replace k ⟨t, expires⟩)
    | none =>
      let m := if m.capacity ≤ m.entries.length then m.dropFirst else m
      pure (m.append k ⟨t, expires⟩)

/-- Takes out the entry of a key; tells whether there was one. -/
def remove (m : Memo) (k : MemoKey) : Except Failure (Bool × Memo) := do
  m.checkOpen
  match m.find? k with
  | none => pure (false, m)
  | some _ =>
    pure (true,
      { m with
        entries := m.entries.filter (!·.1.same k)
        order := m.order.eraseP (·.same k) })

/-- Takes out the entries of a statement; gives their number. -/
def invalidate (m : Memo) (statement : String) : Except Failure (Nat × Memo) := do
  m.checkOpen
  let entries := m.entries.filter fun e => e.1.statement != statement
  pure (m.entries.length - entries.length,
    { m with
      entries := entries
      order := m.order.filter fun k => k.statement != statement })

def clear (m : Memo) : Except Failure Memo := do
  m.checkOpen
  pure { m with entries := [], order := [] }

/-- The number of entries, expired ones included. -/
def size (m : Memo) : Except Failure Nat := do
  m.checkOpen
  pure m.entries.length

/-- Takes out all entries for good; every later operation but this one fails. -/
def shutdown (m : Memo) : Memo :=
  { m with entries := [], order := [], closed := true }

end Memo

end NamedSql
