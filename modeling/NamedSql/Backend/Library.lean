import NamedSql.Backend
import NamedSql.Backend.Prepared
import NamedSql.Value.Plain

/-!
# Databases in a library

A database that runs inside the program, as a library. What is prepared is kept as SQL and compiled anew
for each execution, rows are given in memory, and a batch runs inside a savepoint: it is all or nothing.
-/

namespace NamedSql

/-- A library with connections `δ` and compiled statements `κ`, which hold the values that are bound to
them. Times are in milliseconds, placeholders count from 1. -/
structure Library (δ κ : Type) where
  /-- Sets how long the connection waits for others. -/
  setWait : (millis : Nat) → Call δ Unit
  compile : (sql : String) → Call δ κ
  bind : κ → (position : Nat) → Value → Except NativeFault κ
  columns : κ → List String
  /-- Runs a statement that must not give rows; counts its changes. -/
  run : κ → Call δ Nat
  /-- Runs a statement; gives its rows and the error, if any, that comes after them. -/
  query : κ → Call δ (List (List Value) × Option NativeFault)
  savepoint : Call δ Unit
  /-- Gives up the last savepoint and keeps what was done since. -/
  release : Call δ Unit
  /-- Undoes what was done since the last savepoint, and gives it up. -/
  rollback : δ → δ

/-- A connection of a library and the statements that were prepared on it. -/
structure Embedded (δ : Type) where
  data : δ
  statements : Shelf String
deriving Repr

namespace Embedded

variable {δ α : Type}

/-- The connection of the library as a part of the world. -/
def dataPart : Part (World (Embedded δ)) (World δ) :=
  ⟨fun w => ⟨w.link.data, w.now⟩, fun v w => ⟨{ w.link with data := v.link }, v.now⟩⟩

def onData (c : Call δ α) : Call (Embedded δ) α :=
  Flow.within dataPart c

def unknownHandle : NativeFault :=
  ⟨none, 21, "no statement has this handle"⟩

/-- The statement of a handle. -/
def statement (handle : Nat) : Call (Embedded δ) (Prepared String) := do
  match (← Call.readLink Embedded.statements).get? handle with
  | some p => pure p
  | none => Flow.fail unknownHandle

def modifyStatement (handle : Nat) (f : Prepared String → Prepared String) (d : Embedded δ) :
    Embedded δ :=
  { d with statements := d.statements.update handle f }

def bind (handle position : Nat) (v : Value) : Call (Embedded δ) Unit := do
  Flow.require (position != 0) ⟨none, 25, "placeholder index is 1-based"⟩
  Call.modifyLink (modifyStatement handle (·.bind position v))

def close (handle : Nat) : Call (Embedded δ) Unit :=
  Call.modifyLink fun d => { d with statements := d.statements.erase handle }

end Embedded

namespace Library

open Embedded

variable {δ κ α : Type} (L : Library δ κ)

/-- Prepares a statement, which must compile. -/
def prepare (handle : Nat) (sql : String) : Call (Embedded δ) Unit := do
  discard <| onData (L.compile sql)
  Call.modifyLink fun d => { d with statements := d.statements.put handle (.ofBody sql) }

def setTimeout : Option Nat → Call δ Unit
  | some millis => L.setWait millis
  | none => pure ()

/-- Binds values to the given positions. -/
def bindAll (s : κ) : List (Nat × Value) → Except NativeFault κ
  | [] => .ok s
  | (position, v) :: rest => do
    let s ← L.bind s position v.plain
    bindAll s rest

/-- Binds values to the positions from one on. -/
def enter (s : κ) (values : List Value) : Except NativeFault κ :=
  L.bindAll s ((values.zipIdx 1).map Prod.swap)

/-- The number of rows that are read at most. -/
def rowCap (maxRows : Option UInt64) : Nat :=
  match maxRows with
  | some n => n.toNat
  | none => UInt64.size - 1

/-- The rows of a statement up to a limit. Nothing is run where none are asked for, and an error behind
the limit does not show. -/
def readRows (s : κ) (cap : Nat) : Call δ (List (List Value)) := do
  if cap = 0 then pure []
  else
    let (rows, ending) ← L.query s
    if cap ≤ rows.length then pure (rows.take cap)
    else
      match ending with
      | none => pure rows
      | some fault => Flow.fail fault

/-- Executes a statement with the values bound to it. -/
def execute (handle : Nat) : Call (Embedded δ) Reply := do
  let p ← statement handle
  onData do
    L.setTimeout p.timeout
    let s ← L.compile p.body
    let s ← Flow.ofExcept (L.bindAll s p.bound)
    match L.columns s with
    | [] =>
      let count ← L.run s
      pure (.count (UInt64.ofNat count))
    | columns =>
      let rows ← L.readRows s (rowCap p.maxRows)
      pure (.rows ⟨none, columns, rows, none⟩)

/-! ### Batches -/

/-- Work inside a savepoint, which is undone unless it comes to its end. -/
def inSavepoint (c : Call δ α) : Call δ α := do
  L.savepoint
  Flow.orUndo (fun w => { w with link := L.rollback w.link }) do
    let a ← c
    L.release
    pure a

/-- Runs a statement for each entry. Positions that an entry has no value for keep theirs. -/
def runEntries (s : κ) : (entries : List (List Value)) → Call δ (List UInt64)
  | [] => pure []
  | entry :: entries => do
    let s ← Flow.ofExcept (L.enter s entry)
    let count ← L.run s
    let counts ← runEntries s entries
    pure (UInt64.ofNat count :: counts)

/-- Executes a batch, of which nothing remains if an entry fails. -/
def executeBatch (handle : Nat) (entries : List (List Value)) : Call (Embedded δ) (List UInt64) := do
  let p ← statement handle
  onData do
    L.setTimeout p.timeout
    L.inSavepoint do
      let s ← L.compile p.body
      L.runEntries s entries

/-! ### The database -/

def backend : Backend (Embedded δ) where
  prepare := L.prepare
  bind := Embedded.bind
  clearBindings handle := modifyStatement handle (·.clear)
  execute := L.execute
  executeBatch := L.executeBatch
  limitRows handle n := modifyStatement handle fun p => { p with maxRows := n }
  timeout handle d := (d.statements.get? handle).bind (·.timeout)
  limitTime handle n := modifyStatement handle fun p => { p with timeout := n }
  fetch _ := pure ()
  close := Embedded.close

end Library

end NamedSql
