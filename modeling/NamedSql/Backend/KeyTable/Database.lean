import NamedSql.Backend.KeyTable.Command
import NamedSql.Backend.Library

/-!
# A database with one table

The table as a library, and as a database for sessions. Savepoints and transactions keep the table as it
was when they began, and rolling back restores it.
-/

namespace NamedSql

/-- The table, its former states where a transaction and the savepoints in it began, the last one first,
and the number of rows that the last change changed. -/
structure KeyStore where
  table : KeyTable
  begun : Option KeyTable
  savepoints : List KeyTable
  changed : Nat
deriving Repr

namespace KeyTable

/-- A compiled statement with the values of its placeholders. -/
structure Compiled where
  command : Command
  values : List Value
deriving Repr

namespace Compiled

/-- Where no value is bound there is NULL. -/
def ofCommand (command : Command) : Compiled :=
  ⟨command, List.replicate command.width .null⟩

def outOfRange : NativeFault :=
  ⟨none, 25, "column index out of range"⟩

/-- A floating point number that is none is NULL to the database. -/
def store (v : Value) : Value :=
  match v with
  | .float x => if x.isNaN then .null else .float x
  | v => v

def bind (s : Compiled) (position : Nat) (v : Value) : Except NativeFault Compiled :=
  if position = 0 ∨ s.values.length < position then .error outOfRange
  else .ok { s with values := s.values.set (position - 1) (store v) }

def columns (s : Compiled) : List String :=
  match s.command with
  | .query q => q.columns
  | _ => []

end Compiled

end KeyTable

open KeyTable

namespace KeyStore

def empty : KeyStore :=
  ⟨[], none, [], 0⟩

/-! ### Transactions -/

/-- The table as it was when the transaction began. A savepoint outside of a transaction begins one. -/
def transaction (d : KeyStore) : Option KeyTable :=
  d.begun.or d.savepoints.getLast?

/-- The control of transactions. Their ends end all savepoints. -/
def control (d : KeyStore) : Command → Except NativeFault KeyStore
  | .begin =>
    if d.transaction.isSome then .error ⟨none, 1, "cannot start a transaction within a transaction"⟩
    else .ok { d with begun := some d.table }
  | .commit =>
    if d.transaction.isSome then .ok { d with begun := none, savepoints := [] }
    else .error ⟨none, 1, "cannot commit - no transaction is active"⟩
  | .rollback =>
    match d.transaction with
    | some table => .ok { d with table, begun := none, savepoints := [] }
    | none => .error ⟨none, 1, "cannot rollback - no transaction is active"⟩
  | _ => .ok d

def savepoint : Call KeyStore Unit :=
  Call.modifyLink fun d => { d with savepoints := d.table :: d.savepoints }

def release : Call KeyStore Unit := do
  match ← Call.readLink KeyStore.savepoints with
  | _ :: rest => Call.modifyLink fun d => { d with savepoints := rest }
  | [] => Flow.fail ⟨none, 1, "no such savepoint: _rusqlite_sp"⟩

/-- Without a savepoint there is nothing to undo. -/
def undo (d : KeyStore) : KeyStore :=
  match d.savepoints with
  | table :: rest => { d with table, savepoints := rest }
  | [] => d

/-! ### Statements -/

/-- The longest time, in milliseconds, that the database can be made to wait. -/
def longestWait : Nat :=
  2147483647

def setWait (millis : Nat) : Call KeyStore Unit :=
  if longestWait < millis then Flow.overflow else pure ()

/-- Takes over the table behind a change and the number of its rows. A failure leaves the table and
changes no rows. -/
def settle (result : Except NativeFault (Nat × KeyTable)) : Call KeyStore Nat :=
  match result with
  | .ok (count, table) => do
    Call.modifyLink fun d => { d with table, changed := count }
    pure count
  | .error fault => do
    Call.modifyLink fun d => { d with changed := 0 }
    Flow.fail fault

/-- Runs a statement. One that is not a change counts what the last change counted. -/
def run (s : Compiled) : Call KeyStore Nat := do
  let d ← Call.readLink id
  match s.command with
  | .change c => settle (d.table.change c s.values)
  | .query q =>
    let rows ← Flow.ofExcept (q.run d.table s.values)
    Flow.require rows.isEmpty ⟨none, -1, "Execute returned results - did you mean to call query?"⟩
    pure d.changed
  | command =>
    let d ← Flow.ofExcept (d.control command)
    Call.modifyLink fun _ => d
    pure d.changed

def query (s : Compiled) : Call KeyStore (List (List Value) × Option NativeFault) := do
  let d ← Call.readLink id
  match s.command with
  | .query q =>
    let rows ← Flow.ofExcept (q.run d.table s.values)
    pure (rows, none)
  | _ => pure ([], none)

def library : Library KeyStore Compiled where
  setWait := setWait
  compile sql := Compiled.ofCommand <$> Flow.ofExcept (Command.ofSql sql)
  bind := Compiled.bind
  columns := Compiled.columns
  run := run
  query := query
  savepoint := savepoint
  release := release
  rollback := undo

end KeyStore

/-! ### The database -/

abbrev KeyDatabase := Embedded KeyStore

namespace KeyDatabase

def empty : KeyDatabase :=
  ⟨KeyStore.empty, []⟩

def backend : Backend KeyDatabase :=
  KeyStore.library.backend

end KeyDatabase

end NamedSql
