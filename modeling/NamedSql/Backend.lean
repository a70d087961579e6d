import NamedSql.Failure
import NamedSql.Flow

/-!
# Databases as sessions see them

A `Backend` prepares statements, binds values to their placeholders, executes them and closes them. A
statement goes by the handle under which it was prepared. What a database does may depend on anything
in its connection and may change it, and time may pass with every call.
-/

namespace NamedSql

/-- A connection and the clock beside it. -/
structure World (σ : Type) where
  link : σ
  now : Instant

/-- A call on a database. -/
abbrev Call (σ α : Type) := Flow NativeFault (World σ) α

/-- The rows of an execution that are still to be read, and the error, if any, that comes after
them. Rows that are read through a statement need it to be open; others are in memory. -/
structure Feed where
  handle : Option Nat
  columns : List String
  rows : List (List Value)
  ending : Option NativeFault
deriving Repr

/-- No rows at all. -/
def Feed.empty : Feed :=
  ⟨none, [], [], none⟩

/-- What an execution gives. -/
inductive Reply where
  | rows (feed : Feed)
  | count (n : UInt64)
deriving Repr

/-- A database. Times are in milliseconds, placeholders count from 1. -/
structure Backend (σ : Type) where
  /-- Prepares a statement under a handle that is not in use. -/
  prepare : (handle : Nat) → (sql : String) → Call σ Unit
  bind : (handle position : Nat) → Value → Call σ Unit
  clearBindings : (handle : Nat) → σ → σ
  execute : (handle : Nat) → Call σ Reply
  /-- Executes a statement once for each entry; gives a count of changes for each. -/
  executeBatch : (handle : Nat) → (entries : List (List Value)) → Call σ (List UInt64)
  /-- Limits the rows that an execution produces. -/
  limitRows : (handle : Nat) → Option UInt64 → σ → σ
  timeout : (handle : Nat) → σ → Option Nat
  limitTime : (handle : Nat) → Option Nat → σ → σ
  /-- Called before each row is read through a statement. -/
  fetch : (handle : Nat) → Call σ Unit
  close : (handle : Nat) → Call σ Unit

namespace World

variable {σ : Type}

/-- The connection of a world as a part of it. -/
def linkPart : Part (World σ) σ :=
  ⟨World.link, fun l w => { w with link := l }⟩

end World

namespace Call

variable {σ α : Type}

/-- What a function makes of the connection. -/
def readLink (f : σ → α) : Call σ α :=
  Flow.read fun w => f w.link

def modifyLink (f : σ → σ) : Call σ Unit :=
  Flow.modify fun w => { w with link := f w.link }

/-- Lets time pass; within the calendar it may also run backwards. -/
def pass (millis : Int) : Call σ Unit := do
  let now ← Flow.read World.now
  let now ← Flow.ofCalendar (now.add? millis)
  Flow.modify fun w => { w with now }

end Call

namespace Backend

variable {σ : Type} (b : Backend σ)

/-- The next row of a feed, if there is one, and the feed behind it. -/
def nextRow (feed : Feed) : Call σ (Option (List Value) × Feed) := do
  match feed.handle with
  | some handle => b.fetch handle
  | none => pure ()
  match feed.rows with
  | r :: rows => pure (some r, { feed with rows })
  | [] =>
    match feed.ending with
    | none => pure (none, feed)
    | some fault => Flow.fail fault

/-- Binds values to the placeholders from a position on. -/
def bindFrom (handle : Nat) : (position : Nat) → List Value → Call σ Unit
  | _, [] => pure ()
  | position, v :: values => do
    b.bind handle position v
    bindFrom handle (position + 1) values

/-- Executes the entries of a batch one after another, up to the first failure. -/
def executeEntries (handle : Nat) : List (List Value) → Call σ (List UInt64)
  | [] => pure []
  | entry :: entries => do
    Call.modifyLink (b.clearBindings handle)
    b.bindFrom handle 1 entry
    let count ←
      match ← b.execute handle with
      | .count n => pure n
      | .rows _ => pure 0
    let counts ← executeEntries handle entries
    pure (count :: counts)

/-- A batch for databases that know none: its entries one after another, which is all or nothing only
within a transaction. -/
def executeEach (handle : Nat) (entries : List (List Value)) : Call σ (List UInt64) := do
  let counts ← b.executeEntries handle entries
  Call.modifyLink (b.clearBindings handle)
  pure counts

/-- Up to `count` further rows of a feed. -/
def readFeed : (count : Nat) → Feed → Call σ (List (List Value))
  | 0, _ => pure []
  | count + 1, feed => do
    match ← b.nextRow feed with
    | (none, _) => pure []
    | (some row, feed) =>
      let rows ← readFeed count feed
      pure (row :: rows)

/-- What a statement gave that was executed once: the reply, all its rows, and the timeout that was in
force. -/
structure Trial where
  reply : Reply
  rows : List (List Value)
  timeout : Option Nat
deriving Repr

/-- Binds values to the given positions. -/
def bindEach (handle : Nat) : List (Nat × Value) → Call σ Unit
  | [] => pure ()
  | (position, v) :: rest => do
    b.bind handle position v
    bindEach handle rest

/-- Prepares a statement, executes it once, reads all rows and closes it. -/
def runOnce (handle : Nat) (sql : String) (values : List (Nat × Value)) (maxRows : Option UInt64)
    (timeout : Option Nat) : Call σ Trial := do
  b.prepare handle sql
  b.bindEach handle values
  Call.modifyLink (b.limitRows handle maxRows)
  Call.modifyLink (b.limitTime handle timeout)
  let reply ← b.execute handle
  let rows ←
    match reply with
    | .rows feed => b.readFeed (feed.rows.length + 1) feed
    | .count _ => pure []
  let timeout ← Call.readLink (b.timeout handle)
  b.close handle
  pure ⟨reply, rows, timeout⟩

end Backend

end NamedSql
