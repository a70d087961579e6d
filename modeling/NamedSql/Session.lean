import NamedSql.Backend
import NamedSql.Event
import NamedSql.Settings

/-!
# Sessions

A session owns a connection: the handles that are open on it, the transaction that runs on it, and the
record of what happened. Everything that it does is a `Dialog`, work on the session, the connection and
the record together.
-/

namespace NamedSql

structure Session where
  name : String
  settings : Settings
  handles : List Nat
  nextHandle : Nat
  transaction : Option (Option TimeLimit)
  terminated : Bool
deriving DecidableEq, Repr

namespace Session

/-- A session at its start. -/
def start (name : String) (settings : Settings) : Session :=
  ⟨name, settings, [], 0, none, false⟩

/-- A new session, if its settings can be used. -/
def create (name : String) (settings : Settings) : Except Failure Session :=
  settings.validate.map (start name)

def vendor (s : Session) : Vendor :=
  s.settings.vendor

def inTransaction (s : Session) : Bool :=
  s.transaction.isSome

/-- The time limit of the running transaction. -/
def timeLimit (s : Session) : Option TimeLimit :=
  s.transaction.join

end Session

/-- A session with its connection and the record of events. -/
structure Line (σ : Type) where
  session : Session
  world : World σ
  log : List Event

namespace Line

variable {σ : Type}

/-- The world of a line as a part of it. -/
def worldPart : Part (Line σ) (World σ) :=
  ⟨Line.world, fun w l => { l with world := w }⟩

end Line

abbrev Dialog (σ α : Type) := Flow Failure (Line σ) α

namespace Dialog

variable {σ α : Type}

def session : Dialog σ Session :=
  Flow.read Line.session

def modifySession (f : Session → Session) : Dialog σ Unit :=
  Flow.modify fun l => { l with session := f l.session }

def now : Dialog σ Instant :=
  Flow.read fun l => l.world.now

def record (e : Event) : Dialog σ Unit :=
  Flow.modify fun l => { l with log := l.log ++ [e] }

/-- A call on the database, with its error caught. -/
def call (c : Call σ α) : Dialog σ (Except NativeFault α) :=
  Flow.within Line.worldPart c.attempt

end Dialog

namespace Session

open Dialog

variable {σ : Type} (b : Backend σ)

/-- Fails on a session that is over. -/
def checkOpen : Dialog σ Unit := do
  let s ← session
  Flow.require (!s.terminated) (.state (.sessionTerminated s.name))

/-! ### Handles -/

/-- Prepares a statement and enters its handle. -/
def prepareHandle (sql : String) : Dialog σ Nat := do
  let s ← session
  match ← call (b.prepare s.nextHandle sql) with
  | .error fault => Flow.fail (s.vendor.failure sql none fault)
  | .ok () =>
    modifySession fun s =>
      { s with handles := s.handles ++ [s.nextHandle], nextHandle := s.nextHandle + 1 }
    record ⟨.debug, "opened statement handle",
      [("context", .text s.name), ("handle", .number s.nextHandle)]⟩
    pure s.nextHandle

def openHandle (sql : String) : Dialog σ Nat := do
  checkOpen
  prepareHandle b sql

/-- Calls on a statement whose handle is open. -/
def withHandle {α : Type} (handle : Nat) (c : Call σ α) : Dialog σ (Except NativeFault α) := do
  let s ← session
  Flow.require (s.handles.contains handle) (.state (.handleGone handle s.name))
  call c

/-- Closes a statement and gives up its handle, which is gone even if closing fails. A handle that is
gone already stays so. -/
def release (handle : Nat) (sql : String) : Dialog σ Unit := do
  let s ← session
  if s.handles.contains handle then
    modifySession fun s => { s with handles := s.handles.erase handle }
    match ← call (b.close handle) with
    | .ok () => pure ()
    | .error fault => Flow.fail (s.vendor.failure sql none fault)

/-! ### Statements without parameters -/

/-- The first row of an execution, if it gives rows. -/
def executeFirst (handle : Nat) : Call σ (Option (List Value)) := do
  match ← b.execute handle with
  | .rows feed =>
    let (row, _) ← b.nextRow feed
    pure row
  | .count _ => pure none

/-- Gives a result of work on a handle that had to be closed after it. The first of two failures
counts, and the second one is only recorded, by the given event. -/
def settle {α : Type} (result : Except Failure α) (closed : Except Failure Unit)
    (note : Failure → Event) : Dialog σ α :=
  match result, closed with
  | .ok a, .ok () => pure a
  | .ok _, .error e => Flow.fail e
  | .error e, .ok () => Flow.fail e
  | .error e, .error e' => do
    record (note e')
    Flow.fail e

/-- Prepares, executes and closes a statement on a session that may be over; gives the first row. -/
def runUnchecked (sql : String) : Dialog σ (Option (List Value)) := do
  let handle ← prepareHandle b sql
  let s ← session
  let row ← withHandle handle (executeFirst b handle)
  let row := row.mapError (s.vendor.failure sql none)
  let closed ← (release b handle sql).attempt
  settle row closed fun e =>
    ⟨.warn, "failed to close statement after error",
      [("context", .text s.name), ("error", .text e.message)]⟩

def run (sql : String) : Dialog σ (Option (List Value)) := do
  checkOpen
  runUnchecked b sql

/-- Shows that the connection is alive. -/
def ping : Dialog σ Unit := do
  let s ← session
  discard <| run b s.vendor.probeSql

/-- The next value of a sequence. -/
def nextValue (sequence : String) : Dialog σ Int64 := do
  let s ← session
  match s.vendor.nextValueSql? sequence with
  | none => Flow.fail (.usage (.noSequences s.vendor))
  | some sql =>
    match ← run b sql with
    | none => Flow.fail (.state (.noSequenceRow sql))
    | some row =>
      match ← Flow.ofExcept (Vendor.ofStorage (row.headD .null) .integer) with
      | .integer n => pure n
      | _ => Flow.fail (.state (.nullSequence sql))

/-! ### Transactions -/

/-- Begins a transaction, with a time limit in seconds if one is given here or in the settings. -/
def begin (seconds : Option Int) : Dialog σ Unit := do
  checkOpen
  let s ← session
  let seconds := seconds <|> s.settings.timeout
  match seconds with
  | some n => Flow.ofExcept (checkTimeout n)
  | none => pure ()
  Flow.require (!s.inTransaction) (.usage (.transactionRunning s.name))
  match s.vendor.beginSql? with
  | some sql => discard <| run b sql
  | none => pure ()
  let start ← now
  let limit ←
    match seconds with
    | some n => do
      let span ← Flow.ofCalendar (spanOfSeconds? n)
      pure (some ⟨start, span⟩)
    | none => pure none
  record ⟨.debug, "transaction started",
    ("context", .text s.name) :: Event.detail? "timeout_secs" (seconds.map .number)⟩
  modifySession fun s => { s with transaction := some limit }

/-- Ends the transaction with a statement. It is over even if that fails. -/
def finish (sql : String) : Dialog σ Unit := do
  let s ← session
  Flow.require s.inTransaction (.usage (.noTransaction sql s.name))
  modifySession fun s => { s with transaction := none }
  record ⟨.debug, sql, [("context", .text s.name)]⟩
  discard <| run b sql

/-- The instant at which the time of the running transaction is over, if its time is limited. -/
def expiry : Dialog σ (Option Instant) := do
  let s ← session
  match s.timeLimit with
  | none => pure none
  | some t => some <$> Flow.ofCalendar t.expiry?

def commit : Dialog σ Unit :=
  finish b "COMMIT"

def rollback : Dialog σ Unit :=
  finish b "ROLLBACK"

/-- Work within a transaction, committed if it succeeds and rolled back if it fails. The work may be
on a larger state of which the line is a part. -/
def withTransaction {τ α : Type} (line : Part τ (Line σ)) (seconds : Option Int)
    (body : Flow Failure τ α) : Flow Failure τ α := do
  Flow.within line (begin b seconds)
  match ← body.attempt with
  | .ok a =>
    Flow.within line (commit b)
    pure a
  | .error e =>
    match ← (Flow.within line (rollback b)).attempt with
    | .ok () => pure ()
    | .error e' =>
      Flow.within line do
        let s ← session
        record ⟨.warn, "rollback failed after error",
          [("context", .text s.name), ("error", .text e'.message)]⟩
    Flow.fail e

/-! ### Termination -/

/-- What stands for the SQL when a handle is closed. -/
def closeText (handle : Nat) : String :=
  "<close handle " ++ toString handle ++ ">"

/-- Closes handles that were given up; the first failure is kept and later ones are recorded. -/
def closeAll (first : Option Failure) : List Nat → Dialog σ (Option Failure)
  | [] => pure first
  | handle :: rest => do
    match ← call (b.close handle) with
    | .ok () => closeAll first rest
    | .error fault =>
      let e : Failure := .access ⟨closeText handle, none, fault⟩
      match first with
      | none => closeAll (some e) rest
      | some _ =>
        let s ← session
        record ⟨.warn, "failed to close statement handle",
          [("context", .text s.name), ("handle", .number handle), ("error", .text e.message)]⟩
        closeAll first rest

/-- Rolls back the transaction, closes all handles and refuses further work. Every step is tried, and
the first failure is the one that counts. -/
def terminate : Dialog σ Unit := do
  let s ← session
  if !s.terminated then
    modifySession fun s => { s with terminated := true, transaction := none }
    let rolledBack ←
      if s.inTransaction then (runUnchecked b "ROLLBACK").attempt
      else pure (.ok none)
    let first :=
      match rolledBack with
      | .ok _ => none
      | .error e => some e
    let handles := (← session).handles
    modifySession fun s => { s with handles := [] }
    record ⟨.debug, "terminating context",
      [("context", .text s.name), ("open", .number handles.length),
        ("rolled_back", .flag s.inTransaction)]⟩
    match ← closeAll b first handles with
    | none => pure ()
    | some e => Flow.fail e

/-- Terminates a session that is given up; a failure is only recorded. -/
def drop : Dialog σ Unit := do
  match ← (terminate b).attempt with
  | .ok () => pure ()
  | .error e =>
    let s ← session
    record ⟨.warn, "failed to terminate connection context",
      [("context", .text s.name), ("error", .text e.message)]⟩

end Session

end NamedSql
