import NamedSql.Backend
import NamedSql.Backend.Prepared

/-!
# Scripted databases

A database that answers executions with what it was told to, one answer after another, and records
what it was called with. `Script.streaming` gives rows through the open statement and cuts them to the
limit; `Script.buffered` gives them in memory and uncut, and knows no batches of its own.
-/

namespace NamedSql

/-- What an execution is answered with. -/
inductive Answer where
  | rows (columns : List String) (rows : List (List Value)) (ending : Option NativeFault)
  | count (n : UInt64)
  | fault (f : NativeFault)
deriving Repr

namespace Answer

/-- Rows of one column, the integers in a range. -/
def integers (column : String) (first last : Int) (ending : Option NativeFault) : Answer :=
  .rows [column]
    ((List.range (last + 1 - first).toNat).map fun (i : Nat) =>
      [.integer (Int64.ofInt (first + i))])
    ending

end Answer

/-- An answer and the time in milliseconds that passes before it. -/
structure Cue where
  delay : Int
  answer : Answer
deriving Repr

/-- The record of an execution. -/
structure Execution where
  sql : String
  bound : List (Nat × Value)
  maxRows : Option UInt64
  timeout : Option Nat
deriving Repr

/-- The values of an execution from the first position to the last one that is bound. -/
def Execution.values (e : Execution) : List Value :=
  Prepared.valuesUpTo e.bound (Prepared.width e.bound)

/-- The record of the execution of a batch. -/
structure BatchExecution where
  sql : String
  entries : List (List Value)
  timeout : Option Nat
deriving Repr

/-- A scripted database: what it answers, how its other calls fail, and what it recorded. -/
structure Script where
  cues : List Cue
  prepareFault : Option NativeFault
  prepareDelay : Int
  bindFault : Option (Nat × NativeFault)
  closeFault : Option NativeFault
  defaultTimeout : Option Nat
  statements : Shelf String
  prepared : List String
  executed : List Execution
  batches : List BatchExecution
  closed : Nat
deriving Repr

namespace Script

def empty : Script where
  cues := []
  prepareFault := none
  prepareDelay := 0
  bindFault := none
  closeFault := none
  defaultTimeout := none
  statements := []
  prepared := []
  executed := []
  batches := []
  closed := 0

/-- Adds an answer behind those that wait. -/
def push (s : Script) (c : Cue) : Script :=
  { s with cues := s.cues ++ [c] }

/-- What was recorded since an earlier state of the same database. -/
def since (s earlier : Script) : Script :=
  { s with
    prepared := s.prepared.drop earlier.prepared.length
    executed := s.executed.drop earlier.executed.length
    batches := s.batches.drop earlier.batches.length }

/-! ### Calls -/

def unknownHandle : NativeFault :=
  ⟨none, 21, "no statement has this handle"⟩

/-- The statement of a handle. -/
def statement (handle : Nat) : Call Script (Prepared String) := do
  match (← Call.readLink Script.statements).get? handle with
  | some p => pure p
  | none => Flow.fail unknownHandle

def modifyStatement (handle : Nat) (f : Prepared String → Prepared String) (s : Script) : Script :=
  { s with statements := s.statements.update handle f }

/-- Prepares a statement, unless a failure is due, which is then over. -/
def prepare (handle : Nat) (sql : String) : Call Script Unit := do
  let s ← Call.readLink id
  match s.prepareFault with
  | some fault =>
    Call.modifyLink fun s => { s with prepareFault := none }
    Flow.fail fault
  | none =>
    Call.modifyLink fun s =>
      { s with
        prepared := s.prepared ++ [sql]
        statements :=
          s.statements.put handle { Prepared.ofBody sql with timeout := s.defaultTimeout } }
    Call.pass s.prepareDelay

def bind (handle position : Nat) (v : Value) : Call Script Unit := do
  Flow.require (position != 0) ⟨some "07009", 0, "placeholder index is 1-based"⟩
  match (← Call.readLink Script.bindFault) with
  | some (n, fault) => Flow.require (position != n) fault
  | none => pure ()
  Call.modifyLink (modifyStatement handle (·.bind position v))

/-- The next answer, once its time has passed; when none waits, nothing is changed. -/
def takeAnswer : Call Script Answer := do
  match ← Call.readLink Script.cues with
  | [] => pure (.count 0)
  | cue :: cues =>
    Call.modifyLink fun s => { s with cues }
    Call.pass cue.delay
    pure cue.answer

/-- Records an execution and answers it with a feed that is made from the statement. -/
def execute (feed : Prepared String → Feed → Feed) (handle : Nat) : Call Script Reply := do
  let p ← statement handle
  Call.modifyLink fun s =>
    { s with executed := s.executed ++ [⟨p.body, p.bound, p.maxRows, p.timeout⟩] }
  match ← takeAnswer with
  | .rows columns rows ending => pure (.rows (feed p ⟨none, columns, rows, ending⟩))
  | .count n => pure (.count n)
  | .fault fault => Flow.fail fault

/-- Records a batch and counts one change for each entry, unless the answer is a failure. -/
def executeBatch (handle : Nat) (entries : List (List Value)) : Call Script (List UInt64) := do
  let p ← statement handle
  Call.modifyLink fun s => { s with batches := s.batches ++ [⟨p.body, entries, p.timeout⟩] }
  match ← takeAnswer with
  | .fault fault => Flow.fail fault
  | _ => pure (entries.map fun _ => 1)

/-- Rows are read from open statements only. -/
def fetch (handle : Nat) : Call Script Unit := do
  Flow.require ((← Call.readLink Script.statements).has handle)
    ⟨none, 21, "cursor read after its statement was closed"⟩

def close (handle : Nat) : Call Script Unit := do
  match ← Call.readLink Script.closeFault with
  | some fault => Flow.fail fault
  | none =>
    Call.modifyLink fun s =>
      { s with closed := s.closed + 1, statements := s.statements.erase handle }

/-! ### Databases -/

/-- Rows up to the limit of a statement. -/
def cutRows (limit : Option UInt64) (rows : List (List Value)) : List (List Value) :=
  match limit with
  | some n => rows.take n.toNat
  | none => rows

/-- A database whose rows are fetched through the statement that gave them. -/
def streaming : Backend Script where
  prepare := prepare
  bind := bind
  clearBindings handle := modifyStatement handle (·.clear)
  execute handle :=
    execute (fun p feed =>
      { feed with handle := some handle, rows := cutRows p.maxRows feed.rows }) handle
  executeBatch := executeBatch
  limitRows handle n := modifyStatement handle fun p => { p with maxRows := n }
  timeout handle s := (s.statements.get? handle).bind (·.timeout)
  limitTime handle n := modifyStatement handle fun p => { p with timeout := n }
  fetch := fetch
  close := close

/-- A database that gives all rows at once. -/
def buffered : Backend Script :=
  let b := { streaming with execute := execute fun _ feed => feed }
  { b with executeBatch := b.executeEach }

end Script

end NamedSql
