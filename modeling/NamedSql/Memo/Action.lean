import NamedSql.Flow
import NamedSql.Memo

/-!
# Actions on memos

Everything that can be done with a memo and the clock beside it, as data, so that histories of a memo
can be spoken of. `Action.perform` does it.
-/

namespace NamedSql.Memo

inductive Action where
  | get (k : MemoKey)
  | put (k : MemoKey) (t : Table) (expires : Instant)
  | putDefault (k : MemoKey) (t : Table)
  | remove (k : MemoKey)
  | invalidate (statement : String)
  | clear
  | size
  | shutdown
  | pass (millis : Int)
  | setClock (millis : Int)
deriving Repr

/-- What an action gives. -/
inductive Result where
  | nothing
  | table (t : Option Table)
  | removed (found : Bool)
  | number (n : Nat)
deriving Repr

/-- A memo with its clock. -/
structure Timed where
  memo : Memo
  now : Instant
deriving Repr

abbrev Act (α : Type) := Flow Failure Timed α

variable {α : Type}

/-- What a function makes of the memo and the time, and the memo that it leaves. -/
def change (f : Memo → Instant → Except Failure (α × Memo)) : Act α := do
  let s ← Flow.read id
  let (a, memo) ← Flow.ofExcept (f s.memo s.now)
  Flow.modify fun s => { s with memo }
  pure a

/-- Stores a table for the memo's lifetime. -/
def putForLifetime (k : MemoKey) (t : Table) : Act Unit := do
  let s ← Flow.read id
  let expires ← Flow.ofCalendar (s.now.add? s.memo.lifetime)
  change fun m _ => (m.put k t expires).map ((), ·)

/-- Lets time pass; it may also run backwards. -/
def passTime (millis : Int) : Act Unit := do
  let s ← Flow.read id
  let now ← Flow.ofCalendar (s.now.add? millis)
  Flow.modify fun s => { s with now }

def Action.perform : Action → Act Result
  | get k => do
    let t ← change fun m now => (m.get now k).map (·, m)
    pure (.table t)
  | put k t expires => do
    change fun m _ => (m.put k t expires).map ((), ·)
    pure .nothing
  | putDefault k t => do
    putForLifetime k t
    pure .nothing
  | remove k => .removed <$> change fun m _ => m.remove k
  | invalidate statement => .number <$> change fun m _ => m.invalidate statement
  | clear => do
    change fun m _ => m.clear.map ((), ·)
    pure .nothing
  | size => .number <$> change fun m _ => m.size.map (·, m)
  | shutdown => do
    Flow.modify fun s => { s with memo := s.memo.shutdown }
    pure .nothing
  | pass millis => do
    passTime millis
    pure .nothing
  | setClock millis => do
    let s ← Flow.read id
    passTime (millis - s.now.millis)
    pure .nothing

end NamedSql.Memo
