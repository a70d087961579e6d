import NamedSql.Calendar
import NamedSql.Failure

/-!
# Time limits

The deadline of a transaction, and how it bounds the time that the database gives to a statement. All
spans are in milliseconds. What falls out of the calendar is `none`.
-/

namespace NamedSql

/-- A number of seconds as the time limit of a transaction: it must be positive. -/
def checkTimeout (seconds : Int) : Except Failure Unit :=
  if seconds ≤ 0 then .error (.setting (.badTimeout seconds)) else .ok ()

/-- The time limit of a transaction: when it began and how long it may take. -/
structure TimeLimit where
  start : Instant
  span : Int
deriving DecidableEq, Repr

namespace TimeLimit

/-- The instant from which on statements fail. -/
def expiry? (t : TimeLimit) : Option Instant :=
  t.start.add? t.span

/-- The time that is left at `now`, negative after the expiry. -/
def remaining? (t : TimeLimit) (now : Instant) : Option Int :=
  t.expiry?.map (·.since now)

def isExpired? (t : TimeLimit) (now : Instant) : Option Bool :=
  (t.remaining? now).map (· ≤ 0)

/-- The time that is left for one execution. -/
inductive Budget where
  | unlimited
  | left (millis : Nat)
  | exhausted
deriving DecidableEq, Repr

/-- The budget under a limit, if there is one. -/
def budget? (limit : Option TimeLimit) (now : Instant) : Option Budget :=
  match limit with
  | none => some .unlimited
  | some t => (t.remaining? now).map fun n => if 0 < n then .left n.toNat else .exhausted

/-- The timeout of a statement when `left` milliseconds remain: a shorter one is kept. -/
def tighten (current : Option Nat) (left : Nat) : Nat :=
  match current with
  | some n => if n ≤ left then n else left
  | none => left

end TimeLimit

end NamedSql
