/-!
# Work on a state

A `Flow` reads and changes a state and ends in one of three ways. A failure can be caught; an instant
that falls out of the calendar, or a time that is too long, ends everything at once. In all cases the
state stays as it was left.
-/

namespace NamedSql

/-- How work ends. -/
inductive Outcome (ε α : Type) where
  | done (value : α)
  | failed (cause : ε)
  | overflow
deriving Repr

namespace Outcome

def map {ε α β : Type} (f : α → β) : Outcome ε α → Outcome ε β
  | done a => done (f a)
  | failed e => failed e
  | overflow => overflow

def ofExcept {ε α : Type} : Except ε α → Outcome ε α
  | .ok a => done a
  | .error e => failed e

end Outcome

/-- A part of a state, to be read and to be replaced. -/
structure Part (σ τ : Type) where
  get : σ → τ
  set : τ → σ → σ

/-- Work on a state `σ` with failures `ε`. -/
def Flow (ε σ α : Type) : Type :=
  σ → Outcome ε α × σ

namespace Flow

variable {ε σ τ α β : Type}

protected def pure (a : α) : Flow ε σ α :=
  fun s => (.done a, s)

protected def bind (m : Flow ε σ α) (f : α → Flow ε σ β) : Flow ε σ β := fun s =>
  match m s with
  | (.done a, s) => f a s
  | (.failed e, s) => (.failed e, s)
  | (.overflow, s) => (.overflow, s)

instance : Monad (Flow ε σ) where
  pure := Flow.pure
  bind := Flow.bind

/-- Ends with a failure. -/
def fail (e : ε) : Flow ε σ α :=
  fun s => (.failed e, s)

/-- Ends because a time is beyond all limits. -/
def overflow : Flow ε σ α :=
  fun s => (.overflow, s)

/-- What a function makes of the state. -/
def read (f : σ → α) : Flow ε σ α :=
  fun s => (.done (f s), s)

def modify (f : σ → σ) : Flow ε σ Unit :=
  fun s => (.done (), f s)

def ofOutcome (r : Outcome ε α) : Flow ε σ α :=
  fun s => (r, s)

def ofExcept (r : Except ε α) : Flow ε σ α :=
  ofOutcome (.ofExcept r)

/-- What must lie within the calendar. -/
def ofCalendar (r : Option α) : Flow ε σ α := fun s =>
  match r with
  | some a => (.done a, s)
  | none => (.overflow, s)

/-- Fails unless the condition holds. -/
def require (condition : Bool) (e : ε) : Flow ε σ Unit :=
  if condition then Flow.pure () else fail e

/-- Catches failures. -/
def attempt {ε' : Type} (m : Flow ε σ α) : Flow ε' σ (Except ε α) := fun s =>
  match m s with
  | (.done a, s) => (.done (.ok a), s)
  | (.failed e, s) => (.done (.error e), s)
  | (.overflow, s) => (.overflow, s)

/-- Undoes what work left that did not come to its end. -/
def orUndo (undo : σ → σ) (m : Flow ε σ α) : Flow ε σ α := fun s =>
  match m s with
  | (.done a, s) => (.done a, s)
  | (r, s) => (r, undo s)

/-- Work on a part of the state. -/
def within (part : Part σ τ) (m : Flow ε τ α) : Flow ε σ α := fun s =>
  match m (part.get s) with
  | (r, t) => (r, part.set t s)

end Flow

end NamedSql
