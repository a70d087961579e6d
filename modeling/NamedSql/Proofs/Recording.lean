import NamedSql.Backend
import NamedSql.Proofs.Flow

/-!
# Recorded databases

A database can be made to record what it is asked to do and how that ends. `Backend.recorded` does not
change what the database does; it only enters each request at the end of a list.
-/

namespace NamedSql

/-- What a database is asked to do. Asking for the timeout of a statement, which is only done to limit it,
does not count. -/
inductive Request where
  | prepare (handle : Nat) (sql : String)
  | bind (handle position : Nat) (v : Value)
  | clearBindings (handle : Nat)
  | execute (handle : Nat)
  | executeBatch (handle : Nat) (entries : List (List Value))
  | limitRows (handle : Nat) (n : Option UInt64)
  | limitTime (handle : Nat) (millis : Option Nat)
  | fetch (handle : Nat)
  | close (handle : Nat)
deriving Repr

/-- A request with the error that it ended in, if it did. -/
structure Entry where
  request : Request
  fault : Option NativeFault
deriving Repr

/-- A connection with the record of what was asked for on it. -/
structure Recorded (σ : Type) where
  link : σ
  entries : List Entry

namespace Recorded

variable {σ α : Type}

def worldPart : Part (World (Recorded σ)) (World σ) :=
  ⟨fun w => ⟨w.link.link, w.now⟩, fun v w => ⟨⟨v.link, w.link.entries⟩, v.now⟩⟩

/-- A change of the connection alone. -/
def lift (f : σ → σ) (r : Recorded σ) : Recorded σ :=
  { r with link := f r.link }

def enter (e : Entry) (r : Recorded σ) : Recorded σ :=
  { r with entries := r.entries ++ [e] }

def fault? : Except NativeFault α → Option NativeFault
  | .ok _ => none
  | .error fault => some fault

/-- A call that is entered when it has ended. -/
def entered (request : Request) (c : Call σ α) : Call (Recorded σ) α := do
  let r ← Flow.within worldPart c.attempt
  Call.modifyLink (enter ⟨request, fault? r⟩)
  Flow.ofExcept r

/-- A change of the connection that is entered. -/
def changed (request : Request) (f : σ → σ) (r : Recorded σ) : Recorded σ :=
  (r.lift f).enter ⟨request, none⟩

end Recorded

open Recorded in
/-- The same database with a record of what it is asked to do. -/
def Backend.recorded {σ : Type} (b : Backend σ) : Backend (Recorded σ) where
  prepare handle sql := entered (.prepare handle sql) (b.prepare handle sql)
  bind handle position v := entered (.bind handle position v) (b.bind handle position v)
  clearBindings handle := changed (.clearBindings handle) (b.clearBindings handle)
  execute handle := entered (.execute handle) (b.execute handle)
  executeBatch handle entries := entered (.executeBatch handle entries) (b.executeBatch handle entries)
  limitRows handle n := changed (.limitRows handle n) (b.limitRows handle n)
  timeout handle r := b.timeout handle r.link
  limitTime handle millis := changed (.limitTime handle millis) (b.limitTime handle millis)
  fetch handle := entered (.fetch handle) (b.fetch handle)
  close handle := entered (.close handle) (b.close handle)

namespace Recorded

open NamedSql.Flow

variable {σ α : Type} {w : World (Recorded σ)} {Q : α → World (Recorded σ) → Prop}
  {E : NativeFault → World (Recorded σ) → Prop}

theorem wp_entered (request : Request) (c : Call σ α)
    (hQ : ∀ a (v : World σ), Q a ⟨⟨v.link, w.link.entries ++ [⟨request, none⟩]⟩, v.now⟩)
    (hE : ∀ e (v : World σ), E e ⟨⟨v.link, w.link.entries ++ [⟨request, some e⟩]⟩, v.now⟩) :
    wp (entered request c) Q E w := by
  unfold entered
  rw [wp_bind, wp_within, wp_attempt]
  exact wp_of_forall (fun a v => hQ a v) fun e v => hE e v

end Recorded

end NamedSql
