import NamedSql.Backend.Script
import NamedSql.Proofs.Lawful
import NamedSql.Proofs.Likeness.Statement
import NamedSql.Proofs.Recording

/-!
# Watched databases

A watched database keeps everything that it is asked for, in order: each change of the connection, and
each call with the way in which it ended and the clock as it stood then. Calls that run out of the calendar
are kept as well. Watching does not show: actions on statements do what they do on the database itself
(`Statement.perform_unwatched`).
-/

namespace NamedSql

open NamedSql.Flow

/-- What was asked of a database: a change of the connection, or a call, how it ended and what the clock
read when it came back. -/
inductive Watch where
  | changed (request : Request)
  | called (request : Request) (ending : Outcome NativeFault Unit) (now : Instant)

/-- A connection with everything that was asked for on it. -/
structure Watched (σ : Type) where
  link : σ
  seen : List Watch

namespace Watched

variable {σ α : Type}

def watch (request : Request) (c : Call σ α) : Call (Watched σ) α := fun ⟨⟨link, seen⟩, now⟩ =>
  match c ⟨link, now⟩ with
  | (r, ⟨link, now⟩) => (r, ⟨⟨link, seen ++ [.called request (r.map fun _ => ()) now]⟩, now⟩)

def change (request : Request) (f : σ → σ) (r : Watched σ) : Watched σ :=
  ⟨f r.link, r.seen ++ [.changed request]⟩

end Watched

open Watched in
def Backend.watched {σ : Type} (b : Backend σ) : Backend (Watched σ) where
  prepare handle sql := watch (.prepare handle sql) (b.prepare handle sql)
  bind handle position v := watch (.bind handle position v) (b.bind handle position v)
  clearBindings handle := change (.clearBindings handle) (b.clearBindings handle)
  execute handle := watch (.execute handle) (b.execute handle)
  executeBatch handle entries := watch (.executeBatch handle entries) (b.executeBatch handle entries)
  limitRows handle n := change (.limitRows handle n) (b.limitRows handle n)
  timeout handle r := b.timeout handle r.link
  limitTime handle millis := change (.limitTime handle millis) (b.limitTime handle millis)
  fetch handle := watch (.fetch handle) (b.fetch handle)
  close handle := watch (.close handle) (b.close handle)

variable {σ α : Type} {b : Backend σ}

/-! ### Watching does not show -/

namespace Watched

def Under (l : σ) (r : Watched σ) : Prop :=
  l = r.link

theorem alike_watch (request : Request) (c : Call σ α) : Flow.Alike (World.Alike Under) c (watch request c) :=
  Call.alike_behind fun _ => rfl

end Watched

theorem Backend.alike_watched (b : Backend σ) : b.Alike Watched.Under b.watched where
  prepare _ _ := Watched.alike_watch _ _
  bind _ _ _ := Watched.alike_watch _ _
  clearBindings handle _ _ h := congrArg (b.clearBindings handle) h
  execute _ := Watched.alike_watch _ _
  executeBatch _ _ := Watched.alike_watch _ _
  limitRows handle n _ _ h := congrArg (b.limitRows handle n) h
  timeout handle _ _ h := congrArg (b.timeout handle) h
  limitTime handle n _ _ h := congrArg (b.limitTime handle n) h
  fetch _ := Watched.alike_watch _ _
  close _ := Watched.alike_watch _ _

def World.unwatched (w : World (Watched σ)) : World σ :=
  ⟨w.link.link, w.now⟩

def Line.unwatched (l : Line (Watched σ)) : Line σ :=
  ⟨l.session, l.world.unwatched, l.log⟩

def Desk.unwatched (d : Desk (Watched σ)) : Desk σ :=
  ⟨d.statement, d.memos, d.line.unwatched⟩

theorem Line.alike_unwatched_iff {l : Line σ} {v : Line (Watched σ)} :
    l.Alike Watched.Under v ↔ l = v.unwatched :=
  alike_onto_iff

theorem Desk.alike_unwatched_iff {d : Desk σ} {v : Desk (Watched σ)} :
    d.Alike Watched.Under v ↔ d = v.unwatched :=
  alike_onto_iff

theorem Statement.perform_unwatched (action : Action) {d d' : Desk (Watched σ)} {r : Outcome Failure Result}
    (h : action.perform b.watched d = (r, d')) : action.perform b d.unwatched = (r, d'.unwatched) :=
  (alike_perform b.alike_watched action).image Desk.alike_unwatched_iff h

/-! ### What is asked for -/

def Watch.request : Watch → Request
  | changed request => request
  | called request _ _ => request

/-- What was seen after `start` has `K`. -/
def Since (K : List Watch → Prop) (start : List Watch) (w : World (Watched σ)) : Prop :=
  ∃ calls, w.link.seen = start ++ calls ∧ K calls

/-- Calls that ask only for what has `R`, however they end. -/
def Asks (R : Request → Prop) (c : Call (Watched σ) α) : Prop :=
  ∀ start, Obeys (.always NativeFault (Since (fun calls => ∀ x ∈ calls, R x.request) start)) c

section
variable {R : Request → Prop} {K K' : List Watch → Prop} {start : List Watch} {w v : World (Watched σ)}

theorem Since.refl (h : K []) : Since K w.link.seen w :=
  ⟨[], (List.append_nil _).symm, h⟩

theorem Since.mono (h : Since K start w) (hK : ∀ calls, K calls → K' calls) : Since K' start w := by
  obtain ⟨calls, hseen, hcalls⟩ := h
  exact ⟨calls, hseen, hK calls hcalls⟩

theorem Since.trans (h : Since K start w) {M : List Watch → Prop} (hv : Since M w.link.seen v)
    (hK : ∀ calls more, K calls → M more → K' (calls ++ more)) : Since K' start v := by
  obtain ⟨calls, hseen, hcalls⟩ := h
  obtain ⟨more, hmore, hM⟩ := hv
  refine ⟨calls ++ more, ?_, hK calls more hcalls hM⟩
  rw [hmore, hseen, List.append_assoc]

theorem Since.concat (h : Since K start w) {x : Watch} (hv : v.link.seen = w.link.seen ++ [x])
    (hK : ∀ calls, K calls → K' (calls ++ [x])) : Since K' start v := by
  obtain ⟨calls, hseen, hcalls⟩ := h
  exact ⟨calls ++ [x], by rw [hv, hseen, List.append_assoc], hK calls hcalls⟩

theorem asked_concat {calls : List Watch} {x : Watch} (h : ∀ y ∈ calls, R y.request) (hx : R x.request) :
    ∀ y ∈ calls ++ [x], R y.request :=
  List.forall_mem_append.2 ⟨h, List.forall_mem_singleton.2 hx⟩

theorem forall_append_of {G G' H : Watch → Prop} (hG : ∀ x, G x → G' x) (hH : ∀ x, H x → G' x)
    (calls more : List Watch) (hcalls : ∀ x ∈ calls, G x) (hmore : ∀ x ∈ more, H x) :
    ∀ x ∈ calls ++ more, G' x :=
  List.forall_mem_append.2 ⟨fun x hx => hG x (hcalls x hx), fun x hx => hH x (hmore x hx)⟩

theorem ends_watch {Q : α → World (Watched σ) → Prop} {E : NativeFault → World (Watched σ) → Prop}
    {O : World (Watched σ) → Prop} (request : Request) (c : Call σ α)
    (hQ : ∀ a v, v.link.seen = w.link.seen ++ [.called request (.done ()) v.now] → Q a v)
    (hE : ∀ e v, v.link.seen = w.link.seen ++ [.called request (.failed e) v.now] → E e v)
    (hO : ∀ v, v.link.seen = w.link.seen ++ [.called request .overflow v.now] → O v) :
    ends (Watched.watch request c) Q E O w := by
  obtain ⟨⟨link, seen⟩, now⟩ := w
  unfold ends Watched.watch
  dsimp only
  rcases c ⟨link, now⟩ with ⟨a | e | _, v⟩
  · exact hQ a ⟨⟨v.link, seen ++ [.called request (.done ()) v.now]⟩, v.now⟩ rfl
  · exact hE e ⟨⟨v.link, seen ++ [.called request (.failed e) v.now]⟩, v.now⟩ rfl
  · exact hO ⟨⟨v.link, seen ++ [.called request .overflow v.now]⟩, v.now⟩ rfl

namespace Asks

theorem pure (a : α) : Asks R (Pure.pure a : Call (Watched σ) α) := fun _ => .pure a

theorem watch {request : Request} (h : R request) (c : Call σ α) : Asks R (Watched.watch request c) := by
  intro start w hw
  have hsnoc (ending : Outcome NativeFault Unit) (v : World (Watched σ))
      (hv : v.link.seen = w.link.seen ++ [.called request ending v.now]) :
      Since (fun calls => ∀ x ∈ calls, R x.request) start v :=
    hw.concat hv fun _ hcalls => asked_concat (x := .called request ending v.now) hcalls h
  exact ends_watch request c (fun _ v hv => hsnoc _ v hv) (fun _ v hv => hsnoc _ v hv) fun v hv => hsnoc _ v hv

theorem change {request : Watched σ → Request} (h : ∀ r, R (request r)) (f : Watched σ → σ) :
    Asks R (Call.modifyLink fun r => ⟨f r, r.seen ++ [.changed (request r)]⟩) := fun _ =>
  .modify fun w hw => hw.concat (x := .changed (request w.link)) rfl fun _ hcalls => asked_concat hcalls (h w.link)

/-- What is kept when requests with `R` come after it is kept by calls that ask for nothing else. -/
theorem keeps {c : Call (Watched σ) α} (hc : Asks R c)
    (hK : ∀ calls more, K calls → (∀ x ∈ more, R x.request) → K (calls ++ more)) (start : List Watch) :
    Obeys (.always NativeFault (Since K start)) c := by
  intro w hw
  have hends := hc w.link.seen w (Since.refl (List.forall_mem_nil _))
  exact ends_mono hends (fun _ _ hv => hw.trans hv hK) (fun _ _ hv => hw.trans hv hK) fun _ hv => hw.trans hv hK

end Asks

end

section
variable {R : Request → Prop} {handle : Nat}

theorem asks_prepare {sql : String} (h : R (.prepare handle sql)) : Asks R (b.watched.prepare handle sql) :=
  Asks.watch h (b.prepare handle sql)

theorem asks_clearBindings (h : R (.clearBindings handle)) :
    Asks R (Call.modifyLink (b.watched.clearBindings handle)) :=
  Asks.change (fun _ => h) fun r => b.clearBindings handle r.link

theorem asks_execute (h : R (.execute handle)) : Asks R (b.watched.execute handle) :=
  Asks.watch h (b.execute handle)

theorem asks_limitRows {n : Option UInt64} (h : R (.limitRows handle n)) :
    Asks R (Call.modifyLink (b.watched.limitRows handle n)) :=
  Asks.change (fun _ => h) fun r => b.limitRows handle n r.link

theorem asks_close (h : R (.close handle)) : Asks R (b.watched.close handle) :=
  Asks.watch h (b.close handle)

theorem asks_bindFrom (hbind : ∀ position v, R (.bind handle position v)) (position : Nat)
    (values : List Value) : Asks R (b.watched.bindFrom handle position values) :=
  fun start => b.watched.obeys_bindFrom (fun position v => Asks.watch (hbind position v) _ start) position values

theorem asks_nextRow (hfetch : ∀ handle, R (.fetch handle)) (feed : Feed) : Asks R (b.watched.nextRow feed) :=
  fun start => b.watched.obeys_nextRow (fun handle => Asks.watch (hfetch handle) _ start) feed

theorem asks_limitTime (hlimit : ∀ n, R (.limitTime handle n)) (budget : TimeLimit.Budget) :
    Asks R (Statement.limitTime b.watched handle budget) := by
  cases budget with
  | left millis =>
    -- the request depends on the timeout that the handle has
    let limit (r : Watched σ) : Option Nat := some (TimeLimit.tighten (b.timeout handle r.link) millis)
    exact Asks.change (fun r => hlimit (limit r)) fun r => b.limitTime handle (limit r) r.link
  | _ => exact .pure _

end

/-- A session at its start on a scripted database of which nothing was seen. -/
def freshLine (settings : Settings) (script : Script) : Line (Watched Script) :=
  ⟨.start "main" settings, ⟨⟨script, []⟩, .epoch⟩, []⟩

end NamedSql
