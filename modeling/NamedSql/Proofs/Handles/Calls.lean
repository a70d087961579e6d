import NamedSql.Statement.Execution
import NamedSql.Proofs.Ledger

/-!
# Calls on recorded databases

What a call on a recorded database does with handles: nothing, or it uses one of them some number of
times.
-/

namespace NamedSql

open NamedSql.Flow

variable {σ : Type} {b : Backend σ}

/-- A record that goes on after `es` with uses of one handle. -/
def Touched (handle : Nat) (es : List HandleEvent) (w : World (Recorded σ)) : Prop :=
  ∃ n, w.link.events = es ++ List.replicate n (.used handle)

/-- Calls that use one handle and do nothing else with handles. -/
def Uses {α : Type} (handle : Nat) (c : Call (Recorded σ) α) : Prop :=
  ∀ es, Keeps (Touched handle es) c

/-- Calls that do nothing with handles. -/
def Silent {α : Type} (c : Call (Recorded σ) α) : Prop :=
  ∀ es, Keeps (fun w => w.link.events = es) c

namespace Recorded

variable {α : Type} {w : World (Recorded σ)}

theorem events_append (l : σ) (es : List Entry) (e : Entry) :
    (Recorded.mk l (es ++ [e])).events = (Recorded.mk l es).events ++ e.event?.toList := by
  unfold events
  rw [List.filterMap_append]
  cases h : e.event? with
  | none => rw [List.filterMap_cons_none h]; rfl
  | some x => rw [List.filterMap_cons_some h]; rfl

theorem events_changed {request : Request} {e : HandleEvent} (f : σ → σ) (r : Recorded σ)
    (h : Entry.event? ⟨request, none⟩ = some e) : (changed request f r).events = r.events ++ [e] := by
  have hevents := events_append (f r.link) r.entries ⟨request, none⟩
  rw [h] at hevents
  exact hevents

theorem wp_events {Q : α → World (Recorded σ) → Prop} {E : NativeFault → World (Recorded σ) → Prop}
    (request : Request) (c : Call σ α)
    (hQ : ∀ a v, v.link.events = w.link.events ++ (Entry.event? ⟨request, none⟩).toList → Q a v)
    (hE : ∀ e v, v.link.events = w.link.events ++ (Entry.event? ⟨request, some e⟩).toList → E e v) :
    wp (entered request c) Q E w :=
  wp_entered request c (fun a _ => hQ a _ (events_append _ _ _)) fun e _ => hE e _ (events_append _ _ _)

end Recorded

section
variable {α : Type} {handle : Nat}

theorem Silent.entered (request : Request) (c : Call σ α)
    (h : ∀ fault, Entry.event? ⟨request, fault⟩ = none) :
    Silent (Recorded.entered request c) := by
  rintro _ w rfl
  refine Recorded.wp_events request c (fun a v hv => ?_) fun e v hv => ?_
  · rwa [h, Option.toList_none, List.append_nil] at hv
  · rwa [h, Option.toList_none, List.append_nil] at hv

theorem Silent.uses {c : Call (Recorded σ) α} (hc : Silent c) : Uses handle c := by
  rintro es w ⟨n, hw⟩
  exact wp_mono (hc _ w hw) (fun _ _ h => ⟨n, h⟩) fun _ _ h => ⟨n, h⟩

theorem Touched.again {es : List HandleEvent} {w v : World (Recorded σ)} (hw : Touched handle es w)
    (hv : v.link.events = w.link.events ++ [.used handle]) : Touched handle es v := by
  obtain ⟨n, hw⟩ := hw
  refine ⟨n + 1, ?_⟩
  rw [hv, hw, List.append_assoc, List.replicate_succ']

namespace Uses

theorem bind {β : Type} {c : Call (Recorded σ) β} {f : β → Call (Recorded σ) α} (hc : Uses handle c)
    (hf : ∀ x, Uses handle (f x)) : Uses handle (c >>= f) :=
  fun es => (hc es).bind fun x => hf x es

theorem pure (a : α) : Uses handle (Pure.pure a : Call (Recorded σ) α) := fun _ => Keeps.pure a

theorem entered (request : Request) (c : Call σ α)
    (h : ∀ fault, Entry.event? ⟨request, fault⟩ = some (.used handle)) :
    Uses handle (Recorded.entered request c) := by
  intro es w hw
  refine Recorded.wp_events request c (fun a v hv => ?_) fun e v hv => ?_
  · rw [h] at hv; exact hw.again hv
  · rw [h] at hv; exact hw.again hv

theorem modify {f : Recorded σ → Recorded σ} (hf : ∀ r, (f r).events = r.events ++ [.used handle]) :
    Uses handle (Call.modifyLink f) :=
  fun _ => Keeps.modify fun w hw => hw.again (hf w.link)

end Uses

end

/-! ### Single calls -/

section
variable {w : World (Recorded σ)} {E : NativeFault → World (Recorded σ) → Prop}
  {Q : Unit → World (Recorded σ) → Prop}

theorem wp_prepare (handle : Nat) (sql : String)
    (hQ : ∀ v, v.link.events = w.link.events ++ [.opened handle] → Q () v)
    (hE : ∀ e v, v.link.events = w.link.events → E e v) : wp (b.recorded.prepare handle sql) Q E w :=
  Recorded.wp_events _ _ (fun _ v hv => hQ v hv) fun e v hv => hE e v (hv.trans (List.append_nil _))

theorem wp_close (handle : Nat) (hQ : ∀ v, v.link.events = w.link.events ++ [.closed handle] → Q () v)
    (hE : ∀ e v, v.link.events = w.link.events ++ [.closed handle] → E e v) :
    wp (b.recorded.close handle) Q E w :=
  Recorded.wp_events _ _ (fun _ v hv => hQ v hv) fun e v hv => hE e v hv

end

section
variable {handle : Nat}

theorem uses_clearBindings : Uses handle (Call.modifyLink (b.recorded.clearBindings handle)) :=
  .modify fun r => Recorded.events_changed _ r rfl

theorem uses_limitRows (n : Option UInt64) : Uses handle (Call.modifyLink (b.recorded.limitRows handle n)) :=
  .modify fun r => Recorded.events_changed _ r rfl

theorem uses_bind (position : Nat) (v : Value) : Uses handle (b.recorded.bind handle position v) :=
  .entered _ _ fun _ => rfl

theorem uses_execute : Uses handle (b.recorded.execute handle) := .entered _ _ fun _ => rfl

theorem uses_executeBatch (entries : List (List Value)) :
    Uses handle (b.recorded.executeBatch handle entries) := .entered _ _ fun _ => rfl

theorem silent_fetch : Silent (b.recorded.fetch handle) := .entered _ _ fun _ => rfl

theorem uses_bindFrom (position : Nat) (values : List Value) :
    Uses handle (b.recorded.bindFrom handle position values) := by
  induction values generalizing position with
  | nil => exact .pure _
  | cons v values ih => exact (uses_bind position v).bind fun _ => ih _

theorem silent_nextRow (feed : Feed) : Silent (b.recorded.nextRow feed) := by
  intro es
  obtain ⟨_ | handle, columns, _ | ⟨r, rows⟩, _ | fault⟩ := feed
  · exact .pure _
  · exact .fail _
  · exact .pure _
  · exact .pure _
  · exact (silent_fetch es).bind fun _ => .pure _
  · exact (silent_fetch es).bind fun _ => .fail _
  · exact (silent_fetch es).bind fun _ => .pure _
  · exact (silent_fetch es).bind fun _ => .pure _

theorem uses_executeFirst : Uses handle (Session.executeFirst b.recorded handle) := by
  refine uses_execute.bind fun reply => ?_
  cases reply with
  | rows feed => exact (silent_nextRow feed).uses.bind fun _ => .pure _
  | count n => exact .pure _

theorem uses_limitTime (budget : TimeLimit.Budget) :
    Uses handle (Statement.limitTime b.recorded handle budget) := by
  cases budget with
  | left millis =>
    have hlimit (n : Option Nat) (r : Recorded σ) :
        (b.recorded.limitTime handle n r).events = r.events ++ [.used handle] :=
      Recorded.events_changed _ r rfl
    exact .modify fun r => hlimit (some (TimeLimit.tighten (b.timeout handle r.link) millis)) r
  | _ => exact .pure _

theorem uses_executeWith (values : List Value) (maxRows : Option UInt64) :
    Uses handle (Statement.execute b.recorded handle values maxRows) := by
  refine uses_clearBindings.bind fun _ => (uses_bindFrom 1 values).bind fun _ => ?_
  exact (uses_limitRows maxRows).bind fun _ => uses_execute

end

/-! ### Reading rows -/

namespace Cursor

/-- Work with a cursor that does nothing with handles. -/
def Silent {α : Type} (m : Reading (Recorded σ) α) : Prop :=
  ∀ es, Keeps (fun s => s.2.link.events = es) m

theorem silent_modifyCursor (f : Cursor → Cursor) : Silent (σ := σ) (modifyCursor f) :=
  fun _ => .modify fun _ h => h

theorem silent_readRow : Silent (readRow b.recorded) := by
  intro es
  refine (Keeps.read _).bind fun c => Keeps.bind ?_ fun r => ?_
  · exact Keeps.within fun s h => (silent_nextRow c.feed es).attempt s.2 h
  · cases r with
    | ok r => exact (silent_modifyCursor _ es).bind fun _ => .pure _
    | error fault => exact (silent_modifyCursor _ es).bind fun _ => .fail _

theorem silent_skipRows (count : Nat) : Silent (skipRows b.recorded count) := by
  intro es
  induction count with
  | zero => exact .pure _
  | succ count ih =>
    refine (silent_readRow es).bind fun row => ?_
    cases row with
    | none => exact .pure _
    | some row => exact (silent_modifyCursor _ es).bind fun _ => ih

theorem silent_nextRow : Silent (nextRow b.recorded) := by
  intro es
  refine (Keeps.read _).bind fun c => ?_
  split
  · exact .pure _
  · refine (silent_skipRows _ es).bind fun found => ?_
    split
    · refine (silent_readRow es).bind fun row => ?_
      cases row with
      | none => exact .pure _
      | some row => exact (silent_modifyCursor _ es).bind fun _ => .pure _
    · exact .pure _

theorem silent_readRows (count : Nat) : Silent (readRows b.recorded count) := by
  intro es
  induction count with
  | zero => exact .pure _
  | succ count ih =>
    refine (silent_nextRow es).bind fun row => ?_
    cases row with
    | none => exact .pure _
    | some row => exact ih.bind fun _ => .pure _

theorem silent_readAll : Silent (readAll b.recorded) :=
  fun es => (Keeps.read _).bind fun _ => (silent_readRows _ es).bind fun _ => .pure _

/-- The connection behind a cursor in use has the record that it had. -/
theorem use_events {α : Type} {m : Reading (Recorded σ) α} (hm : Silent m) (c : Cursor)
    (l : Line (Recorded σ)) (h : (c.use m l).1 ≠ .overflow) :
    (c.use m l).2.2.world.link.events = l.world.link.events := by
  exact (hm _ (c, l.world) rfl).left h

end Cursor

end NamedSql
