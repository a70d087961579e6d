import NamedSql.Cursor
import NamedSql.Proofs.Flow

/-!
# Databases that are alike

Two databases are alike if on related connections, at the same time, their calls end in the same way and
leave related connections. Reading rows cannot tell such databases apart.
-/

namespace NamedSql

open NamedSql.Flow

variable {σ τ : Type} {r : σ → τ → Prop}

/-- Related connections at the same time. -/
structure World.Alike (r : σ → τ → Prop) (w : World σ) (v : World τ) : Prop where
  link : r w.link v.link
  now : w.now = v.now

/-- Databases that do the same on related connections. -/
structure Backend.Alike (r : σ → τ → Prop) (b : Backend σ) (c : Backend τ) : Prop where
  prepare : ∀ handle sql, Flow.Alike (World.Alike r) (b.prepare handle sql) (c.prepare handle sql)
  bind : ∀ handle position v, Flow.Alike (World.Alike r) (b.bind handle position v) (c.bind handle position v)
  clearBindings : ∀ handle l m, r l m → r (b.clearBindings handle l) (c.clearBindings handle m)
  execute : ∀ handle, Flow.Alike (World.Alike r) (b.execute handle) (c.execute handle)
  executeBatch : ∀ handle entries,
    Flow.Alike (World.Alike r) (b.executeBatch handle entries) (c.executeBatch handle entries)
  limitRows : ∀ handle n l m, r l m → r (b.limitRows handle n l) (c.limitRows handle n m)
  timeout : ∀ handle l m, r l m → b.timeout handle l = c.timeout handle m
  limitTime : ∀ handle n l m, r l m → r (b.limitTime handle n l) (c.limitTime handle n m)
  fetch : ∀ handle, Flow.Alike (World.Alike r) (b.fetch handle) (c.fetch handle)
  close : ∀ handle, Flow.Alike (World.Alike r) (b.close handle) (c.close handle)

/-- The same session on related connections, with the same events. -/
structure Line.Alike (r : σ → τ → Prop) (l : Line σ) (l' : Line τ) : Prop where
  session : l.session = l'.session
  world : l.world.Alike r l'.world
  log : l.log = l'.log

/-- A world on the connection that stands behind another one. -/
def World.onto (f : τ → σ) (w : World τ) : World σ :=
  ⟨f w.link, w.now⟩

def Line.onto (f : τ → σ) (l : Line τ) : Line σ :=
  ⟨l.session, l.world.onto f, l.log⟩

theorem Line.alike_onto_iff {f : τ → σ} {l : Line σ} {v : Line τ} :
    l.Alike (fun s t => s = f t) v ↔ l = v.onto f := by
  constructor
  · obtain ⟨session, ⟨link, now⟩, log⟩ := l
    rintro ⟨rfl, ⟨rfl, rfl⟩, rfl⟩
    rfl
  · rintro rfl
    exact ⟨rfl, ⟨rfl, rfl⟩, rfl⟩

variable {b : Backend σ} {c : Backend τ} {α : Type}

/-! ### Calls -/

theorem Call.alike_modifyLink {f : σ → σ} {g : τ → τ} (h : ∀ l m, r l m → r (f l) (g m)) :
    Flow.Alike (World.Alike r) (Call.modifyLink f) (Call.modifyLink g) :=
  .modify fun _ _ hw => ⟨h _ _ hw.link, hw.now⟩

theorem Call.alike_pass (millis : Int) : Flow.Alike (World.Alike r) (Call.pass millis) (Call.pass millis) :=
  (Flow.Alike.read fun _ _ hw => hw.now).bind fun _ => (Flow.Alike.ofCalendar _).bind fun _ =>
    .modify fun _ _ hw => ⟨hw.link, rfl⟩

/-- A call does on a connection what another one does on the connection in front of it. -/
theorem Call.alike_behind {f : τ → σ} {c : Call σ α} {c' : Call τ α}
    (h : ∀ w, c (w.onto f) = ((c' w).1, (c' w).2.onto f)) : Flow.Alike (World.Alike fun l m => l = f m) c c' := by
  rintro ⟨l, now⟩ w ⟨hlink, hnow⟩
  obtain rfl : l = f w.link := hlink
  obtain rfl : now = w.now := hnow
  rw [show c ⟨f w.link, w.now⟩ = _ from h w]
  exact ⟨rfl, rfl, rfl⟩

namespace Backend.Alike

variable (h : b.Alike r c)
include h

theorem nextRow (feed : Feed) : Flow.Alike (World.Alike r) (b.nextRow feed) (c.nextRow feed) := by
  obtain ⟨_ | handle, columns, _ | ⟨row, rows⟩, _ | fault⟩ := feed
  · exact .pure _
  · exact .fail _
  · exact .pure _
  · exact .pure _
  · exact (h.fetch handle).bind fun _ => .pure _
  · exact (h.fetch handle).bind fun _ => .fail _
  · exact (h.fetch handle).bind fun _ => .pure _
  · exact (h.fetch handle).bind fun _ => .pure _

theorem bindFrom (handle position : Nat) (values : List Value) :
    Flow.Alike (World.Alike r) (b.bindFrom handle position values) (c.bindFrom handle position values) := by
  induction values generalizing position with
  | nil => exact .pure _
  | cons v values ih => exact (h.bind handle position v).bind fun _ => ih _

theorem executeEntries (handle : Nat) (entries : List (List Value)) :
    Flow.Alike (World.Alike r) (b.executeEntries handle entries) (c.executeEntries handle entries) := by
  induction entries with
  | nil => exact .pure _
  | cons entry entries ih =>
    refine (Call.alike_modifyLink (h.clearBindings handle)).bind fun _ => (h.bindFrom handle 1 entry).bind fun _ => ?_
    refine (h.execute handle).bind fun reply => ?_
    cases reply with
    | count n => exact (Flow.Alike.pure _).bind fun _ => ih.bind fun _ => .pure _
    | rows feed => exact (Flow.Alike.pure _).bind fun _ => ih.bind fun _ => .pure _

theorem executeEach (handle : Nat) (entries : List (List Value)) :
    Flow.Alike (World.Alike r) (b.executeEach handle entries) (c.executeEach handle entries) :=
  (h.executeEntries handle entries).bind fun _ =>
    (Call.alike_modifyLink (h.clearBindings handle)).bind fun _ => .pure _

theorem executeFirst (handle : Nat) :
    Flow.Alike (World.Alike r) (Session.executeFirst b handle) (Session.executeFirst c handle) := by
  refine (h.execute handle).bind fun reply => ?_
  cases reply with
  | rows feed => exact (h.nextRow feed).bind fun _ => .pure _
  | count n => exact .pure _

end Backend.Alike

/-! ### Cursors -/

namespace Cursor

/-- The same cursor on related connections. -/
structure OnAlike (r : σ → τ → Prop) (s : Cursor × World σ) (t : Cursor × World τ) : Prop where
  cursor : s.1 = t.1
  world : s.2.Alike r t.2

theorem alike_cursor : Flow.Alike (OnAlike r) cursor cursor := .read fun _ _ h => h.cursor

theorem alike_modifyCursor (f : Cursor → Cursor) :
    Flow.Alike (OnAlike r) (modifyCursor f) (modifyCursor f) :=
  .modify fun _ _ h => ⟨congrArg f h.cursor, h.world⟩

section
variable (h : b.Alike r c)
include h

theorem alike_readRow : Flow.Alike (OnAlike r) (readRow b) (readRow c) := by
  refine alike_cursor.bind fun c => ?_
  refine (Flow.Alike.within (h.nextRow c.feed).attempt (fun _ _ hs => hs.world)
    fun _ _ _ _ hs hw => ⟨hs.cursor, hw⟩).bind fun result => ?_
  cases result with
  | ok result => exact (alike_modifyCursor _).bind fun _ => .pure _
  | error fault => exact (alike_modifyCursor _).bind fun _ => .fail _

theorem alike_skipRows (count : Nat) : Flow.Alike (OnAlike r) (skipRows b count) (skipRows c count) := by
  induction count with
  | zero => exact .pure _
  | succ count ih =>
    refine (alike_readRow h).bind fun row => ?_
    cases row with
    | none => exact .pure _
    | some row => exact (alike_modifyCursor _).bind fun _ => ih

theorem alike_nextRow : Flow.Alike (OnAlike r) (nextRow b) (nextRow c) := by
  refine alike_cursor.bind fun cur => ?_
  cases cur.finished || cur.remaining == some 0 with
  | true => exact .pure _
  | false =>
    refine (alike_skipRows h _).bind fun found => ?_
    cases found with
    | false => exact .pure _
    | true =>
      refine (alike_readRow h).bind fun row => ?_
      cases row with
      | none => exact .pure _
      | some row => exact (alike_modifyCursor _).bind fun _ => .pure _

theorem alike_readRows (count : Nat) : Flow.Alike (OnAlike r) (readRows b count) (readRows c count) := by
  induction count with
  | zero => exact .pure _
  | succ count ih =>
    refine (alike_nextRow h).bind fun row => ?_
    cases row with
    | none => exact .pure _
    | some row => exact ih.bind fun _ => .pure _

theorem alike_readAll : Flow.Alike (OnAlike r) (readAll b) (readAll c) :=
  alike_cursor.bind fun _ => (alike_readRows h _).bind fun _ => .pure _

end

/-- A cursor is used alike on lines that are alike. -/
theorem use_alike {m : Reading σ α} {n : Reading τ α} (h : Flow.Alike (OnAlike r) m n) (c : Cursor)
    {l : Line σ} {l' : Line τ} (hl : l.Alike r l') :
    (c.use m l).1 = (c.use n l').1 ∧ (c.use m l).2.1 = (c.use n l').2.1 ∧
      (c.use m l).2.2.Alike r (c.use n l').2.2 := by
  obtain ⟨hr, hs⟩ := h (s := (c, l.world)) (t := (c, l'.world)) ⟨rfl, hl.world⟩
  exact ⟨hr, hs.cursor, ⟨hl.session, hs.world, hl.log⟩⟩

end Cursor

end NamedSql
