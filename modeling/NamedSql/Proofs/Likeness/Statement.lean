import NamedSql.Statement.Action
import NamedSql.Proofs.Likeness.Session
import NamedSql.Proofs.Steady

/-!
# Statements on databases that are alike

Actions on a statement end in the same way on databases that are alike, and leave the same statement and
the same memos.
-/

namespace NamedSql

open NamedSql.Flow

variable {σ τ α : Type} {r : σ → τ → Prop} {b : Backend σ} {c : Backend τ}

/-- The same statement and the same memos on lines that are alike. -/
structure Desk.Alike (r : σ → τ → Prop) (d : Desk σ) (e : Desk τ) : Prop where
  statement : d.statement = e.statement
  memos : d.memos = e.memos
  line : d.line.Alike r e.line

def Desk.onto (f : τ → σ) (d : Desk τ) : Desk σ :=
  ⟨d.statement, d.memos, d.line.onto f⟩

theorem Desk.alike_onto_iff {f : τ → σ} {d : Desk σ} {v : Desk τ} :
    d.Alike (fun s t => s = f t) v ↔ d = v.onto f := by
  constructor
  · obtain ⟨statement, memos, line⟩ := d
    rintro ⟨rfl, rfl, hline⟩
    obtain rfl := Line.alike_onto_iff.1 hline
    rfl
  · rintro rfl
    exact ⟨rfl, rfl, Line.alike_onto_iff.2 rfl⟩

/-- Desks with lines that are alike, which stay related however their lines go on alike under their settings. -/
structure Desk.Lined (r : σ → τ → Prop) (R : Desk σ → Desk τ → Prop) : Prop where
  line : ∀ {α : Type} {m : Dialog σ α} {n : Dialog τ α}, Flow.Alike (Line.Alike r) m n → Dialog.Settled m →
    Flow.Alike R (Statement.onLine m) (Statement.onLine n)

theorem Statement.alike_limitTime (h : b.Alike r c) (handle : Nat) (budget : TimeLimit.Budget) :
    Flow.Alike (World.Alike r) (limitTime b handle budget) (limitTime c handle budget) := by
  cases budget with
  | left millis =>
    refine Call.alike_modifyLink fun l m hl => ?_
    rw [h.timeout handle l m hl]
    exact h.limitTime _ _ _ _ hl
  | _ => exact .pure _

namespace Desk.Lined

open Statement

variable {R : Desk σ → Desk τ → Prop} (hR : Lined r R)
include hR

theorem session : Flow.Alike R session session := hR.line Dialog.alike_session (.read _)

theorem now : Flow.Alike R (onLine Dialog.now) (onLine Dialog.now) := hR.line Dialog.alike_now (.read _)

theorem record (e : Event) : Flow.Alike R (onLine (Dialog.record e)) (onLine (Dialog.record e)) :=
  hR.line (Dialog.alike_record e) (.record e)

theorem recordEnd (activity : Activity) (count : Option UInt64) :
    Flow.Alike R (recordEnd activity count) (recordEnd activity count) := hR.record _

theorem budget : Flow.Alike R budget budget :=
  hR.session.bind fun _ => hR.now.bind fun _ => .ofCalendar _

theorem checkTime (sql : String) (parameters : Option String) :
    Flow.Alike R (checkTime sql parameters) (checkTime sql parameters) := by
  refine hR.budget.bind fun left => ?_
  cases left with
  | exhausted => exact .fail _
  | _ => exact .pure _

theorem readOut {m : Cursor.Reading σ α} {n : Cursor.Reading τ α} (h : Flow.Alike (Cursor.OnAlike r) m n)
    (cur : Cursor) : Flow.Alike R (readOut cur m) (readOut cur n) := by
  have huse : Flow.Alike (Line.Alike r) (fun l => ((cur.use m l).1, (cur.use m l).2.2))
      (fun l => ((cur.use n l).1, (cur.use n l).2.2)) := fun l l' hl =>
    have ⟨hr, _, hline⟩ := Cursor.use_alike h cur hl
    ⟨hr, hline⟩
  exact hR.line huse fun _ => rfl

theorem callInTime (h : b.Alike r c) (handle : Nat) (sql : String) (parameters : Option String) {m : Call σ α}
    {n : Call τ α} (hm : Flow.Alike (World.Alike r) m n) :
    Flow.Alike R (callInTime b handle sql parameters m) (callInTime c handle sql parameters n) := by
  refine hR.session.bind fun s => hR.budget.bind fun before => ?_
  split
  · exact .fail _
  · have hcall : Flow.Alike (World.Alike r) (limitTime b handle before >>= fun _ => m)
        (limitTime c handle before >>= fun _ => n) := (alike_limitTime h handle before).bind fun _ => hm
    refine (hR.line (Session.alike_withHandle handle hcall) (Session.settled_withHandle handle _)).bind fun result => ?_
    refine hR.budget.bind fun after => ?_
    cases result with
    | ok a =>
      dsimp only
      split
      · exact .fail _
      · exact .pure _
    | error fault =>
      dsimp only
      split
      · exact .fail _
      · exact .fail _

end Desk.Lined

namespace Statement

theorem alike_statement : Flow.Alike (Desk.Alike r) statement statement := .read fun _ _ h => h.statement

theorem alike_memos : Flow.Alike (Desk.Alike r) (Flow.read Desk.memos : Work σ _) (Flow.read Desk.memos) :=
  .read fun _ _ h => h.memos

theorem alike_modifyStatement (f : Statement → Statement) :
    Flow.Alike (Desk.Alike r) (modifyStatement f) (modifyStatement f) :=
  .modify fun _ _ h => ⟨congrArg f h.statement, h.memos, h.line⟩

theorem alike_onLine {m : Dialog σ α} {n : Dialog τ α} (h : Flow.Alike (Line.Alike r) m n) :
    Flow.Alike (Desk.Alike r) (onLine m) (onLine n) :=
  .within h (fun _ _ hd => hd.line) fun _ _ _ _ hd hl => ⟨hd.statement, hd.memos, hl⟩

theorem lined_alike : Desk.Lined r (Desk.Alike r) := ⟨fun h _ => alike_onLine h⟩

theorem alike_session : Flow.Alike (Desk.Alike r) session session := lined_alike.session

theorem alike_now : Flow.Alike (Desk.Alike r) (onLine Dialog.now) (onLine Dialog.now) := lined_alike.now

theorem alike_record (e : Event) :
    Flow.Alike (Desk.Alike r) (onLine (Dialog.record e)) (onLine (Dialog.record e)) := lined_alike.record e

theorem alike_checkOpen : Flow.Alike (Desk.Alike r) checkOpen checkOpen :=
  alike_statement.bind fun _ => .require _ _

theorem alike_resolve : Flow.Alike (Desk.Alike r) resolve resolve :=
  alike_statement.bind fun _ => alike_now.bind fun _ => (Flow.Alike.ofOutcome _).bind fun _ =>
    (Flow.Alike.ofExcept _).bind fun _ => .pure _

theorem alike_checkTime (sql : String) (parameters : Option String) :
    Flow.Alike (Desk.Alike r) (checkTime sql parameters) (checkTime sql parameters) :=
  lined_alike.checkTime sql parameters

theorem alike_shownParameters (text : String) :
    Flow.Alike (Desk.Alike r) (shownParameters text) (shownParameters text) :=
  alike_session.bind fun _ => .pure _

theorem alike_recordStart (activity : Activity) (sql : String) (parameters : Option String)
    (window : Option Window) :
    Flow.Alike (Desk.Alike r) (recordStart activity sql parameters window)
      (recordStart activity sql parameters window) :=
  alike_statement.bind fun _ => alike_record _

theorem alike_recordEnd (activity : Activity) (count : Option UInt64) :
    Flow.Alike (Desk.Alike r) (recordEnd activity count) (recordEnd activity count) :=
  lined_alike.recordEnd activity count

theorem alike_readOut {m : Cursor.Reading σ α} {n : Cursor.Reading τ α}
    (h : Flow.Alike (Cursor.OnAlike r) m n) (cur : Cursor) :
    Flow.Alike (Desk.Alike r) (readOut cur m) (readOut cur n) := lined_alike.readOut h cur

theorem alike_store (use : MemoUse) (memo : Memo) (key : MemoKey) (table : Table) :
    Flow.Alike (Desk.Alike r) (store use memo key table) (store use memo key table) :=
  alike_now.bind fun _ => (Flow.Alike.ofCalendar _).bind fun _ => (Flow.Alike.ofExcept _).bind fun _ =>
    Flow.Alike.within (S := Eq) (.modify fun _ _ h => congrArg (List.set · use.memo _) h)
      (fun _ _ hd => hd.memos) fun _ _ _ _ hd hm => ⟨hd.statement, hm, hd.line⟩

theorem alike_addBatch : Flow.Alike (Desk.Alike r) addBatch addBatch := by
  refine alike_checkOpen.bind fun _ => alike_resolve.bind fun resolved => alike_statement.bind fun st => ?_
  dsimp only
  cases st.batch with
  | nil => exact alike_modifyStatement _
  | cons first rest => exact (Flow.Alike.require _ _).bind fun _ => alike_modifyStatement _

variable (h : b.Alike r c)
include h

/-! ### Handles -/

theorem alike_prepareFor (sql : String) : Flow.Alike (Desk.Alike r) (prepareFor b sql) (prepareFor c sql) :=
  (alike_onLine (Session.alike_openHandle h sql)).bind fun _ => (alike_modifyStatement _).bind fun _ => .pure _

theorem alike_ensureHandle (sql : String) :
    Flow.Alike (Desk.Alike r) (ensureHandle b sql) (ensureHandle c sql) := by
  refine alike_statement.bind fun st => ?_
  rcases st.handle with _ | ⟨handle, prepared⟩
  · exact alike_prepareFor h sql
  · dsimp only
    cases prepared == sql with
    | true => exact .pure _
    | false =>
      exact (alike_modifyStatement _).bind fun _ => (alike_onLine (Session.alike_release h _ _)).bind fun _ =>
        alike_prepareFor h sql

theorem alike_prepareNew : Flow.Alike (Desk.Alike r) (prepareNew b) (prepareNew c) := by
  refine alike_statement.bind fun st => alike_session.bind fun s => ?_
  cases st.template.hasSequences with
  | true => exact .pure _
  | false => exact (alike_ensureHandle h _).discard

theorem alike_create (template : Template) (page : Option Page) :
    Flow.Alike (Line.Alike r) (create b template page) (create c template page) := by
  refine Session.alike_checkOpen.bind fun _ => Dialog.alike_session.bind fun s => ?_
  intro l l' hl
  let st := ofTemplate s.vendor template page
  have hdesk : Desk.Alike r ⟨st, [], l⟩ ⟨st, [], l'⟩ := ⟨rfl, rfl, hl⟩
  obtain ⟨hr, hd⟩ := alike_prepareNew h hdesk
  refine ⟨?_, hd.line⟩
  show Outcome.map _ _ = Outcome.map _ _
  rw [hr, hd.statement]

theorem alike_close : Flow.Alike (Desk.Alike r) (close b) (close c) := by
  refine alike_statement.bind fun st => ?_
  cases st.closed with
  | true => exact .pure _
  | false =>
    refine (alike_modifyStatement _).bind fun _ => ?_
    rcases st.handle with _ | ⟨handle, sql⟩
    · exact .pure _
    · exact alike_onLine (Session.alike_release h _ _)

theorem alike_drop : Flow.Alike (Desk.Alike r) (drop b) (drop c) := by
  refine (alike_close h).attempt.bind fun result => ?_
  cases result with
  | ok u => exact .pure _
  | error e => exact alike_statement.bind fun _ => alike_record _

/-! ### Executions -/

theorem alike_callInTime (handle : Nat) (sql : String) (parameters : Option String) {m : Call σ α}
    {n : Call τ α} (hm : Flow.Alike (World.Alike r) m n) :
    Flow.Alike (Desk.Alike r) (callInTime b handle sql parameters m) (callInTime c handle sql parameters n) :=
  lined_alike.callInTime h handle sql parameters hm

theorem alike_execute (handle : Nat) (values : List Value) (maxRows : Option UInt64) :
    Flow.Alike (World.Alike r) (execute b handle values maxRows) (execute c handle values maxRows) :=
  (Call.alike_modifyLink (h.clearBindings handle)).bind fun _ => (h.bindFrom handle 1 values).bind fun _ =>
    (Call.alike_modifyLink (h.limitRows handle maxRows)).bind fun _ => h.execute handle

theorem alike_run (activity : Activity) (bindings : Bindings) (filled : Filled) (window : Option Window) :
    Flow.Alike (Desk.Alike r) (run b activity bindings filled window) (run c activity bindings filled window) :=
  alike_statement.bind fun _ => alike_session.bind fun _ => (Flow.Alike.ofExcept _).bind fun _ =>
    (alike_shownParameters _).bind fun _ => (alike_checkTime _ _).bind fun _ =>
      (alike_ensureHandle h _).bind fun _ => (alike_recordStart _ _ _ _).bind fun _ =>
        (alike_callInTime h _ _ _ (alike_execute h _ _ _)).bind fun _ => .pure _

theorem alike_openCursor (activity : Activity) (bindings : Bindings) (filled : Filled) (window : Window) :
    Flow.Alike (Desk.Alike r) (openCursor b activity bindings filled window)
      (openCursor c activity bindings filled window) :=
  alike_session.bind fun _ => (alike_run h _ _ _ _).bind fun _ => .pure _

/-! ### Operations -/

theorem alike_fetch (bindings : Bindings) (filled : Filled) (window : Window) :
    Flow.Alike (Desk.Alike r) (fetch b bindings filled window) (fetch c bindings filled window) :=
  (alike_openCursor h _ _ _ _).bind fun cur => (alike_readOut (Cursor.alike_readAll h) cur).bind fun _ =>
    (alike_recordEnd _ _).bind fun _ => .pure _

theorem alike_fetchMemo (window : Window) (page : Option Page) :
    Flow.Alike (Desk.Alike r) (fetchMemo b window page) (fetchMemo c window page) := by
  refine alike_statement.bind fun st => alike_resolve.bind fun resolved => alike_memos.bind fun memos => ?_
  dsimp only
  cases st.memo.bind fun use => (memos[use.memo]?).map (use, ·) with
  | none => exact alike_fetch h _ _ _
  | some found =>
    refine alike_now.bind fun now => (Flow.Alike.ofExcept _).bind fun table => ?_
    cases table with
    | some table => exact (alike_record _).bind fun _ => .pure _
    | none => exact (alike_fetch h _ _ _).bind fun _ => (alike_store _ _ _ _).bind fun _ => .pure _

theorem alike_retrieve : Flow.Alike (Desk.Alike r) (retrieve b) (retrieve c) :=
  alike_checkOpen.bind fun _ => alike_statement.bind fun _ => alike_fetchMemo h _ _

theorem alike_retrieveRange (start count : UInt64) :
    Flow.Alike (Desk.Alike r) (retrieveRange b start count) (retrieveRange c start count) :=
  alike_checkOpen.bind fun _ => alike_statement.bind fun _ => (Flow.Alike.require _ _).bind fun _ =>
    (Flow.Alike.ofExcept _).bind fun _ => alike_fetchMemo h _ _

theorem alike_retrieveFirst : Flow.Alike (Desk.Alike r) (retrieveFirst b) (retrieveFirst c) :=
  alike_checkOpen.bind fun _ => alike_statement.bind fun _ => alike_resolve.bind fun _ =>
    (alike_openCursor h _ _ _ _).bind fun cur => (alike_readOut (Cursor.alike_nextRow h) cur).bind fun _ =>
      (alike_recordEnd _ _).bind fun _ => .pure _

theorem alike_query : Flow.Alike (Desk.Alike r) (query b) (query c) :=
  alike_checkOpen.bind fun _ => alike_statement.bind fun _ => alike_resolve.bind fun _ =>
    (alike_openCursor h _ _ _ _).bind fun _ => (alike_recordEnd _ _).bind fun _ => .pure _

theorem alike_update : Flow.Alike (Desk.Alike r) (update b) (update c) :=
  alike_checkOpen.bind fun _ => alike_resolve.bind fun _ => (alike_run h _ _ _ _).bind fun _ =>
    (alike_recordEnd _ _).bind fun _ => .pure _

theorem alike_executeBatch : Flow.Alike (Desk.Alike r) (executeBatch b) (executeBatch c) := by
  refine alike_checkOpen.bind fun _ => alike_statement.bind fun st => ?_
  split
  · exact .pure _
  · exact alike_session.bind fun _ => (Flow.Alike.ofExcept _).bind fun _ =>
      (alike_shownParameters _).bind fun _ => (alike_checkTime _ _).bind fun _ =>
        (alike_ensureHandle h _).bind fun handle => (alike_recordStart _ _ _ _).bind fun _ =>
          (alike_callInTime h _ _ _ (h.executeBatch handle _)).bind fun _ =>
            (alike_modifyStatement _).bind fun _ => (alike_recordEnd _ _).bind fun _ => .pure _

theorem alike_countRow (vendor : Vendor) (handle : Nat) (sql : String) (parameters : Option String)
    (values : List Value) :
    Flow.Alike (Desk.Alike r) (countRow b vendor handle sql parameters values)
      (countRow c vendor handle sql parameters values) := by
  have hcall := (h.bindFrom handle 1 values).bind fun _ => h.execute handle
  refine (alike_callInTime h handle sql parameters hcall).bind fun reply => ?_
  cases reply with
  | rows feed => exact alike_readOut (Cursor.alike_nextRow h) _
  | count n => exact .pure _

theorem alike_count : Flow.Alike (Desk.Alike r) (count b) (count c) :=
  alike_checkOpen.bind fun _ => alike_statement.bind fun _ => alike_resolve.bind fun _ =>
    alike_session.bind fun _ => (Flow.Alike.ofExcept _).bind fun _ => (alike_shownParameters _).bind fun _ =>
      (alike_checkTime _ _).bind fun _ => (alike_onLine (Session.alike_openHandle h _)).bind fun handle =>
        (alike_recordStart _ _ _ _).bind fun _ => (alike_countRow h _ handle _ _ _).attempt.bind fun _ =>
          (alike_onLine (Session.alike_release h handle _)).attempt.bind fun _ =>
            (alike_onLine (Session.alike_settle _ _ _)).bind fun _ => (Flow.Alike.ofExcept _).bind fun _ =>
              (alike_recordEnd _ _).bind fun _ => .pure _

theorem alike_perform (action : Action) : Flow.Alike (Desk.Alike r) (action.perform b) (action.perform c) := by
  cases action with
  | bind key p =>
    exact (alike_checkOpen.bind fun _ => alike_modifyStatement _).bind fun _ =>
      alike_statement.bind fun _ => .pure _
  | bindAll other =>
    exact (alike_checkOpen.bind fun _ => alike_modifyStatement _).bind fun _ =>
      alike_statement.bind fun _ => .pure _
  | clearBindings => exact (alike_modifyStatement _).bind fun _ => .pure _
  | retrieve => exact (alike_retrieve h).map _
  | retrieveRange start limit => exact (alike_retrieveRange h _ _).map _
  | retrieveFirst => exact (alike_retrieveFirst h).map _
  | query => exact (alike_query h).map _
  | update => exact (alike_update h).map _
  | count => exact (alike_count h).map _
  | addBatch => exact alike_addBatch.bind fun _ => alike_statement.bind fun _ => .pure _
  | executeBatch => exact (alike_executeBatch h).map _
  | close => exact (alike_close h).bind fun _ => .pure _

end Statement

end NamedSql
