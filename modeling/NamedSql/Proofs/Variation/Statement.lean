import NamedSql.Proofs.Likeness.Statement
import NamedSql.Proofs.Variation

/-!
# Statements with values that vary

On databases that answer in the same way to values that vary, actions on a statement end with results that belong
together and record the same events, as long as the settings hide parameters or no text shows the values
(`Statement.varies_perform`).
-/

namespace NamedSql

open NamedSql.Flow

variable {σ τ α : Type} {r : σ → τ → Prop} {b : Backend σ} {c : Backend τ} {V : Variation}

/-- Databases that are alike and answer in the same way to values that vary. -/
structure Backend.Blind (V : Variation) (r : σ → τ → Prop) (b : Backend σ) (c : Backend τ) : Prop
    extends b.Alike r c where
  bindVaried : ∀ handle position {x y}, V.Bound x y →
    Flow.Alike (World.Alike r) (b.bind handle position x) (c.bind handle position y)
  executeBatchVaried : ∀ handle {xs ys}, List.Forall₂ (List.Forall₂ V.Bound) xs ys →
    Flow.Alike (World.Alike r) (b.executeBatch handle xs) (c.executeBatch handle ys)

/-- Lines that are alike, and whose settings show parameters only where no text shows what varies. -/
structure Line.Varies (V : Variation) (r : σ → τ → Prop) (l : Line σ) (l' : Line τ) : Prop extends l.Alike r l' where
  masked : l.session.settings.logParameters = true → V.Masked

/-- The same statement but for the bindings, the batch and the hooks, which vary. -/
structure Statement.Varies (V : Variation) (st st' : Statement) : Prop where
  template : st.template = st'.template
  label : st.label = st'.label
  page : st.page = st'.page
  paging : st.paging = st'.paging
  handle : st.handle = st'.handle
  memo : st.memo = st'.memo
  closed : st.closed = st'.closed
  bindings : st.bindings.Varies V st'.bindings
  batch : List.Forall₂ (Filled.Varies V) st.batch st'.batch
  hooks : List.Forall₂ (Hook.Varies V) st.hooks st'.hooks

/-- Desks without memos. -/
structure Desk.Varies (V : Variation) (r : σ → τ → Prop) (d : Desk σ) (e : Desk τ) : Prop where
  statement : d.statement.Varies V e.statement
  noMemos : d.memos = []
  noMemos' : e.memos = []
  line : d.line.Varies V r e.line

/-- The same action with parameters that vary. -/
inductive Statement.Action.Varies (V : Variation) : Action → Action → Prop where
  | refl (action : Action) : Varies V action action
  | bind (key : Key) {p q : Param} : p.Varies V q → Varies V (.bind key p) (.bind key q)
  | bindAll {other other' : Bindings} : other.Varies V other' → Varies V (.bindAll other) (.bindAll other')

/-- The same result, or bindings that vary. -/
inductive Statement.Result.Varies (V : Variation) : Result → Result → Prop where
  | refl (x : Result) : Varies V x x
  | bindings {bs bs' : Bindings} : bs.Varies V bs' → Varies V (.bindings bs) (.bindings bs')

/-! ### Lines -/

theorem Line.varies_of_settled {m : Dialog σ α} {n : Dialog τ α} (h : Flow.Alike (Line.Alike r) m n)
    (hm : Dialog.Settled m) : Flow.Alike (Line.Varies V r) m n := by
  intro l l' hl
  obtain ⟨hr, hline⟩ := h hl.toAlike
  refine ⟨hr, hline, fun hlog => hl.masked ?_⟩
  rw [← hm l]
  exact hlog

namespace Statement

theorem lined_varies : Desk.Lined r (Desk.Varies V r) where
  line h hm := .within (Line.varies_of_settled h hm) (fun _ _ hd => hd.line) fun _ _ _ _ hd hl =>
    ⟨hd.statement, hd.noMemos, hd.noMemos', hl⟩

/-- What follows on a look at the statement. -/
theorem alike_statementThen {β : Type} {k : Statement → Work σ β} {k' : Statement → Work τ β}
    (h : ∀ st st', st.Varies V st' → Flow.Alike (Desk.Varies V r) (k st) (k' st')) :
    Flow.Alike (Desk.Varies V r) (statement >>= k) (statement >>= k') :=
  .readThen fun _ _ hd => h _ _ hd.statement

theorem varies_statement : Flow.Varies V (Desk.Varies V r) (Varies V) statement statement :=
  .read fun _ _ hd => hd.statement

theorem varies_modifyStatement {f g : Statement → Statement}
    (h : ∀ st st', st.Varies V st' → (f st).Varies V (g st')) :
    Flow.Alike (Desk.Varies V r) (modifyStatement f) (modifyStatement g) :=
  .modify fun _ _ hd => ⟨h _ _ hd.statement, hd.noMemos, hd.noMemos', hd.line⟩

namespace Varies

variable {st st' : Statement} {filled filled' : Filled}

theorem executableSql (h : st.Varies V st') (vendor : Vendor) (hsql : filled.sql = filled'.sql) :
    st.executableSql vendor filled.sql = st'.executableSql vendor filled'.sql := by
  rw [Statement.executableSql, Statement.executableSql, h.page, h.paging, hsql]

theorem window (h : st.Varies V st') : st.window = st'.window := by
  rw [Statement.window, Statement.window, h.page, h.paging]

end Varies

/-! ### What only looks -/

theorem varies_checkOpen : Flow.Alike (Desk.Varies V r) checkOpen checkOpen :=
  alike_statementThen fun st st' hst => by
    rw [hst.closed, hst.label]
    exact .require _ _

theorem varies_resolve :
    Flow.Varies V (Desk.Varies V r) (fun x y => x.1.Varies V y.1 ∧ x.2.Varies V y.2) resolve resolve := by
  refine varies_statement.bind fun st st' hst => lined_varies.now.thenVaries fun now => ?_
  rw [hst.template]
  exact (Flow.Varies.ofOutcome (Hook.varies_applyAll now hst.hooks hst.bindings)).bind fun _ _ hbindings =>
    (Flow.Varies.ofExcept (st'.template.varies_fill hbindings)).bind fun _ _ hfilled => .pure ⟨hbindings, hfilled⟩

theorem varies_shownParameters {text text' : String} (h : V.Masked → text = text') :
    Flow.Alike (Desk.Varies V r) (shownParameters text) (shownParameters text') := by
  intro d e hd
  refine ⟨?_, hd⟩
  show Outcome.done (if d.line.session.settings.logParameters then some text else none) =
    .done (if e.line.session.settings.logParameters then some text' else none)
  rw [← hd.line.session]
  split
  · next hlog => rw [h (hd.line.masked hlog)]
  · rfl

theorem varies_recordStart (activity : Activity) (sql : String) (parameters : Option String)
    (window : Option Window) :
    Flow.Alike (Desk.Varies V r) (recordStart activity sql parameters window)
      (recordStart activity sql parameters window) :=
  alike_statementThen fun st st' hst => by
    rw [hst.label]
    exact lined_varies.record _

theorem varies_setHandle (handle : Option (Nat × String)) :
    Flow.Alike (Desk.Varies V r) (modifyStatement fun st => { st with handle })
      (modifyStatement fun st => { st with handle }) :=
  varies_modifyStatement fun _ _ h => { h with handle := rfl }

theorem varies_addBatch : Flow.Varies V (Desk.Varies V r) Eq addBatch addBatch := by
  refine varies_checkOpen.thenVaries fun _ => varies_resolve.bind fun ⟨_, filled⟩ ⟨_, filled'⟩ ⟨_, hfilled⟩ => ?_
  refine varies_statement.bind fun st st' hst => ?_
  have hadd : Flow.Alike (Desk.Varies V r)
      (modifyStatement fun st => { st with batch := st.batch ++ [filled], bindings := Bindings.empty })
      (modifyStatement fun st => { st with batch := st.batch ++ [filled'], bindings := Bindings.empty }) :=
    varies_modifyStatement fun _ _ h =>
      { h with bindings := .empty, batch := List.rel_append h.batch (.cons hfilled .nil) }
  have hbatch := hst.batch
  generalize st.batch = x, st'.batch = y at hbatch ⊢
  cases hbatch with
  | nil => exact hadd.varies
  | cons hfirst _ =>
    dsimp only
    rw [hfirst.sql, hfilled.sql]
    exact ((Flow.Alike.require _ _).bind fun _ => hadd).varies

variable (h : b.Blind V r c)
include h

/-! ### Handles -/

theorem varies_prepareFor (sql : String) :
    Flow.Alike (Desk.Varies V r) (prepareFor b sql) (prepareFor c sql) :=
  (lined_varies.line (Session.alike_openHandle h.toAlike sql) (Session.settled_openHandle b sql)).bind fun _ =>
    (varies_setHandle _).bind fun _ => .pure _

theorem varies_release (handle : Nat) (sql : String) :
    Flow.Alike (Desk.Varies V r) (onLine (Session.release b handle sql)) (onLine (Session.release c handle sql)) :=
  lined_varies.line (Session.alike_release h.toAlike handle sql) (Session.settled_release b handle sql)

theorem varies_ensureHandle (sql : String) :
    Flow.Alike (Desk.Varies V r) (ensureHandle b sql) (ensureHandle c sql) := by
  refine alike_statementThen fun st st' hst => ?_
  rw [hst.handle]
  rcases st'.handle with _ | ⟨handle, prepared⟩
  · exact varies_prepareFor h sql
  · dsimp only
    cases prepared == sql with
    | true => exact .pure _
    | false =>
      exact (varies_setHandle none).bind fun _ => (varies_release h handle prepared).bind fun _ =>
        varies_prepareFor h sql

theorem varies_close : Flow.Alike (Desk.Varies V r) (close b) (close c) := by
  refine alike_statementThen fun st st' hst => ?_
  rw [hst.closed, hst.handle]
  cases st'.closed with
  | true => exact .pure _
  | false =>
    refine Flow.Alike.bind (varies_modifyStatement ?_) fun _ => ?_
    · exact fun _ _ h => { h with closed := rfl, bindings := .empty, batch := .nil, handle := rfl }
    · rcases st'.handle with _ | ⟨handle, sql⟩
      · exact .pure _
      · exact varies_release h handle sql

theorem varies_drop : Flow.Alike (Desk.Varies V r) (drop b) (drop c) := by
  refine (varies_close h).attempt.bind fun result => ?_
  cases result with
  | ok u => exact .pure _
  | error e =>
    refine alike_statementThen fun st st' hst => ?_
    rw [hst.label]
    exact lined_varies.record _

/-! ### Executions -/

theorem varies_bindFrom (handle position : Nat) {xs ys : List Value} (hxs : List.Forall₂ V.Bound xs ys) :
    Flow.Alike (World.Alike r) (b.bindFrom handle position xs) (c.bindFrom handle position ys) := by
  induction hxs generalizing position with
  | nil => exact .pure _
  | cons hx _ ih => exact (h.bindVaried handle position hx).bind fun _ => ih _

theorem varies_execute (handle : Nat) {xs ys : List Value} (hxs : List.Forall₂ V.Bound xs ys)
    (maxRows : Option UInt64) :
    Flow.Alike (World.Alike r) (execute b handle xs maxRows) (execute c handle ys maxRows) :=
  (Call.alike_modifyLink (h.clearBindings handle)).bind fun _ => (varies_bindFrom h handle 1 hxs).bind fun _ =>
    (Call.alike_modifyLink (h.limitRows handle maxRows)).bind fun _ => h.execute handle

section
variable {bindings bindings' : Bindings} {filled filled' : Filled} (hbindings : bindings.Varies V bindings')
  (hfilled : filled.Varies V filled')
include hbindings hfilled

theorem varies_run (activity : Activity) (window : Option Window) :
    Flow.Varies V (Desk.Varies V r) Eq (run b activity bindings filled window)
      (run c activity bindings' filled' window) := by
  refine varies_statement.bind fun st st' hst => lined_varies.session.thenVaries fun s => ?_
  refine (Flow.Varies.ofExcept (Variation.boundValues s.vendor hfilled.values)).bind fun xs ys hxs => ?_
  dsimp only
  rw [hst.executableSql s.vendor hfilled.sql]
  refine Flow.Alike.varies ?_
  exact (varies_shownParameters fun hV => hbindings.render hV).bind fun _ => (lined_varies.checkTime _ _).bind fun _ =>
    (varies_ensureHandle h _).bind fun _ => (varies_recordStart _ _ _ _).bind fun _ =>
      (lined_varies.callInTime h.toAlike _ _ _ (varies_execute h _ hxs _)).bind fun _ => .pure _

theorem varies_openCursor (activity : Activity) (window : Window) :
    Flow.Varies V (Desk.Varies V r) Eq (openCursor b activity bindings filled window)
      (openCursor c activity bindings' filled' window) :=
  lined_varies.session.thenVaries fun _ => (varies_run h hbindings hfilled activity (some window)).bind
    fun _ _ hreply => hreply ▸ .pure rfl

theorem varies_fetch (window : Window) : Flow.Varies V (Desk.Varies V r) Eq (fetch b bindings filled window)
    (fetch c bindings' filled' window) := by
  refine (varies_openCursor h hbindings hfilled .retrieve window).bind ?_
  rintro cur _ rfl
  exact ((lined_varies.readOut (Cursor.alike_readAll h.toAlike) cur).bind fun _ =>
    (lined_varies.recordEnd _ _).bind fun _ => .pure _).varies

end

/-! ### Operations -/

theorem varies_fetchMemo (window : Window) (page : Option Page) :
    Flow.Varies V (Desk.Varies V r) Eq (fetchMemo b window page) (fetchMemo c window page) := by
  refine varies_statement.bind fun st st' _ => varies_resolve.bind fun x y hxy => ?_
  have hmemos : Flow.Varies V (Desk.Varies V r) (fun x y => x = [] ∧ y = []) (Flow.read Desk.memos)
      (Flow.read Desk.memos) := .read fun _ _ hd => ⟨hd.noMemos, hd.noMemos'⟩
  refine hmemos.bind ?_
  rintro _ _ ⟨rfl, rfl⟩
  -- whatever memo the statements use, there is none
  have hnone (use : Option MemoUse) : (use.bind fun use => (([] : List Memo)[use.memo]?).map (use, ·)) = none := by
    cases use <;> rfl
  dsimp only
  rw [hnone, hnone]
  exact varies_fetch h hxy.1 hxy.2 window

theorem varies_retrieve : Flow.Varies V (Desk.Varies V r) Eq (retrieve b) (retrieve c) :=
  varies_checkOpen.thenVaries fun _ => varies_statement.bind fun _ _ hst => by
    rw [hst.window, hst.page]
    exact varies_fetchMemo h _ _

theorem varies_retrieveRange (start count : UInt64) :
    Flow.Varies V (Desk.Varies V r) Eq (retrieveRange b start count) (retrieveRange c start count) :=
  varies_checkOpen.thenVaries fun _ => varies_statement.bind fun _ _ hst => by
    rw [hst.page, hst.label]
    exact (Flow.Alike.require _ _).thenVaries fun _ => (Flow.Alike.ofExcept _).thenVaries fun _ =>
      varies_fetchMemo h _ _

theorem varies_retrieveFirst : Flow.Varies V (Desk.Varies V r) Eq (retrieveFirst b) (retrieveFirst c) := by
  refine varies_checkOpen.thenVaries fun _ => varies_statement.bind fun st st' hst => ?_
  refine varies_resolve.bind fun x y hxy => ?_
  dsimp only
  rw [hst.window]
  refine (varies_openCursor h hxy.1 hxy.2 .retrieve _).bind ?_
  rintro cur _ rfl
  exact ((lined_varies.readOut (Cursor.alike_nextRow h.toAlike) cur).bind fun _ =>
    (lined_varies.recordEnd _ _).bind fun _ => .pure _).varies

theorem varies_query : Flow.Varies V (Desk.Varies V r) Eq (query b) (query c) := by
  refine varies_checkOpen.thenVaries fun _ => varies_statement.bind fun st st' hst => ?_
  refine varies_resolve.bind fun x y hxy => ?_
  dsimp only
  rw [hst.window]
  refine (varies_openCursor h hxy.1 hxy.2 .query _).bind ?_
  rintro cur _ rfl
  exact ((lined_varies.recordEnd _ _).bind fun _ => .pure _).varies

theorem varies_update : Flow.Varies V (Desk.Varies V r) Eq (update b) (update c) := by
  refine varies_checkOpen.thenVaries fun _ => varies_resolve.bind fun x y hxy => ?_
  refine (varies_run h hxy.1 hxy.2 .update none).bind ?_
  rintro reply _ rfl
  exact ((lined_varies.recordEnd _ _).bind fun _ => .pure _).varies

theorem varies_executeBatch : Flow.Varies V (Desk.Varies V r) Eq (executeBatch b) (executeBatch c) := by
  refine varies_checkOpen.thenVaries fun _ => varies_statement.bind fun st st' hst => ?_
  have hbatch := hst.batch
  generalize st.batch = x, st'.batch = y at hbatch ⊢
  cases hbatch with
  | nil => exact .pure rfl
  | cons hfirst hrest =>
    refine lined_varies.session.thenVaries fun s => ?_
    have hentries := List.Forall₂.cons hfirst hrest
    refine (Flow.Varies.ofExcept (.mapM hentries fun _ _ hfilled =>
      Variation.boundValues s.vendor hfilled.values)).bind fun xs ys hxs => ?_
    rw [hst.executableSql s.vendor hfirst.sql, hxs.length_eq]
    refine Flow.Alike.varies ?_
    refine (varies_shownParameters fun _ => rfl).bind fun _ => (lined_varies.checkTime _ _).bind fun _ => ?_
    refine (varies_ensureHandle h _).bind fun handle => (varies_recordStart _ _ _ _).bind fun _ => ?_
    refine (lined_varies.callInTime h.toAlike _ _ _ (h.executeBatchVaried handle hxs)).bind fun counts => ?_
    refine Flow.Alike.bind (varies_modifyStatement ?_) fun _ => (lined_varies.recordEnd _ _).bind fun _ => .pure _
    exact fun _ _ h => { h with batch := .nil }

theorem varies_countRow (vendor : Vendor) (handle : Nat) (sql : String) (parameters : Option String)
    {xs ys : List Value} (hxs : List.Forall₂ V.Bound xs ys) :
    Flow.Alike (Desk.Varies V r) (countRow b vendor handle sql parameters xs)
      (countRow c vendor handle sql parameters ys) := by
  have hcall := (varies_bindFrom h handle 1 hxs).bind fun _ => h.execute handle
  refine (lined_varies.callInTime h.toAlike handle sql parameters hcall).bind fun reply => ?_
  cases reply with
  | rows feed => exact lined_varies.readOut (Cursor.alike_nextRow h.toAlike) _
  | count n => exact .pure _

theorem varies_count : Flow.Varies V (Desk.Varies V r) Eq (count b) (count c) := by
  refine varies_checkOpen.thenVaries fun _ => varies_statement.bind fun st st' hst => ?_
  refine varies_resolve.bind fun x y hxy => lined_varies.session.thenVaries fun s => ?_
  refine (Flow.Varies.ofExcept (Variation.boundValues s.vendor hxy.2.values)).bind fun xs ys hxs => ?_
  dsimp only
  rw [hst.label, hxy.2.sql]
  refine Flow.Alike.varies ?_
  exact (varies_shownParameters fun hV => hxy.1.render hV).bind fun _ => (lined_varies.checkTime _ _).bind fun _ =>
    (lined_varies.line (Session.alike_openHandle h.toAlike _) (Session.settled_openHandle b _)).bind fun handle =>
      (varies_recordStart _ _ _ _).bind fun _ => (varies_countRow h _ handle _ _ hxs).attempt.bind fun _ =>
        (varies_release h handle _).attempt.bind fun _ =>
          (lined_varies.line (Session.alike_settle _ _ _) (Session.settled_settle _ _ _)).bind fun _ =>
            (Flow.Alike.ofExcept _).bind fun _ => (lined_varies.recordEnd _ _).bind fun _ => .pure _

/-- An action on statements with what varies bound ends in the same way, but for the values in a failure. -/
theorem varies_perform {action action' : Action} (haction : action.Varies V action') :
    Flow.Varies V (Desk.Varies V r) (Result.Varies V) (action.perform b) (action'.perform c) := by
  have heq {β : Type} {m : Work σ β} {n : Work τ β} {f : β → Result} (hm : Flow.Varies V (Desk.Varies V r) Eq m n) :
      Flow.Varies V (Desk.Varies V r) (Result.Varies V) (f <$> m) (f <$> n) :=
    hm.map fun _ _ ha => ha ▸ .refl _
  have hbind {f g : Statement → Statement} (hfg : ∀ st st', st.Varies V st' → (f st).Varies V (g st')) :
      Flow.Varies V (Desk.Varies V r) (Result.Varies V)
        (do (do checkOpen; modifyStatement f); pure (.bindings (← statement).bindings))
        (do (do checkOpen; modifyStatement g); pure (.bindings (← statement).bindings)) :=
    (varies_checkOpen.bind fun _ => varies_modifyStatement hfg).thenVaries fun _ =>
      varies_statement.bind fun _ _ hst => .pure (.bindings hst.bindings)
  have hkey (key : Key) {p q : Param} (hpq : p.Varies V q) := hbind
    (f := fun st => { st with bindings := st.bindings.insert key p })
    (g := fun st => { st with bindings := st.bindings.insert key q })
    fun _ _ hst => { hst with bindings := hst.bindings.insert key hpq }
  have hall {other other' : Bindings} (hother : other.Varies V other') := hbind
    (f := fun st => { st with bindings := st.bindings.union other })
    (g := fun st => { st with bindings := st.bindings.union other' })
    fun _ _ hst => { hst with bindings := hst.bindings.union hother }
  cases haction with
  | bind key hpq => exact hkey key hpq
  | bindAll hother => exact hall hother
  | refl =>
    cases action with
    | bind key p => exact hkey key (.refl p)
    | bindAll other => exact hall (.refl other)
    | clearBindings =>
      refine Flow.Alike.thenVaries (varies_modifyStatement ?_) fun _ => .pure (.refl .nothing)
      exact fun _ _ h => { h with bindings := .empty }
    | retrieve => exact heq (varies_retrieve h)
    | retrieveRange start limit => exact heq (varies_retrieveRange h start limit)
    | retrieveFirst => exact heq (varies_retrieveFirst h)
    | query => exact heq (varies_query h)
    | update => exact heq (varies_update h)
    | count => exact heq (varies_count h)
    | addBatch =>
      exact varies_addBatch.bind fun _ _ _ => varies_statement.bind fun _ _ hst =>
        .pure (hst.batch.length_eq ▸ .refl _)
    | executeBatch => exact heq (varies_executeBatch h)
    | close => exact (varies_close h).thenVaries fun _ => .pure (.refl .nothing)

end Statement

end NamedSql
