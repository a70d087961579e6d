import NamedSql.Proofs.Likeness.Run
import NamedSql.Proofs.Variation.Workbench

/-!
# Runs with values that vary

What can be read about a run are its `reports`: after each step its failures, the record of events and the
bindings of the statements. The same steps with parameters that vary, on databases that answer in the same way to
what varies, give reports that differ in nothing but the values in failures, and in bindings if these may be shown
(`runAll_varies`).
-/

namespace NamedSql

open NamedSql.Flow

variable {σ τ α α' : Type} {r : σ → τ → Prop} {b : Backend σ} {c : Backend τ} {V : Variation}

namespace Step

/-! ### Reports -/

/-- What can be read when a step is over: its failure if it has one, all events, and the text of the bindings of
each statement. -/
structure Report where
  failures : List Failure
  log : List Event
  bindings : List (String × String)

def reportOf (failures : List Failure) (w : Workbench σ) : Report :=
  ⟨failures, w.line.log, w.statements.map fun e => (e.1, e.2.bindings.render)⟩

/-- The failure that a result tells. -/
def Result.failures : Result σ → List Failure
  | .terminated cause => cause.toList
  | .transaction _ cause => cause.toList
  | _ => []

mutual

/-- The reports of the steps within a transaction. -/
def Result.reports : Result σ → List Report
  | .transaction body _ => reports body
  | _ => []

def Record.reports : Record σ (Result σ) → List Report
  | ⟨.done x, _, _, left⟩ => x.reports ++ [reportOf x.failures left]
  | ⟨.failed e, _, _, left⟩ => [reportOf [e] left]
  | ⟨.overflow, _, _, left⟩ => [reportOf [] left]

/-- The reports of all steps of a trace, those within transactions before that of the transaction. -/
def reports : Trace σ → List Report
  | [] => []
  | r :: t => r.reports ++ reports t

end

theorem reports_append (t u : Trace σ) : reports (t ++ u) = reports t ++ reports u := by
  induction t with
  | nil => rfl
  | cons r t ih => rw [List.cons_append, reports, reports, ih, List.append_assoc]

theorem reports_concat (t : Trace σ) (r : Record σ (Result σ)) : reports (t ++ [r]) = reports t ++ r.reports := by
  rw [reports_append, reports, reports, List.append_nil]

/-! ### Steps with parameters that vary -/

mutual

/-- The same step with parameters that vary. What happens to the connection from outside keeps it related. -/
inductive Varies (V : Variation) (r : σ → τ → Prop) : Step σ → Step τ → Prop where
  | look : Varies V r look look
  | refuse (cause : Failure) : Varies V r (refuse cause) (refuse cause)
  | addStatement (name sql : String) (page : Option PageRequest) {e e' : Equipment} : e.Varies V e' →
      Varies V r (addStatement name sql page e) (addStatement name sql page e')
  | addFromCatalog (name resource statement : String) (page : Option PageRequest) {e e' : Equipment} :
      e.Varies V e' → Varies V r (addFromCatalog name resource statement page e)
        (addFromCatalog name resource statement page e')
  | dropStatement (name : String) : Varies V r (dropStatement name) (dropStatement name)
  | use (statement : String) {action action' : Statement.Action} : action.Varies V action' →
      Varies V r (use statement action) (use statement action')
  | openCursor (statement cursor : String) : Varies V r (openCursor statement cursor) (openCursor statement cursor)
  | nextRow (cursor : String) : Varies V r (nextRow cursor) (nextRow cursor)
  | drain (cursor : String) : Varies V r (drain cursor) (drain cursor)
  | parse (sql : String) : Varies V r (parse sql) (parse sql)
  | load (resource text : String) : Varies V r (load resource text) (load resource text)
  | pass (millis : Int) : Varies V r (pass millis) (pass millis)
  | setClock (millis : Int) : Varies V r (setClock millis) (setClock millis)
  | change {f : σ → σ} {g : τ → τ} : (∀ l m, r l m → r (f l) (g m)) → Varies V r (change f) (change g)
  | memo (n : Nat) (action : Memo.Action) : Varies V r (memo n action) (memo n action)
  | begin (seconds : Option Int) : Varies V r (begin seconds) (begin seconds)
  | expiry : Varies V r expiry expiry
  | commit : Varies V r commit commit
  | rollback : Varies V r rollback rollback
  | ping : Varies V r ping ping
  | nextValue (sequence : String) : Varies V r (nextValue sequence) (nextValue sequence)
  | terminate : Varies V r terminate terminate
  | transaction (seconds : Option Int) {body : List (Step σ)} {body' : List (Step τ)} :
      VariesAll V r body body' → Varies V r (transaction seconds body) (transaction seconds body')

inductive VariesAll (V : Variation) (r : σ → τ → Prop) : List (Step σ) → List (Step τ) → Prop where
  | nil : VariesAll V r [] []
  | cons {step : Step σ} {step' : Step τ} {rest : List (Step σ)} {rest' : List (Step τ)} :
      Varies V r step step' → VariesAll V r rest rest' → VariesAll V r (step :: rest) (step' :: rest')

end

/-- Reports that differ in the values of failures at most, and in bindings if their text shows what varies. -/
structure Report.Varies (V : Variation) (x y : Report) : Prop where
  failures : List.Forall₂ (Failure.Varies V) x.failures y.failures
  log : x.log = y.log
  bindings : V.Masked → x.bindings = y.bindings

structure Result.Varies (V : Variation) (x : Result σ) (y : Result τ) : Prop where
  failures : List.Forall₂ (Failure.Varies V) x.failures y.failures
  reports : List.Forall₂ (Report.Varies V) x.reports y.reports

theorem reportOf_varies {w : Workbench σ} {v : Workbench τ} (hw : w.Varies V r v) {es fs : List Failure}
    (hes : List.Forall₂ (Failure.Varies V) es fs) : (reportOf es w).Varies V (reportOf fs v) := by
  refine ⟨hes, hw.line.log, fun hV => ?_⟩
  have hmap {x y : Roster Statement} (h : Keyed (Statement.Varies V) x y) :
      (x.map fun e => (e.1, e.2.bindings.render)) = y.map fun e => (e.1, e.2.bindings.render) := by
    induction h with
    | nil => rfl
    | cons hef _ ih => rw [List.map_cons, List.map_cons, hef.1, hef.2.bindings.render hV, ih]
  exact hmap hw.statements

/-! ### Steps without steps of their own -/

theorem varies_passTime (millis : Int) :
    Flow.Alike (Workbench.Varies V r) (passTime (σ := σ) millis) (passTime (σ := τ) millis) :=
  Workbench.varies_onLine (Dialog.alike_call (Call.alike_pass millis)).discard (Dialog.Settled.call _).discard

theorem varies_perform (h : b.Blind V r c) {step : Step σ} {step' : Step τ} (hstep : Varies V r step step') :
    Flow.Varies V (Workbench.Varies V r) (Result.Varies V) (step.perform b) (step'.perform c) := by
  cases hstep with
  | look => exact .pure ⟨.nil, .nil⟩
  | refuse cause => exact .fail (.refl cause)
  | addStatement name sql page he =>
    exact (Flow.Alike.ofExcept _).thenVaries fun page => (Workbench.varies_parse sql).thenVaries fun template =>
      (Workbench.varies_addStatement h _ _ _ he.apply).map fun _ _ _ => ⟨.nil, .nil⟩
  | addFromCatalog name resource statement page he =>
    exact (Flow.Alike.ofExcept _).thenVaries fun page =>
      (Workbench.varies_addFromCatalog h _ _ _ _ he.apply).map fun _ _ _ => ⟨.nil, .nil⟩
  | dropStatement name => exact (Workbench.varies_dropStatement h name).thenVaries fun _ => .pure ⟨.nil, .nil⟩
  | use statement haction =>
    exact (Workbench.varies_useStatement _ (Statement.varies_perform h haction)).map fun _ _ _ => ⟨.nil, .nil⟩
  | openCursor statement cursor =>
    exact (Workbench.varies_openCursor h _ _).bind fun _ _ _ => .pure ⟨.nil, .nil⟩
  | nextRow cursor =>
    exact (Workbench.varies_useCursor _ (Cursor.alike_nextRow h.toAlike)).varies.map fun _ _ _ => ⟨.nil, .nil⟩
  | drain cursor => exact (Workbench.varies_drain h _).varies.map fun _ _ _ => ⟨.nil, .nil⟩
  | parse sql => exact (Workbench.varies_parse _).varies.map fun _ _ _ => ⟨.nil, .nil⟩
  | load resource text => exact (Workbench.varies_loadResource _ _).thenVaries fun _ => .pure ⟨.nil, .nil⟩
  | pass millis => exact (varies_passTime _).thenVaries fun _ => .pure ⟨.nil, .nil⟩
  | setClock millis =>
    exact (Workbench.varies_onLine Dialog.alike_now (.read _)).thenVaries fun _ =>
      (varies_passTime _).thenVaries fun _ => .pure ⟨.nil, .nil⟩
  | change hf =>
    exact (Workbench.varies_onLine (Dialog.alike_call (Call.alike_modifyLink hf)).discard
      (Dialog.Settled.call _).discard).thenVaries fun _ => .pure ⟨.nil, .nil⟩
  | memo n action =>
    have hmemos : Flow.Varies V (Workbench.Varies V r) (fun x y => x = [] ∧ y = []) (Flow.read Workbench.memos)
        (Flow.read Workbench.memos) := .read fun _ _ hw => ⟨hw.noMemos, hw.noMemos'⟩
    refine hmemos.bind ?_
    rintro _ _ ⟨rfl, rfl⟩
    exact .pure ⟨.nil, .nil⟩
  | begin seconds =>
    exact (Workbench.varies_onLine (Session.alike_begin h.toAlike _) (Session.settled_begin b _)).thenVaries
      fun _ => .pure ⟨.nil, .nil⟩
  | expiry =>
    exact (Workbench.varies_onLine Session.alike_expiry Session.settled_expiry).varies.map fun _ _ _ => ⟨.nil, .nil⟩
  | commit =>
    exact (Workbench.varies_onLine (Session.alike_finish h.toAlike _) (Session.settled_finish b _)).thenVaries
      fun _ => .pure ⟨.nil, .nil⟩
  | rollback =>
    exact (Workbench.varies_onLine (Session.alike_finish h.toAlike _) (Session.settled_finish b _)).thenVaries
      fun _ => .pure ⟨.nil, .nil⟩
  | ping =>
    exact (Workbench.varies_onLine (Session.alike_ping h.toAlike) (Session.settled_ping b)).thenVaries
      fun _ => .pure ⟨.nil, .nil⟩
  | nextValue sequence =>
    exact (Workbench.varies_onLine (Session.alike_nextValue h.toAlike _) (Session.settled_nextValue b _)).thenVaries
      fun _ => .pure ⟨.nil, .nil⟩
  | terminate =>
    exact (Workbench.varies_onLine (Session.alike_terminate h.toAlike) (Session.settled_terminate b)).attempt.thenVaries
      fun result => .pure ⟨List.forall₂_same.2 fun e _ => .refl e, .nil⟩
  | transaction seconds hbody => exact .pure ⟨.nil, .nil⟩

/-! ### Runs -/

/-- Scenes with reports that vary. -/
structure SceneVaries (V : Variation) (r : σ → τ → Prop) (s : Scene σ) (t : Scene τ) : Prop where
  bench : s.bench.Varies V r t.bench
  reports : List.Forall₂ (Report.Varies V) (reports s.trace) (Step.reports t.trace)

theorem Record.reports_varies {x : Outcome Failure (Result σ)} {y : Outcome Failure (Result τ)}
    (hxy : Outcome.Pair (Failure.Varies V) (Result.Varies V) x y) {left : Workbench σ} {left' : Workbench τ}
    (hleft : left.Varies V r left') (found entered : Workbench σ) (found' entered' : Workbench τ) :
    List.Forall₂ (Report.Varies V) (Record.reports ⟨x, found, entered, left⟩)
      (Record.reports ⟨y, found', entered', left'⟩) := by
  cases hxy with
  | done hxy => exact List.rel_append hxy.reports (.cons (reportOf_varies hleft hxy.failures) .nil)
  | failed he => exact .cons (reportOf_varies hleft (.cons he .nil)) .nil
  | overflow => exact .cons (reportOf_varies hleft .nil) .nil

/-- A record is entered in the trace. -/
theorem SceneVaries.enter {s : Scene σ} {t : Scene τ} (hst : SceneVaries V r s t)
    {x : Outcome Failure (Result σ)} {y : Outcome Failure (Result τ)}
    (hxy : Outcome.Pair (Failure.Varies V) (Result.Varies V) x y) (found entered : Workbench σ)
    (found' entered' : Workbench τ) :
    SceneVaries V r
      { s with trace := s.trace ++ [⟨x, found, entered, s.bench⟩], entered := s.bench }
      { t with trace := t.trace ++ [⟨y, found', entered', t.bench⟩], entered := t.bench } := by
  refine ⟨hst.bench, ?_⟩
  show List.Forall₂ _ (Step.reports (s.trace ++ _)) (Step.reports (t.trace ++ _))
  rw [reports_concat, reports_concat]
  exact List.rel_append hst.reports (Record.reports_varies hxy hst.bench _ _ _ _)

theorem varies_inScene {β : Type} {m : Dialog σ β} {n : Dialog τ β} (h : Flow.Alike (Line.Alike r) m n)
    (hm : Dialog.Settled m) : Flow.Alike (SceneVaries V r) (within linePart m) (within linePart n) :=
  .within (Line.varies_of_settled h hm) (fun _ _ hst => hst.bench.line) fun _ _ _ _ hst hl =>
    ⟨⟨hl, hst.bench.noMemos, hst.bench.noMemos', hst.bench.statements, hst.bench.cursors, hst.bench.catalog⟩,
      hst.reports⟩

theorem varies_withTransaction (h : b.Blind V r c) {β β' : Type} {A : β → β' → Prop} (seconds : Option Int)
    {body : Play σ β} {body' : Play τ β'} (hbody : Flow.Varies V (SceneVaries V r) A body body') :
    Flow.Varies V (SceneVaries V r) A (Session.withTransaction b linePart seconds body)
      (Session.withTransaction c linePart seconds body') := by
  have hfinish (sql : String) := varies_inScene (V := V) (Session.alike_finish h.toAlike sql)
    (Session.settled_finish b sql)
  refine (varies_inScene (Session.alike_begin h.toAlike seconds) (Session.settled_begin b seconds)).thenVaries
    fun _ => hbody.attempt.bind fun x y hxy => ?_
  cases hxy with
  | ok ha => exact (hfinish _).thenVaries fun _ => .pure ha
  | error he =>
    refine (hfinish _).attempt.thenVaries fun result => ?_
    cases result with
    | ok u => exact .fail he
    | error e' =>
      refine Flow.Alike.thenVaries (varies_inScene ?_ fun _ => rfl) fun _ => .fail he
      exact Dialog.alike_session.bind fun _ => Dialog.alike_record _

-- The induction follows the steps and the bodies of their transactions, as running them does.
mutual

theorem varies_run (h : b.Blind V r c) (step : Step σ) (step' : Step τ) (hstep : Varies V r step step') :
    Flow.Varies V (SceneVaries V r) (Result.Varies V) (run b step) (run c step') := by
  have hplain : Flow.Varies V (SceneVaries V r) (Result.Varies V) (within benchPart (step.perform b))
      (within benchPart (step'.perform c)) :=
    .within (varies_perform h hstep) (fun _ _ hst => hst.bench) fun _ _ _ _ hst hw => ⟨hw, hst.reports⟩
  cases step with
  | transaction seconds body =>
    cases hstep with
    | @transaction _ _ body' hbody =>
      have hends := varies_withTransaction h seconds (varies_runBody h body body' hbody)
      intro s t hst
      obtain ⟨hr, hend⟩ := hends (s := { s with trace := [] }) (t := { t with trace := [] }) ⟨hst.bench, .nil⟩
      rw [run_transaction, run_transaction]
      rcases hs : Session.withTransaction b linePart seconds (runBody b body) { s with trace := [] } with ⟨x, s'⟩
      rcases ht : Session.withTransaction c linePart seconds (runBody c body') { t with trace := [] } with ⟨y, t'⟩
      rw [hs, ht] at hr hend
      cases hr with
      | done _ => exact ⟨.done ⟨.nil, hend.reports⟩, hend.bench, hst.reports⟩
      | failed he => exact ⟨.done ⟨.cons he .nil, hend.reports⟩, hend.bench, hst.reports⟩
      | overflow => exact ⟨.overflow, hend⟩
  | _ =>
    cases hstep
    exact hplain

theorem varies_runBody (h : b.Blind V r c) (steps : List (Step σ)) (steps' : List (Step τ))
    (hsteps : VariesAll V r steps steps') :
    Flow.Varies V (SceneVaries V r) Eq (runBody b steps) (runBody c steps') := by
  cases steps with
  | nil =>
    cases hsteps
    exact .pure rfl
  | cons step rest =>
    cases hsteps with
    | @cons _ step' _ rest' hstep hrest =>
      have hbody := varies_runBody h rest rest' hrest
      intro s t hst
      obtain ⟨hr, hend⟩ := varies_run h step step' hstep hst
      rw [runBody_cons, runBody_cons]
      rcases hs : run b step s with ⟨x, s'⟩
      rcases ht : run c step' t with ⟨y, t'⟩
      rw [hs, ht] at hr hend
      cases hr with
      | done hxy => exact hbody (hend.enter (.done hxy) _ _ _ _)
      | failed he => exact ⟨.failed he, hend.enter (.failed he) _ _ _ _⟩
      | overflow => exact ⟨.overflow, hend⟩

end

/-- Whatever becomes of each step, the reports and the workbenches at the end vary. -/
theorem runAll_varies (h : b.Blind V r c) {w : Workbench σ} {v : Workbench τ} (hw : w.Varies V r v)
    {steps : List (Step σ)} {steps' : List (Step τ)} (hsteps : VariesAll V r steps steps') :
    List.Forall₂ (Report.Varies V) (reports (runAll b w steps)) (reports (runAll c v steps')) ∧
      (lastOf w (runAll b w steps)).Varies V r (lastOf v (runAll c v steps')) := by
  induction steps generalizing w v steps' with
  | nil =>
    cases hsteps
    exact ⟨.nil, hw⟩
  | cons step rest ih =>
    cases hsteps with
    | @cons _ step' _ rest' hstep hrest =>
      have hstart : SceneVaries V r ⟨w, [], w⟩ ⟨v, [], v⟩ := ⟨hw, .nil⟩
      obtain ⟨hr, hend⟩ := varies_run h step step' hstep hstart
      obtain ⟨hreports, hlast⟩ := ih hend.bench hrest
      exact ⟨List.rel_append (Record.reports_varies hr hend.bench _ _ _ _) hreports, hlast⟩

end Step

end NamedSql
