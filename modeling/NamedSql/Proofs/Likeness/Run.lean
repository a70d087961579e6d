import NamedSql.Proofs.Recording
import NamedSql.Proofs.Likeness.Workbench

/-!
# Runs on recorded databases

Recording does not show: a run on a recorded database is the run on the database itself, but for the
records that its workbenches have (`runAll_recorded`).
-/

namespace NamedSql

open NamedSql.Flow

variable {σ α : Type} {b : Backend σ}

/-! ### Workbenches without their records -/

namespace Recorded

/-- The connection under a record. -/
def Under (l : σ) (r : Recorded σ) : Prop :=
  l = r.link

theorem alike_entered (request : Request) (c : Call σ α) :
    Flow.Alike (World.Alike Under) c (entered request c) := by
  rintro ⟨l, now⟩ w ⟨hlink, hnow⟩
  obtain rfl : l = w.link.link := hlink
  obtain rfl : now = w.now := hnow
  unfold entered
  simp only [bind, Flow.bind, within, attempt, worldPart]
  rcases c ⟨w.link.link, w.now⟩ with ⟨_ | _ | _, v⟩
  · exact ⟨rfl, rfl, rfl⟩
  · exact ⟨rfl, rfl, rfl⟩
  · exact ⟨rfl, rfl, rfl⟩

end Recorded

theorem Backend.alike_recorded (b : Backend σ) : b.Alike Recorded.Under b.recorded where
  prepare _ _ := Recorded.alike_entered _ _
  bind _ _ _ := Recorded.alike_entered _ _
  clearBindings handle _ _ h := congrArg (b.clearBindings handle) h
  execute _ := Recorded.alike_entered _ _
  executeBatch _ _ := Recorded.alike_entered _ _
  limitRows handle n _ _ h := congrArg (b.limitRows handle n) h
  timeout handle _ _ h := congrArg (b.timeout handle) h
  limitTime handle n _ _ h := congrArg (b.limitTime handle n) h
  fetch _ := Recorded.alike_entered _ _
  close _ := Recorded.alike_entered _ _

/-- A workbench on a recorded database with an empty record. -/
def Workbench.toRecorded (w : Workbench σ) : Workbench (Recorded σ) where
  line := ⟨w.line.session, ⟨⟨w.line.world.link, []⟩, w.line.world.now⟩, w.line.log⟩
  memos := w.memos
  statements := w.statements
  cursors := w.cursors
  catalog := w.catalog

/-- A workbench without its record. -/
def Workbench.plain (w : Workbench (Recorded σ)) : Workbench σ where
  line := ⟨w.line.session, ⟨w.line.world.link.link, w.line.world.now⟩, w.line.log⟩
  memos := w.memos
  statements := w.statements
  cursors := w.cursors
  catalog := w.catalog

theorem Workbench.alike_under_iff {w : Workbench σ} {v : Workbench (Recorded σ)} :
    w.Alike Recorded.Under v ↔ w = v.plain := by
  constructor
  · obtain ⟨⟨session, ⟨link, now⟩, log⟩, memos, statements, cursors, catalog⟩ := w
    rintro ⟨⟨rfl, ⟨rfl, rfl⟩, rfl⟩, rfl, rfl, rfl, rfl⟩
    rfl
  · rintro rfl
    exact ⟨⟨rfl, ⟨rfl, rfl⟩, rfl⟩, rfl, rfl, rfl, rfl⟩

/-! ### Steps -/

namespace Step

mutual

/-- The same step on a recorded database: what happens to the connection from outside leaves the record
alone. -/
def recorded : Step σ → Step (Recorded σ)
  | look => look
  | refuse cause => refuse cause
  | addStatement name sql page equipment => addStatement name sql page equipment
  | addFromCatalog name resource statement page equipment =>
    addFromCatalog name resource statement page equipment
  | dropStatement name => dropStatement name
  | use statement action => use statement action
  | openCursor statement cursor => openCursor statement cursor
  | nextRow cursor => nextRow cursor
  | drain cursor => drain cursor
  | parse sql => parse sql
  | load resource text => load resource text
  | pass millis => pass millis
  | setClock millis => setClock millis
  | change f => change (Recorded.lift f)
  | memo n action => memo n action
  | begin seconds => begin seconds
  | expiry => expiry
  | commit => commit
  | rollback => rollback
  | ping => ping
  | nextValue sequence => nextValue sequence
  | terminate => terminate
  | transaction seconds body => transaction seconds (recordedAll body)

def recordedAll : List (Step σ) → List (Step (Recorded σ))
  | [] => []
  | step :: rest => step.recorded :: recordedAll rest

end

mutual

/-- The same result with other workbenches. -/
def Result.map {τ : Type} (f : Workbench σ → Workbench τ) : Result σ → Result τ
  | .nothing => .nothing
  | .statement st => .statement st
  | .used r => .used r
  | .columns names => .columns names
  | .row r => .row r
  | .table t => .table t
  | .template t => .template t
  | .number n => .number n
  | .expiry t => .expiry t
  | .memo r => .memo r
  | .terminated cause => .terminated cause
  | .transaction body cause => .transaction (mapTrace f body) cause

def Record.map {τ : Type} (f : Workbench σ → Workbench τ) : Record σ (Result σ) → Record τ (Result τ)
  | ⟨.done r, found, entered, left⟩ => ⟨.done (r.map f), f found, f entered, f left⟩
  | ⟨.failed e, found, entered, left⟩ => ⟨.failed e, f found, f entered, f left⟩
  | ⟨.overflow, found, entered, left⟩ => ⟨.overflow, f found, f entered, f left⟩

def mapTrace {τ : Type} (f : Workbench σ → Workbench τ) : Trace σ → Trace τ
  | [] => []
  | r :: t => r.map f :: mapTrace f t

end

/-! ### Steps without steps of their own -/

/-- Work that ends as other work does on a recorded database, but for the records in results. -/
def Plain {τ τ' : Type} (R : τ → τ' → Prop) (m : Flow Failure τ (Result σ))
    (n : Flow Failure τ' (Result (Recorded σ))) : Prop :=
  ∀ ⦃s t⦄, R s t → (m s).1 = (n t).1.map (Result.map Workbench.plain) ∧ R (m s).2 (n t).2

namespace Plain

variable {τ τ' : Type} {R : τ → τ' → Prop}

theorem pure {x : Result σ} {y : Result (Recorded σ)} (h : x = y.map Workbench.plain) :
    Plain R (Pure.pure x) (Pure.pure y) :=
  fun _ _ hst => ⟨congrArg Outcome.done h, hst⟩

theorem fail (e : Failure) : Plain R (Flow.fail e : Flow Failure τ (Result σ)) (Flow.fail e) :=
  fun _ _ hst => ⟨rfl, hst⟩

theorem bind {m : Flow Failure τ α} {n : Flow Failure τ' α} {f : α → Flow Failure τ (Result σ)}
    {g : α → Flow Failure τ' (Result (Recorded σ))} (hm : Flow.Alike R m n) (hf : ∀ a, Plain R (f a) (g a)) :
    Plain R (m >>= f) (n >>= g) := by
  intro s t h
  obtain ⟨he, hs⟩ := hm h
  show (Flow.bind m f s).1 = (Flow.bind n g t).1.map _ ∧ R (Flow.bind m f s).2 (Flow.bind n g t).2
  unfold Flow.bind
  rcases hms : m s with ⟨x, s'⟩
  rcases hnt : n t with ⟨y, t'⟩
  rw [hms, hnt] at he hs
  obtain rfl : x = y := he
  cases x with
  | done a => exact hf a hs
  | failed e => exact ⟨rfl, hs⟩
  | overflow => exact ⟨rfl, hs⟩

theorem map {m : Flow Failure τ α} {n : Flow Failure τ' α} {f : α → Result σ} {g : α → Result (Recorded σ)}
    (hm : Flow.Alike R m n) (hf : ∀ a, f a = (g a).map Workbench.plain) : Plain R (f <$> m) (g <$> n) :=
  bind hm fun a => pure (hf a)

end Plain

theorem alike_passTime (millis : Int) :
    Flow.Alike (Workbench.Alike Recorded.Under) (passTime (σ := σ) millis) (passTime millis) :=
  Workbench.alike_onLine (Dialog.alike_call (Call.alike_pass millis)).discard

theorem plain_perform (step : Step σ) :
    Plain (Workbench.Alike Recorded.Under) (step.perform b) (step.recorded.perform b.recorded) := by
  have h := b.alike_recorded
  cases step with
  | look => exact .pure rfl
  | refuse cause => exact .fail _
  | addStatement name sql page equipment =>
    exact .bind (.ofExcept _) fun page => .bind (Workbench.alike_parse sql) fun template =>
      .map (Workbench.alike_addStatement h _ _ _ _) fun _ => rfl
  | addFromCatalog name resource statement page equipment =>
    exact .bind (.ofExcept _) fun page => .map (Workbench.alike_addFromCatalog h _ _ _ _ _) fun _ => rfl
  | dropStatement name => exact .bind (Workbench.alike_dropStatement h name) fun _ => .pure rfl
  | use statement action =>
    exact .map (Workbench.alike_useStatement _ (Statement.alike_perform h action)) fun _ => rfl
  | openCursor statement cursor => exact .bind (Workbench.alike_openCursor h _ _) fun _ => .pure rfl
  | nextRow cursor => exact .map (Workbench.alike_useCursor _ (Cursor.alike_nextRow h)) fun _ => rfl
  | drain cursor => exact .map (Workbench.alike_drain h _) fun _ => rfl
  | parse sql => exact .map (Workbench.alike_parse _) fun _ => rfl
  | load resource text => exact .bind (Workbench.alike_loadResource _ _) fun _ => .pure rfl
  | pass millis => exact .bind (alike_passTime _) fun _ => .pure rfl
  | setClock millis =>
    exact .bind (Workbench.alike_onLine Dialog.alike_now) fun _ => .bind (alike_passTime _) fun _ => .pure rfl
  | change f =>
    have hchange := Call.alike_modifyLink (r := Recorded.Under) (g := Recorded.lift f)
      fun _ _ hl => congrArg f hl
    exact .bind (Workbench.alike_onLine (Dialog.alike_call hchange).discard) fun _ => .pure rfl
  | memo n action =>
    refine .bind (.read fun _ _ hw => hw.memos) fun memos => ?_
    cases memos[n]? with
    | none => exact .pure rfl
    | some m =>
      refine .map (Flow.Alike.within (S := Eq) ?_ ?_ ?_) fun _ => rfl
      · rintro s _ rfl
        exact ⟨rfl, rfl⟩
      · exact fun w v hw => congrArg (Memo.Timed.mk m) hw.line.world.now
      · rintro w v t _ hw rfl
        exact ⟨⟨hw.line.session, ⟨hw.line.world.link, rfl⟩, hw.line.log⟩,
          congrArg (List.set · n t.memo) hw.memos, hw.statements, hw.cursors, hw.catalog⟩
  | begin seconds => exact .bind (Workbench.alike_onLine (Session.alike_begin h _)) fun _ => .pure rfl
  | expiry => exact .map (Workbench.alike_onLine Session.alike_expiry) fun _ => rfl
  | commit => exact .bind (Workbench.alike_onLine (Session.alike_finish h _)) fun _ => .pure rfl
  | rollback => exact .bind (Workbench.alike_onLine (Session.alike_finish h _)) fun _ => .pure rfl
  | ping => exact .bind (Workbench.alike_onLine (Session.alike_ping h)) fun _ => .pure rfl
  | nextValue sequence => exact .bind (Workbench.alike_onLine (Session.alike_nextValue h _)) fun _ => .pure rfl
  | terminate => exact .bind (Workbench.alike_onLine (Session.alike_terminate h)).attempt fun _ => .pure rfl
  | transaction seconds body => exact .pure rfl

/-! ### Runs -/

/-- The same scene, but for the records of its workbenches. -/
structure PlainScene (s : Scene σ) (t : Scene (Recorded σ)) : Prop where
  bench : s.bench.Alike Recorded.Under t.bench
  trace : s.trace = mapTrace Workbench.plain t.trace
  entered : s.entered = t.entered.plain

theorem mapTrace_eq {τ : Type} (f : Workbench σ → Workbench τ) (t : Trace σ) :
    mapTrace f t = t.map (Record.map f) := by
  induction t with
  | nil => rfl
  | cons r t ih => rw [mapTrace, ih, List.map_cons]

theorem Record.map_mk {τ : Type} (f : Workbench σ → Workbench τ) (x : Outcome Failure (Result σ))
    (found entered left : Workbench σ) :
    Record.map f ⟨x, found, entered, left⟩ = ⟨x.map (Result.map f), f found, f entered, f left⟩ := by
  cases x <;> rfl

/-- A record is entered in the trace. -/
theorem PlainScene.enter {s : Scene σ} {t : Scene (Recorded σ)} (h : PlainScene s t)
    (x : Outcome Failure (Result (Recorded σ))) {w : Workbench σ} {v : Workbench (Recorded σ)}
    (hfound : w = v.plain) :
    PlainScene
      { s with
        trace := s.trace ++ [⟨x.map (Result.map Workbench.plain), w, s.entered, s.bench⟩]
        entered := s.bench }
      { t with trace := t.trace ++ [⟨x, v, t.entered, t.bench⟩], entered := t.bench } := by
  have hbench : s.bench = t.bench.plain := Workbench.alike_under_iff.1 h.bench
  refine ⟨h.bench, ?_, hbench⟩
  show s.trace ++ _ = mapTrace _ (t.trace ++ _)
  rw [mapTrace_eq, List.map_append, ← mapTrace_eq, ← h.trace, List.map_singleton, Record.map_mk, ← hfound,
    ← h.entered, ← hbench]

theorem Plain.within_bench {m : Job σ (Result σ)} {n : Job (Recorded σ) (Result (Recorded σ))}
    (h : Plain (Workbench.Alike Recorded.Under) m n) :
    Plain PlainScene (within benchPart m) (within benchPart n) := by
  intro s t hst
  obtain ⟨hr, hw⟩ := h hst.bench
  exact ⟨hr, hw, hst.trace, hst.entered⟩

theorem alike_inScene {m : Dialog σ α} {n : Dialog (Recorded σ) α}
    (h : Flow.Alike (Line.Alike Recorded.Under) m n) :
    Flow.Alike PlainScene (within linePart m) (within linePart n) :=
  .within h (fun _ _ hst => hst.bench.line) fun _ _ _ _ hst hl =>
    ⟨⟨hl, hst.bench.memos, hst.bench.statements, hst.bench.cursors, hst.bench.catalog⟩, hst.trace, hst.entered⟩

theorem run_transaction (seconds : Option Int) (body : List (Step σ)) (s : Scene σ) :
    run b (.transaction seconds body) s =
      match Session.withTransaction b linePart seconds (runBody b body) { s with trace := [] } with
      | (.done _, t) => (.done (.transaction t.trace none), { t with trace := s.trace })
      | (.failed e, t) => (.done (.transaction t.trace (some e)), { t with trace := s.trace })
      | (.overflow, t) => (.overflow, t) := by
  unfold run
  simp only [bind, Flow.bind, Flow.read, Flow.modify, attempt]
  rcases Session.withTransaction b linePart seconds (runBody b body) { s with trace := [] } with ⟨_ | _ | _, t⟩
  · rfl
  · rfl
  · rfl

theorem runBody_cons (step : Step σ) (rest : List (Step σ)) (s : Scene σ) :
    runBody b (step :: rest) s =
      match run b step s with
      | (.done x, t) => runBody b rest
        { t with trace := t.trace ++ [⟨.done x, s.bench, t.entered, t.bench⟩], entered := t.bench }
      | (.failed e, t) => (.failed e,
        { t with trace := t.trace ++ [⟨.failed e, s.bench, t.entered, t.bench⟩], entered := t.bench })
      | (.overflow, t) => (.overflow, t) := by
  rw [runBody, read_bind]
  simp only [bind, Flow.bind, attempt]
  rcases run b step s with ⟨_ | _ | _, t⟩
  · rfl
  · rfl
  · rfl

-- The induction follows the steps and the bodies of their transactions, as running them does.
mutual

theorem plain_run (step : Step σ) : Plain PlainScene (run b step) (run b.recorded step.recorded) := by
  cases step with
  | transaction seconds body =>
    have hbody := Session.alike_withTransaction b.alike_recorded alike_inScene seconds (alike_runBody body)
    intro s t hst
    have hstart : PlainScene { s with trace := [] } { t with trace := [] } := ⟨hst.bench, rfl, hst.entered⟩
    obtain ⟨hr, hend⟩ := hbody hstart
    rw [recorded, run_transaction, run_transaction]
    rcases hs : Session.withTransaction b linePart seconds (runBody b body) { s with trace := [] } with ⟨x, s'⟩
    rcases ht : Session.withTransaction b.recorded linePart seconds (runBody b.recorded (recordedAll body))
      { t with trace := [] } with ⟨y, t'⟩
    rw [hs, ht] at hr hend
    obtain rfl : x = y := hr
    have hleft : PlainScene { s' with trace := s.trace } { t' with trace := t.trace } :=
      ⟨hend.bench, hst.trace, hend.entered⟩
    cases x with
    | done u => exact ⟨congrArg (fun body => Outcome.done (Result.transaction body none)) hend.trace, hleft⟩
    | failed e => exact ⟨congrArg (fun body => Outcome.done (Result.transaction body (some e))) hend.trace, hleft⟩
    | overflow => exact ⟨rfl, hend⟩
  | _ => exact (plain_perform _).within_bench

theorem alike_runBody (steps : List (Step σ)) :
    Flow.Alike PlainScene (runBody b steps) (runBody b.recorded (recordedAll steps)) := by
  cases steps with
  | nil => exact .pure _
  | cons step rest =>
    have hrest := alike_runBody rest
    intro s t hst
    obtain ⟨hr, hend⟩ := plain_run step hst
    rw [recordedAll, runBody_cons, runBody_cons]
    rcases hs : run b step s with ⟨x, s'⟩
    rcases ht : run b.recorded step.recorded t with ⟨y, t'⟩
    rw [hs, ht] at hr hend
    obtain rfl : x = y.map (Result.map Workbench.plain) := hr
    have hfound : s.bench = t.bench.plain := Workbench.alike_under_iff.1 hst.bench
    cases y with
    | done x => exact hrest (hend.enter (.done x) hfound)
    | failed e => exact ⟨rfl, hend.enter (.failed e) hfound⟩
    | overflow => exact ⟨rfl, hend⟩

end

theorem runOn_recorded (w : Workbench (Recorded σ)) (step : Step σ) :
    runOn b w.plain step = (runOn b.recorded w step.recorded).map Workbench.plain := by
  have hstart : PlainScene ⟨w.plain, [], w.plain⟩ ⟨w, [], w⟩ := ⟨Workbench.alike_under_iff.2 rfl, rfl, rfl⟩
  obtain ⟨hr, hend⟩ := plain_run (b := b) step hstart
  unfold runOn
  rcases hs : run b step ⟨w.plain, [], w.plain⟩ with ⟨x, s⟩
  rcases ht : run b.recorded step.recorded ⟨w, [], w⟩ with ⟨y, t⟩
  rw [hs, ht] at hr hend
  have hbench : s.bench = t.bench.plain := Workbench.alike_under_iff.1 hend.bench
  obtain rfl : x = y.map (Result.map Workbench.plain) := hr
  show Record.mk _ _ s.entered s.bench = Record.map _ ⟨y, w, t.entered, t.bench⟩
  rw [Record.map_mk, hend.entered, hbench]

/-- The steps of a run on a recorded database do what they do on the database itself. -/
theorem runAll_recorded (w : Workbench (Recorded σ)) (steps : List (Step σ)) :
    runAll b w.plain steps = mapTrace Workbench.plain (runAll b.recorded w (steps.map recorded)) := by
  induction steps generalizing w with
  | nil => rfl
  | cons step rest ih =>
    rw [List.map_cons, runAll, runAll, mapTrace, runOn_recorded, ← ih]
    rcases runOn b.recorded w step.recorded with ⟨_ | _ | _, found, entered, left⟩ <;> rfl

theorem drop_recorded {w last : Workbench (Recorded σ)} {x : Outcome Failure Unit}
    (h : Workbench.drop b.recorded w = (x, last)) : Workbench.drop b w.plain = (x, last.plain) := by
  have hstart : w.plain.Alike Recorded.Under w := Workbench.alike_under_iff.2 rfl
  obtain ⟨hr, hend⟩ := Workbench.alike_drop b.alike_recorded hstart
  rw [h] at hr hend
  exact Prod.ext hr (Workbench.alike_under_iff.1 hend)

/-! ### Workbenches in traces -/

/-- The workbench at the end of a trace. -/
def lastOf (w : Workbench σ) : Trace σ → Workbench σ
  | [] => w
  | r :: t => lastOf r.left t

/-- The workbenches that the steps of a trace left, those within transactions included. -/
inductive Visited : Trace σ → Workbench σ → Prop where
  | left {t : Trace σ} {r : Record σ (Result σ)} : r ∈ t → Visited t r.left
  | inside {t : Trace σ} {r : Record σ (Result σ)} {body : Trace σ} {cause : Option Failure}
      {w : Workbench σ} : r ∈ t → r.outcome = .done (.transaction body cause) → Visited body w → Visited t w

section
variable {τ : Type} {f : Workbench σ → Workbench τ}

theorem Record.map_left (r : Record σ (Result σ)) : (r.map f).left = f r.left := by
  rw [Record.map_mk]

theorem Record.map_outcome (r : Record σ (Result σ)) : (r.map f).outcome = r.outcome.map (Result.map f) := by
  rw [Record.map_mk]

theorem lastOf_map (w : Workbench σ) (t : Trace σ) : lastOf (f w) (mapTrace f t) = f (lastOf w t) := by
  induction t generalizing w with
  | nil => rfl
  | cons r t ih => rw [mapTrace, lastOf, lastOf, Record.map_left, ih]

theorem Result.map_eq_transaction {r : Result σ} {body : Trace τ} {cause : Option Failure}
    (h : r.map f = .transaction body cause) :
    ∃ body', r = .transaction body' cause ∧ mapTrace f body' = body := by
  cases r with
  | transaction body' cause' =>
    obtain ⟨hbody, rfl⟩ := Result.transaction.inj h
    exact ⟨body', rfl, hbody⟩
  | _ => cases h

theorem Visited.exists_of_map {t : Trace σ} {v : Workbench τ} (h : Visited (mapTrace f t) v) :
    ∃ w, Visited t w ∧ v = f w := by
  generalize hu : mapTrace f t = u at h
  induction h generalizing t with
  | left hr =>
    subst hu
    rw [mapTrace_eq] at hr
    obtain ⟨r, hmem, rfl⟩ := List.mem_map.1 hr
    exact ⟨r.left, .left hmem, r.map_left⟩
  | inside hr hdone _ ih =>
    subst hu
    rw [mapTrace_eq] at hr
    obtain ⟨r, hmem, rfl⟩ := List.mem_map.1 hr
    rw [Record.map_outcome] at hdone
    rcases hx : r.outcome with x | e | _ <;> rw [hx] at hdone
    · obtain ⟨body, rfl, hbody⟩ := Result.map_eq_transaction (Outcome.done.inj hdone)
      obtain ⟨w, hw, rfl⟩ := ih hbody
      exact ⟨w, .inside hmem hx hw, rfl⟩
    · cases hdone
    · cases hdone

end

end Step

end NamedSql
