import NamedSql.Backend.Script
import NamedSql.Proofs.Handles.Workbench
import NamedSql.Proofs.Likeness.Run

/-!
# Handles in runs

Steps on a workbench whose database is recorded. The main theorem says that after every step the handles
of the session are those of the statements that are open, that nothing is done with a handle after an
attempt to close it, and that in the end every handle that was opened has been closed once.
-/

namespace NamedSql

open NamedSql.Flow

variable {σ : Type} {b : Backend σ}

theorem Equipment.apply_handle (e : Equipment) (st : Statement) : (e.apply st).handle = st.handle := rfl

theorem Equipment.apply_closed (e : Equipment) (st : Statement) : (e.apply st).closed = st.closed := rfl

namespace Step

variable {α : Type}

/-! ### Steps without steps of their own -/

theorem keeps_terminate {owned : List Nat} : Keeps (Accounts owned) (Session.terminate b.recorded) := fun _ h =>
  wp_mono (Session.wp_terminate h.registered h.ended) (fun _ _ h => .of_ended h) fun _ _ h => .of_ended h

theorem keeps_silent {c : Call (Recorded σ) α} (hc : Silent c) {owned : List Nat} :
    Keeps (Accounts owned) (Dialog.call c) :=
  Accounts.keeps fun _ _ => Session.keeps_silent hc

theorem keeps_passTime (millis : Int) : Keeps (Kept (σ := σ) []) (passTime millis) := by
  refine Workbench.keeps_onLine fun owned => (keeps_silent fun es => ?_).discard
  exact (Keeps.read _).bind fun _ => (Keeps.ofCalendar _).bind fun _ => .modify fun _ h => h

/-- A step without steps of its own leaves the session the handles of the statements. -/
theorem keeps_perform (step : Step σ) : Keeps (Kept []) (step.recorded.perform b.recorded) := by
  cases step with
  | look => exact .pure _
  | refuse cause => exact .fail _
  | addStatement name sql page equipment =>
    exact (Keeps.ofExcept _).bind fun _ => (Workbench.keeps_parse sql).bind fun _ =>
      (Workbench.keeps_addStatement _ _ _ equipment.apply_handle equipment.apply_closed).map _
  | addFromCatalog name resource statement page equipment =>
    exact (Keeps.ofExcept _).bind fun _ =>
      (Workbench.keeps_addFromCatalog _ _ _ _ equipment.apply_handle equipment.apply_closed).map _
  | dropStatement name =>
    refine Keeps.bind (fun w h => ?_) fun _ => .pure _
    exact wp_mono (Workbench.wp_dropStatement name h) (fun _ _ h => h.1) fun _ _ h => h.elim
  | use statement action =>
    exact (Workbench.keeps_useStatement _ fun _ => Statement.keeps_perform action).map _
  | openCursor statement cursor => exact (Workbench.keeps_openCursor _ _).bind fun _ => .pure _
  | nextRow cursor => exact (Workbench.keeps_useCursor _ Cursor.silent_nextRow).map _
  | drain cursor => exact (Workbench.keeps_drain _).map _
  | parse sql => exact (Workbench.keeps_parse _).map _
  | load resource text => exact (Workbench.keeps_loadResource _ _).bind fun _ => .pure _
  | pass millis => exact (keeps_passTime _).bind fun _ => .pure _
  | setClock millis =>
    exact (Workbench.keeps_onLine fun _ => Dialog.keeps_now).bind fun _ =>
      (keeps_passTime _).bind fun _ => .pure _
  | change f =>
    have hchange : Silent (Call.modifyLink (Recorded.lift f)) := fun _ => .modify fun _ h => h
    exact (Workbench.keeps_onLine fun _ => (keeps_silent hchange).discard).bind fun _ => .pure _
  | memo n action =>
    refine (Keeps.read _).bind fun memos => ?_
    split
    · exact .pure _
    · refine Keeps.map (.within fun w h => wp_of_forall (fun _ m => ?_) fun _ m => ?_) _
      · exact ⟨h.ascending, h.closed, h.accounts.booked, h.accounts.owned, h.accounts.ended⟩
      · exact ⟨h.ascending, h.closed, h.accounts.booked, h.accounts.owned, h.accounts.ended⟩
  | begin seconds =>
    exact (Workbench.keeps_onLine fun _ => Accounts.keeps fun _ _ => Session.keeps_begin seconds).bind
      fun _ => .pure _
  | expiry => exact (Workbench.keeps_onLine fun _ => Accounts.keeps fun _ _ => Session.keeps_expiry).map _
  | commit =>
    exact (Workbench.keeps_onLine fun _ => Accounts.keeps fun _ _ => Session.keeps_finish _).bind
      fun _ => .pure _
  | rollback =>
    exact (Workbench.keeps_onLine fun _ => Accounts.keeps fun _ _ => Session.keeps_finish _).bind
      fun _ => .pure _
  | ping =>
    exact (Workbench.keeps_onLine fun _ => Accounts.keeps fun _ _ => Session.keeps_ping).bind fun _ => .pure _
  | nextValue sequence =>
    exact (Workbench.keeps_onLine fun _ => Accounts.keeps fun _ _ => Session.keeps_nextValue _).bind
      fun _ => .pure _
  | terminate => exact (Workbench.keeps_onLine fun _ => keeps_terminate).attempt.bind fun _ => .pure _
  | transaction seconds body => exact .pure _

/-! ### Transactions -/

theorem keeps_withTransaction {τ : Type} {I : τ → Prop} {line : Part τ (Line (Recorded σ))}
    (hline : ∀ {β : Type} {m : Dialog (Recorded σ) β}, (∀ hs ended, Keeps (Registered hs ended) m) →
      Keeps I (within line m)) (seconds : Option Int) {body : Flow Failure τ α} (hbody : Keeps I body) :
    Keeps I (Session.withTransaction b.recorded line seconds body) := by
  refine (hline fun _ _ => Session.keeps_begin seconds).bind fun _ => hbody.attempt.bind fun r => ?_
  cases r with
  | ok a => exact (hline fun _ _ => Session.keeps_finish _).bind fun _ => .pure _
  | error e =>
    refine (hline fun _ _ => Session.keeps_finish _).attempt.bind fun r => ?_
    cases r with
    | ok u => exact .fail _
    | error e' =>
      exact (hline fun _ _ => Dialog.keeps_session.bind fun _ => Session.keeps_record _).bind fun _ => .fail _

/-- A result whose trace, if it has one, only visits workbenches with `P`. -/
def Result.Visits (P : Workbench σ → Prop) (r : Result σ) : Prop :=
  ∀ body cause w, r = .transaction body cause → Visited body w → P w

/-- A record that leaves a workbench with `P`, as the steps in it do. -/
def Record.Visits (P : Workbench σ → Prop) (r : Record σ (Result σ)) : Prop :=
  P r.left ∧ ∀ x, r.outcome = .done x → x.Visits P

theorem Record.visits_of_done {P : Workbench σ → Prop} {r : Record σ (Result σ)} {x : Result σ}
    (hr : r.outcome = .done x) (hleft : P r.left) (hx : x.Visits P) : r.Visits P := by
  refine ⟨hleft, fun y hy => ?_⟩
  obtain rfl : x = y := Outcome.done.inj (hr.symm.trans hy)
  exact hx

theorem Record.visits_of_failed {P : Workbench σ → Prop} {r : Record σ (Result σ)} {e : Failure}
    (hr : r.outcome = .failed e) (hleft : P r.left) : r.Visits P := by
  refine ⟨hleft, fun y hy => ?_⟩
  rw [hr] at hy
  cases hy

theorem visited_iff {P : Workbench σ → Prop} {t : Trace σ} :
    (∀ w, Visited t w → P w) ↔ ∀ r ∈ t, r.Visits P := by
  constructor
  · intro h r hr
    refine ⟨h _ (.left hr), ?_⟩
    rintro x hx body cause w rfl hw
    exact h w (.inside hr hx hw)
  · intro h w hw
    cases hw with
    | left hr => exact (h _ hr).1
    | inside hr hdone hbody => exact (h _ hr).2 _ hdone _ _ _ rfl hbody

/-- A scene in which the handles of the session were always those of the statements. -/
structure Played (s : Scene (Recorded σ)) : Prop where
  bench : Kept [] s.bench
  trace : ∀ r ∈ s.trace, r.Visits (Kept [])

/-! ### Results -/

def Result.isTransaction : Result σ → Bool
  | .transaction _ _ => true
  | _ => false

theorem Result.visits_of_not {P : Workbench σ → Prop} {r : Result σ} (h : r.isTransaction = false) :
    r.Visits P := by
  rintro body cause w rfl
  cases h

/-- Only transactions give traces. -/
theorem gives_perform (step : Step σ) : Gives (fun r => r.isTransaction = false) (step.perform b) := by
  cases step with
  | look => exact .pure rfl
  | refuse cause => exact .fail _
  | addStatement name sql page equipment => exact .bind fun _ => .bind fun _ => .map fun _ => rfl
  | addFromCatalog name resource statement page equipment => exact .bind fun _ => .map fun _ => rfl
  | dropStatement name => exact .bind fun _ => .pure rfl
  | use statement action => exact .map fun _ => rfl
  | openCursor statement cursor => exact .bind fun _ => .pure rfl
  | nextRow cursor => exact .map fun _ => rfl
  | drain cursor => exact .map fun _ => rfl
  | parse sql => exact .map fun _ => rfl
  | load resource text => exact .bind fun _ => .pure rfl
  | pass millis => exact .bind fun _ => .pure rfl
  | setClock millis => exact .bind fun _ => .bind fun _ => .pure rfl
  | change f => exact .bind fun _ => .pure rfl
  | memo n action =>
    refine .bind fun memos => ?_
    split
    · exact .pure rfl
    · exact .map fun _ => rfl
  | begin seconds => exact .bind fun _ => .pure rfl
  | expiry => exact .map fun _ => rfl
  | commit => exact .bind fun _ => .pure rfl
  | rollback => exact .bind fun _ => .pure rfl
  | ping => exact .bind fun _ => .pure rfl
  | nextValue sequence => exact .bind fun _ => .pure rfl
  | terminate => exact .bind fun _ => .pure rfl
  | transaction seconds body => exact .pure rfl

/-! ### Runs -/

theorem run_recorded {step : Step σ} (h : ∀ seconds body, step ≠ .transaction seconds body) :
    run b.recorded step.recorded = within benchPart (step.recorded.perform b.recorded) := by
  cases step with
  | transaction seconds body => exact absurd rfl (h seconds body)
  | _ => rfl

theorem wp_perform {step : Step σ} (hstep : ∀ seconds body, step ≠ .transaction seconds body)
    {s : Scene (Recorded σ)} (h : Played s) :
    wp (run b.recorded step.recorded) (fun r s => Played s ∧ r.Visits (Kept [])) (fun _ => Played) s := by
  rw [run_recorded hstep, wp_within]
  have hkept := keeps_perform (b := b) step s.bench h.bench
  have hplain := gives_perform (b := b.recorded) step.recorded s.bench
  exact wp_mono (hkept.and hplain) (fun r w hr => ⟨⟨hr.1, h.trace⟩, Result.visits_of_not hr.2⟩)
    fun _ w hw => ⟨hw.1, h.trace⟩

theorem keeps_inScene {β : Type} {m : Dialog (Recorded σ) β} (hm : ∀ hs ended, Keeps (Registered hs ended) m) :
    Keeps Played (within linePart m) :=
  Keeps.within fun s h => wp_mono (Accounts.keeps hm s.bench.line h.bench.accounts)
    (fun _ _ ha => ⟨⟨h.bench.ascending, h.bench.closed, ha⟩, h.trace⟩)
    fun _ _ ha => ⟨⟨h.bench.ascending, h.bench.closed, ha⟩, h.trace⟩

-- The induction follows the steps and the bodies of their transactions, as running them does.
mutual

theorem wp_run (step : Step σ) {s : Scene (Recorded σ)} (h : Played s) :
    wp (run b.recorded step.recorded) (fun r s => Played s ∧ r.Visits (Kept [])) (fun _ => Played) s := by
  cases step with
  | transaction seconds body =>
    have hbody := keeps_withTransaction (b := b) keeps_inScene seconds (keeps_runBody body)
    have hstart : Played { s with trace := [] } := ⟨h.bench, List.forall_mem_nil _⟩
    unfold recorded run
    rw [wp_bind, wp_read, wp_bind, wp_modify]
    refine hbody.attemptThen hstart fun r t ht => ?_
    rw [wp_bind, wp_read, wp_bind, wp_modify]
    refine ⟨⟨ht.bench, h.trace⟩, ?_⟩
    rintro body cause w heq hw
    obtain rfl : t.trace = body := (Result.transaction.inj heq).1
    exact visited_iff.2 ht.trace w hw
  | _ => exact wp_perform (by exact nofun) h

theorem keeps_runBody (steps : List (Step σ)) : Keeps Played (runBody b.recorded (recordedAll steps)) := by
  cases steps with
  | nil => exact .pure _
  | cons step rest =>
    intro s h
    have hrest := keeps_runBody rest
    unfold recordedAll runBody
    rw [wp_bind, wp_read, wp_bind, wp_attempt]
    refine wp_mono (wp_run step h) (fun r t ht => ?_) fun e t ht => ?_
    · rw [wp_bind, wp_modify]
      refine hrest _ ⟨ht.1.bench, List.forall_mem_append.2 ⟨ht.1.trace, List.forall_mem_singleton.2 ?_⟩⟩
      exact Record.visits_of_done rfl ht.1.bench ht.2
    · rw [wp_bind, wp_modify]
      refine ⟨ht.bench, List.forall_mem_append.2 ⟨ht.trace, List.forall_mem_singleton.2 ?_⟩⟩
      exact Record.visits_of_failed rfl ht.bench

end

theorem kept_runOn {w : Workbench (Recorded σ)} (step : Step σ) (h : Kept [] w)
    (hr : (runOn b.recorded w step.recorded).outcome ≠ .overflow) :
    (runOn b.recorded w step.recorded).Visits (Kept []) := by
  have hrun := wp_run (b := b) (s := ⟨w, [], w⟩) step ⟨h, List.forall_mem_nil _⟩
  unfold wp at hrun
  unfold runOn at hr ⊢
  rcases hs : run b.recorded step.recorded ⟨w, [], w⟩ with ⟨x | e | _, s⟩ <;> rw [hs] at hrun hr
  · exact Record.visits_of_done rfl hrun.1.bench hrun.2
  · exact Record.visits_of_failed rfl hrun.bench
  · exact absurd rfl hr

theorem kept_runAll {w : Workbench (Recorded σ)} (steps : List (Step σ)) (h : Kept [] w)
    (hr : ∀ r ∈ runAll b.recorded w (steps.map recorded), r.outcome ≠ .overflow) :
    (∀ r ∈ runAll b.recorded w (steps.map recorded), r.Visits (Kept [])) ∧
      Kept [] (lastOf w (runAll b.recorded w (steps.map recorded))) := by
  induction steps generalizing w with
  | nil => exact ⟨List.forall_mem_nil _, h⟩
  | cons step steps ih =>
    obtain ⟨hfirst, hothers⟩ := List.forall_mem_cons.1 hr
    have hleft := kept_runOn step h hfirst
    obtain ⟨hrest, hlast⟩ := ih hleft.1 hothers
    exact ⟨List.forall_mem_cons.2 ⟨hleft, hrest⟩, hlast⟩

theorem kept_start (name : String) (settings : Settings) (link : σ) (now : Instant) (log : List Event)
    (memos : List Memo) :
    Kept [] (Workbench.start ⟨.start name settings, ⟨link, now⟩, log⟩ memos).toRecorded :=
  ⟨List.Pairwise.nil, nofun, .empty, fun _ => .nil, nofun⟩

/-- In a run in which no time runs out of the calendar, after every step, those within transactions
included, the handles of a session that is not over are those of the open statements, each of which has
one of its own if any. The run is the same when the database is recorded, and the records show that nothing
is done with a handle after an attempt to close it. When in the end the workbench is given up, closing was
attempted once for every handle that was opened. -/
theorem handles_accounted (b : Backend σ) (name : String) (settings : Settings) (link : σ) (now : Instant)
    (log : List Event) (memos : List Memo) (steps : List (Step σ)) {w : Workbench σ} {t : Trace σ}
    {t' : Trace (Recorded σ)} (hw : w = .start ⟨.start name settings, ⟨link, now⟩, log⟩ memos)
    (ht : t = runAll b w steps) (ht' : t' = runAll b.recorded w.toRecorded (steps.map recorded))
    (hr : ∀ r ∈ t, r.outcome ≠ .overflow) :
    (∀ v, Visited t v → v.line.session.terminated = false →
      v.line.session.handles.Perm (openHandles v.statements) ∧ (openHandles v.statements).Nodup) ∧
    t = mapTrace Workbench.plain t' ∧ (∀ v, Visited t' v → NoneAfterClose v.line.world.link.events) ∧
    ∀ x last, Workbench.drop b.recorded (lastOf w.toRecorded t') = (x, last) →
      Workbench.drop b (lastOf w t) = (x, last.plain) ∧
      (x ≠ .overflow → NoneAfterClose last.line.world.link.events ∧
        ClosedOnce last.line.world.link.events) := by
  subst hw ht ht'
  set w := Workbench.start ⟨.start name settings, ⟨link, now⟩, log⟩ memos
  have hplain : runAll b w steps =
      mapTrace Workbench.plain (runAll b.recorded w.toRecorded (steps.map recorded)) :=
    runAll_recorded w.toRecorded steps
  rw [hplain] at hr ⊢
  have hr' : ∀ r ∈ runAll b.recorded w.toRecorded (steps.map recorded), r.outcome ≠ .overflow := by
    intro r hmem hover
    refine hr (r.map Workbench.plain) ?_ ?_
    · rw [mapTrace_eq]
      exact List.mem_map_of_mem hmem
    · rw [Record.map_outcome, hover]; rfl
  obtain ⟨hvisits, hlast⟩ := kept_runAll steps (kept_start name settings link now log memos) hr'
  have hkept := visited_iff.2 hvisits
  refine ⟨fun v hv => ?_, rfl, fun v hv => ?_, fun x last hdrop => ?_⟩
  · obtain ⟨v, hvisited, rfl⟩ := hv.exists_of_map
    exact (hkept v hvisited).openHandles
  · exact (hkept v hv).accounts.booked.ledger.noneAfterClose
  · have hlastplain (u : Trace (Recorded σ)) :
        lastOf w (mapTrace Workbench.plain u) = (lastOf w.toRecorded u).plain :=
      lastOf_map (f := Workbench.plain) w.toRecorded u
    rw [hlastplain]
    refine ⟨drop_recorded hdrop, fun hx => ?_⟩
    have hend := Workbench.wp_drop (b := b) hlast
    unfold wp at hend
    rw [hdrop] at hend
    have hledger : Ledger last.line.world.link.events [] := by
      cases x with
      | done u => exact hend.booked.ledger
      | failed e => exact hend.elim
      | overflow => exact absurd rfl hx
    exact ⟨hledger.noneAfterClose, hledger.closedOnce⟩

/-- A statement is executed for lists of two lengths, and rows are counted within a transaction. -/
def twoWidths : List (Step Script) :=
  [.addStatement "s" "DELETE FROM t WHERE k IN (:ks[])" none ⟨none, none, []⟩,
    .use "s" (.bind (.name "ks") (.sequence [.integer 1])), .use "s" .update,
    .use "s" (.bind (.name "ks") (.sequence [.integer 1, .integer 2])), .use "s" .update,
    .transaction none [.use "s" .count]]

/-- The handle for the second length is the last one to be closed. -/
theorem handles_accounted_of_two_widths : ∃ (w : Workbench Script) (t : Trace Script)
    (t' : Trace (Recorded Script)) (last : Workbench (Recorded Script)),
    w = .start ⟨.start "main" .default, ⟨.empty, .epoch⟩, []⟩ [] ∧ t = runAll Script.buffered w twoWidths ∧
    (∀ r ∈ t, r.outcome ≠ .overflow) ∧ t = mapTrace Workbench.plain t' ∧
    (Workbench.drop Script.buffered (lastOf w t)).2 = last.plain ∧
    last.line.world.link.events.getLast? = some (.closed 1) ∧ NoneAfterClose last.line.world.link.events ∧
    ClosedOnce last.line.world.link.events := by
  obtain ⟨-, hsame, -, hend⟩ := handles_accounted Script.buffered "main" .default .empty .epoch [] [] twoWidths
    rfl rfl rfl (by decide +kernel)
  obtain ⟨hlast, hdone⟩ := hend _ _ rfl
  exact ⟨_, _, _, _, rfl, rfl, by decide +kernel, hsame, congrArg Prod.snd hlast, by decide +kernel,
    hdone (by decide +kernel)⟩

end Step

end NamedSql
