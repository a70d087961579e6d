import NamedSql.Backend.Script
import NamedSql.Proofs.Lawful
import NamedSql.Proofs.Watching

/-!
# Deadlines

What the time limit of a transaction does to the actions that execute a statement (`deadlines_hold`). Once
it has expired the database is not called at all. An execution that succeeds but comes back too late fails
with a bare timeout. An execution that fails is reported as it would be without a limit.
-/

namespace NamedSql

open NamedSql.Flow

variable {σ α : Type} {b : Backend σ}

/-! ### Time limits -/

namespace TimeLimit

theorem budget?_of_expired {t : TimeLimit} {e now : Instant} (h : t.expiry? = some e) (hnow : e.millis ≤ now.millis) :
    budget? (some t) now = some .exhausted := by
  have hleft : ¬ 0 < e.since now := by
    show ¬ 0 < e.millis - now.millis
    omega
  show (t.expiry?.map (·.since now)).map _ = _
  rw [h, Option.map_some, Option.map_some, if_neg hleft]

end TimeLimit

/-! ### Executions that are seen -/

def Request.executes : Request → Bool
  | .execute _ | .executeBatch .. => true
  | _ => false

/-- How an execution ended and when, if this is one. -/
def Watch.execution? : Watch → Option (Outcome NativeFault Unit × Instant)
  | .called request ending now => if request.executes then some (ending, now) else none
  | .changed _ => none

theorem Watch.execution?_of_request {x : Watch} (h : x.request.executes = false) : x.execution? = none := by
  cases x with
  | changed request => rfl
  | called request ending now => exact if_neg (Bool.eq_false_iff.1 h)

/-- An execution that succeeded before the time was over, if this is an execution that came to an end. -/
def Watch.InTime (limit : Option TimeLimit) (x : Watch) : Prop :=
  ∀ ending now, x.execution? = some (ending, now) →
    (∀ fault, ending ≠ .failed fault) ∧
      (ending = .done () → TimeLimit.budget? limit now ≠ some .exhausted)

/-- A failure that is right for an execution, if this is one: a bare timeout when it succeeded too late,
and the vendor's failure when it failed. -/
structure Watch.Explains (v : Vendor) (limit : Option TimeLimit) (e : Failure) (x : Watch) : Prop where
  late : ∀ now, x.execution? = some (.done (), now) → TimeLimit.budget? limit now = some .exhausted →
    ∃ sql parameters, e = .timeout ⟨sql, parameters, none⟩
  failed : ∀ fault now, x.execution? = some (.failed fault, now) →
    ∃ sql parameters, e = v.failure sql parameters fault

/-- An attempt to close a handle ran out of the calendar. -/
def ClosingStopped (calls : List Watch) : Prop :=
  ∃ handle now, .called (.close handle) .overflow now ∈ calls

namespace Watch

variable {v : Vendor} {limit : Option TimeLimit} {x : Watch} {calls more : List Watch}

theorem inTime_of_request (h : x.request.executes = false) : x.InTime limit := by
  intro ending now hx
  rw [execution?_of_request h] at hx
  cases hx

theorem InTime.explains (h : x.InTime limit) (e : Failure) : x.Explains v limit e where
  late now hx hlate := absurd hlate ((h _ now hx).2 rfl)
  failed fault now hx := absurd rfl ((h _ now hx).1 fault)

theorem explains_of_request (e : Failure) (h : x.request.executes = false) : x.Explains v limit e :=
  InTime.explains (inTime_of_request h) e

end Watch

/-! ### Calls that execute -/

/-- Every execution that was seen ended in this way at this time. -/
def Watch.EndedAt (ending : Outcome NativeFault Unit) (now : Instant) (x : Watch) : Prop :=
  ∀ y, x.execution? = some y → y = (ending, now)

theorem Watch.endedAt_of_request {x : Watch} (ending : Outcome NativeFault Unit) (now : Instant)
    (h : x.request.executes = false) : x.EndedAt ending now := by
  intro y hx
  rw [execution?_of_request h] at hx
  cases hx

/-- A call whose executions end as the call does and when it does. -/
def Executes (c : Call (Watched σ) α) : Prop :=
  ∀ start w, Since (fun calls => ∀ x ∈ calls, x.request.executes = false) start w →
    ends c (fun _ v => Since (fun calls => ∀ x ∈ calls, x.EndedAt (.done ()) v.now) start v)
      (fun fault v => Since (fun calls => ∀ x ∈ calls, x.EndedAt (.failed fault) v.now) start v)
      (fun v => Since (fun calls => ∀ x ∈ calls, x.EndedAt .overflow v.now) start v) w

abbrev ExecutesNothing (c : Call (Watched σ) α) : Prop :=
  Asks (fun request => request.executes = false) c

theorem Executes.watch (request : Request) (c : Call σ α) : Executes (Watched.watch request c) := by
  intro start w hw
  have hsnoc (ending : Outcome NativeFault Unit) (v : World (Watched σ))
      (hv : v.link.seen = w.link.seen ++ [.called request ending v.now]) :
      Since (fun calls => ∀ x ∈ calls, x.EndedAt ending v.now) start v := by
    have hlast : ∀ x ∈ [Watch.called request ending v.now], x.EndedAt ending v.now := by
      refine List.forall_mem_singleton.2 fun y hy => ?_
      rw [Watch.execution?] at hy
      split at hy
      · exact (Option.some.inj hy).symm
      · cases hy
    exact hw.trans ⟨_, hv, hlast⟩ fun calls more hcalls hmore =>
      List.forall_mem_append.2 ⟨fun x hx => Watch.endedAt_of_request _ _ (hcalls x hx), hmore⟩
  exact ends_watch request c (fun _ v => hsnoc _ v) (fun _ v => hsnoc _ v) fun v => hsnoc _ v

theorem Executes.after {β : Type} {c : Call (Watched σ) β} {f : β → Call (Watched σ) α} (hc : ExecutesNothing c)
    (hf : ∀ x, Executes (f x)) : Executes (c >>= f) := by
  intro start w hw
  have hnone (ending : Outcome NativeFault Unit) (v : World (Watched σ))
      (hv : Since (fun calls => ∀ x ∈ calls, x.request.executes = false) start v) :
      Since (fun calls => ∀ x ∈ calls, x.EndedAt ending v.now) start v :=
    hv.mono fun calls hcalls x hx => Watch.endedAt_of_request _ _ (hcalls x hx)
  rw [ends_bind]
  exact ends_mono (hc start w hw) (fun x v hv => hf x start v hv) (fun _ v => hnone _ v) fun v => hnone _ v

theorem executes_execute (handle : Nat) (values : List Value) (maxRows : Option UInt64) :
    Executes (Statement.execute b.watched handle values maxRows) :=
  .after (asks_clearBindings rfl) fun _ => .after (asks_bindFrom (fun _ _ => rfl) 1 values) fun _ =>
    .after (asks_limitRows rfl) fun _ => .watch _ _

theorem executes_executeBound (handle : Nat) (values : List Value) :
    Executes (b.watched.bindFrom handle 1 values >>= fun _ => b.watched.execute handle) :=
  .after (asks_bindFrom (fun _ _ => rfl) 1 values) fun _ => .watch _ _

/-! ### The law -/

namespace Statement

/-- Work goes on while every execution has succeeded in time. What fails explains every execution, and
what stops had no execution that it should have reported, but for one behind a handle whose closing
stopped. -/
def deadlineLaw (v : Vendor) (limit : Option TimeLimit) (start : List Watch) :
    Law Failure (Desk (Watched σ)) where
  going := Desk.Has (fun _ => True) (fun s => s.vendor = v ∧ s.timeLimit = limit)
    (Since (fun calls => ∀ x ∈ calls, x.InTime limit) start)
  failed e d := Since (fun calls => ∀ x ∈ calls, x.Explains v limit e) start d.line.world
  stopped d := Since (fun calls => (∀ x ∈ calls, x.InTime limit) ∨ ClosingStopped calls) start d.line.world
  fails h e := h.line.world.mono fun _ hcalls x hx => (hcalls x hx).explains e
  stops h := h.line.world.mono fun _ => .inl

variable {v : Vendor} {limit : Option TimeLimit} {start : List Watch}

theorem inTime_asks {c : Call (Watched σ) α} (hc : ExecutesNothing c) :
    Obeys (.always NativeFault (Since (fun calls => ∀ x ∈ calls, x.InTime limit) start)) c :=
  hc.keeps (forall_append_of (fun _ hx => hx) fun _ => Watch.inTime_of_request) start

theorem handling_deadlineLaw : Handling b.watched (deadlineLaw v limit start) := by
  refine .of_always (.has ?_ ?_ ?_ ?_ ?_)
  · exact fun _ _ _ => trivial
  · exact .of_apart fun _ _ _ hs => hs
  · exact fun _ _ => inTime_asks (asks_prepare rfl)
  · exact fun _ => inTime_asks (asks_close rfl)
  · exact fun feed => inTime_asks (asks_nextRow (fun _ => rfl) feed)

/-- A call on the statement's handle is judged by the clock as it stands when the call has come back. -/
theorem obeys_callInTime {handle : Nat} (sql : String) (parameters : Option String) {c : Call (Watched σ) α}
    (hc : Executes c) :
    Obeys (deadlineLaw v limit start) (callInTime b.watched handle sql parameters c) := by
  rintro d ⟨-, ⟨rfl, rfl⟩, hcalls⟩
  have hgoing : (deadlineLaw d.line.session.vendor d.line.session.timeLimit start).going d :=
    ⟨trivial, ⟨rfl, rfl⟩, hcalls⟩
  refine ends_callInTime sql parameters (Law.fails _ hgoing) (Law.stops _ hgoing) fun before _ _ => ?_
  have hquiet : Asks (fun r => r.executes = false) (limitTime b.watched handle before) :=
    asks_limitTime (fun _ => rfl) before
  have hexecutes := Executes.after hquiet fun _ => hc
  have hends := hexecutes d.line.world.link.seen d.line.world (Since.refl (List.forall_mem_nil _))
  refine ends_mono hends (fun a w hw => ?_) (fun fault w hw => ?_) fun w hw => ?_
  · split
    · next hlate =>
      refine hcalls.trans hw (forall_append_of (fun x hx => hx.explains _) fun x hx => ⟨?_, ?_⟩)
      · exact fun _ _ _ => ⟨sql, parameters, rfl⟩
      · intro fault now hy
        cases hx _ hy
    · next hlate =>
      refine ⟨trivial, ⟨rfl, rfl⟩, hcalls.trans hw (forall_append_of (fun _ hx => hx) fun x hx => ?_)⟩
      intro ending now hy
      cases hx _ hy
      exact ⟨fun _ => nofun, fun _ => hlate⟩
  · refine hcalls.trans hw (forall_append_of (fun x hx => hx.explains _) fun x hx => ⟨?_, ?_⟩)
    · intro now hy
      cases hx _ hy
    · intro fault' now hy
      cases hx _ hy
      exact ⟨sql, parameters, rfl⟩
  · refine hcalls.trans hw fun calls more hcalls hmore =>
      .inl (forall_append_of (fun _ hx => hx) (fun x hx => ?_) calls more hcalls hmore)
    intro ending now hy
    cases hx _ hy
    exact ⟨fun _ => nofun, nofun⟩

/-- After a failure a handle may still be closed; if that stops, so does everything. -/
theorem releaseFailed_deadlineLaw (e : Failure) (handle : Nat) (sql : String) (d : Desk (Watched σ))
    (hd : (deadlineLaw v limit start).failed e d) :
    ends (onLine (Session.release b.watched handle sql)) (fun _ => (deadlineLaw v limit start).failed e)
      (fun _ => (deadlineLaw v limit start).failed e) (deadlineLaw v limit start).stopped d := by
  have hclosed (ending : Outcome NativeFault Unit) (w : World (Watched σ))
      (hw : w.link.seen = d.line.world.link.seen ++ [.called (.close handle) ending w.now]) :
      Since (fun calls => ∀ x ∈ calls, x.Explains v limit e) start w :=
    hd.concat hw fun calls hcalls => List.forall_mem_append.2
      ⟨hcalls, List.forall_mem_singleton.2 (Watch.explains_of_request e rfl)⟩
  rw [ends_onLine]
  refine Session.ends_release hd (ends_watch _ _ (fun _ => hclosed _) (fun _ => hclosed _) fun w hw => ?_)
  have hstopped : Since (fun calls => (∀ x ∈ calls, x.InTime limit) ∨ ClosingStopped calls) start w :=
    hd.concat hw fun _ _ => .inr ⟨handle, w.now, List.mem_append_right _ List.mem_cons_self⟩
  exact hstopped

theorem callByCall_deadlineLaw : CallByCall b.watched (deadlineLaw v limit start) where
  toHandling := handling_deadlineLaw
  execute _ sql parameters _ _ := obeys_callInTime sql parameters (executes_execute _ _ _)
  executeBound _ sql parameters _ := obeys_callInTime sql parameters (executes_executeBound _ _)
  recordFailed _ _ _ hd := hd
  releaseFailed := releaseFailed_deadlineLaw

theorem obeys_perform {action : Action} (haction : action.executes = true) :
    Obeys (deadlineLaw v limit start) (action.perform b.watched) :=
  callByCall_deadlineLaw.perform haction fun _ =>
    callByCall_deadlineLaw.executeBatch (fun _ hd => ⟨trivial, hd.line⟩) fun _ sql parameters _ =>
      obeys_callInTime sql parameters (.watch _ _)

/-! ### After the expiry -/

end Statement

/-- A table that the statement's memo has under the bindings that the hooks make. -/
def Desk.Recalls (d : Desk σ) (table : Table) : Prop :=
  ∃ use memo bindings page, d.statement.memo = some use ∧ d.memos[use.memo]? = some memo ∧
    Hook.applyAll d.line.world.now d.statement.hooks d.statement.bindings = .done bindings ∧
    memo.get d.line.world.now (.ofPage d.statement.label bindings page) = .ok (some table)

def Desk.HooksStop (d : Desk σ) : Prop :=
  Hook.applyAll d.line.world.now d.statement.hooks d.statement.bindings = .overflow

namespace Statement

section
variable {Q : α → Desk σ → Prop} {E : Failure → Desk σ → Prop} {O : Desk σ → Prop} {d : Desk σ}
  (hE : ∀ e, E e d)
include hE

theorem checkOpen_late {f : Unit → Work σ α} (hf : ends (f ()) Q E O d) : ends (checkOpen >>= f) Q E O d := by
  rw [ends_bind, ends_checkOpen]
  split
  · exact hE _
  · exact hf

theorem resolve_late (hO : d.HooksStop → O d) {f : Bindings × Filled → Work σ α}
    (hf : ∀ bindings filled,
      Hook.applyAll d.line.world.now d.statement.hooks d.statement.bindings = .done bindings →
      ends (f (bindings, filled)) Q E O d) : ends (resolve >>= f) Q E O d := by
  rw [ends_bind, ends_resolve]
  split
  · next bindings hbindings =>
    split
    · next filled _ => exact hf bindings filled hbindings
    · exact hE _
  · exact hE _
  · next hstop => exact hO hstop

variable (hlate : TimeLimit.budget? d.line.session.timeLimit d.line.world.now = some .exhausted)
include hlate

theorem checkTime_late {f : Unit → Work σ α} (sql : String) (parameters : Option String) :
    ends (checkTime sql parameters >>= f) Q E O d := by
  rw [ends_bind, ends_checkTime, hlate]
  exact hE _

theorem run_late {Q : String × Reply → Desk σ → Prop} (activity : Activity) (bindings : Bindings)
    (filled : Filled) (window : Option Window) : ends (run b activity bindings filled window) Q E O d := by
  unfold run
  rw [ends_bind, statement, ends_read, ends_bind, ends_session, ends_bind, ends_ofExcept]
  split
  · rw [ends_bind, ends_shownParameters]
    exact checkTime_late hE hlate _ _
  · exact hE _

theorem openCursor_late {Q : Cursor → Desk σ → Prop} (activity : Activity) (bindings : Bindings)
    (filled : Filled) (window : Window) : ends (openCursor b activity bindings filled window) Q E O d := by
  unfold openCursor
  rw [ends_bind, ends_session, ends_bind]
  exact run_late hE hlate _ _ _ _

theorem fetch_late {Q : Table → Desk σ → Prop} (bindings : Bindings) (filled : Filled) (window : Window) :
    ends (fetch b bindings filled window) Q E O d := by
  unfold fetch
  rw [ends_bind]
  exact openCursor_late hE hlate _ _ _ _

theorem countFilled_late {Q : UInt64 → Desk σ → Prop} (label : String) (bindings : Bindings) (filled : Filled) :
    ends (countFilled b label bindings filled) Q E O d := by
  unfold countFilled
  rw [ends_bind, ends_session, ends_bind, ends_ofExcept]
  split
  · rw [ends_bind, ends_shownParameters]
    exact checkTime_late hE hlate _ _
  · exact hE _

theorem executeBatch_late {Q : List UInt64 → Desk σ → Prop} (hQ : d.statement.batch = [] → Q [] d) :
    ends (executeBatch b) Q E O d := by
  refine checkOpen_late hE ?_
  rw [ends_bind, statement, ends_read]
  split
  · next hbatch => exact hQ hbatch
  · rw [ends_bind, ends_session, ends_bind, ends_ofExcept]
    split
    · rw [ends_bind, ends_shownParameters]
      exact checkTime_late hE hlate _ _
    · exact hE _

variable (hO : d.HooksStop → O d)
include hO

theorem fetchMemo_late {Q : Table → Desk σ → Prop} (window : Window) (page : Option Page)
    (hQ : ∀ table log, d.Recalls table → Q table { d with line := { d.line with log := log } }) :
    ends (fetchMemo b window page) Q E O d := by
  unfold fetchMemo
  rw [ends_bind, statement, ends_read]
  refine resolve_late hE hO fun bindings filled hbindings => ?_
  rw [ends_bind, ends_read]
  dsimp only
  split
  · exact fetch_late hE hlate _ _ _
  · next use memo hfind =>
    obtain ⟨use, huse, hentry⟩ := Option.bind_eq_some_iff.1 hfind
    obtain ⟨memo, hmemo, heq⟩ := Option.map_eq_some_iff.1 hentry
    obtain ⟨rfl, rfl⟩ := Prod.mk.inj heq
    show ends (Flow.ofExcept (memo.get d.line.world.now _) >>= _) Q E O d
    rw [ends_bind, ends_ofExcept]
    split
    · next found hfound =>
      cases found with
      | some table => exact hQ table _ ⟨use, memo, bindings, page, huse, hmemo, hbindings, hfound⟩
      | none =>
        rw [ends_bind]
        exact fetch_late hE hlate _ _ _
    · exact hE _

end

/-- Once the time is over an action fails without a call on the database, unless the memo answers it or
there is nothing to execute. -/
theorem perform_late {d : Desk σ} {action : Action} (haction : action.executes = true)
    (hlate : TimeLimit.budget? d.line.session.timeLimit d.line.world.now = some .exhausted) :
    ends (action.perform b)
      (fun r d' => d'.line.world = d.line.world ∧
        ((∃ table, d.Recalls table ∧ r = .table table) ∨ (action = .executeBatch ∧ d.statement.batch = [])))
      (fun _ d' => d'.line.world = d.line.world) (fun d' => d'.line.world = d.line.world ∧ d.HooksStop) d := by
  have hE (e : Failure) : (fun (_ : Failure) (d' : Desk σ) => d'.line.world = d.line.world) e d := rfl
  have hO (h : d.HooksStop) : d.line.world = d.line.world ∧ d.HooksStop := ⟨rfl, h⟩
  -- every operation checks the time before its first call, but for the memo and the empty batch
  unfold Action.perform
  cases action with
  | retrieve =>
    rw [ends_map]
    refine checkOpen_late hE ?_
    rw [ends_bind, statement, ends_read]
    exact fetchMemo_late hE hlate hO _ _ fun table log h => ⟨rfl, .inl ⟨table, h, rfl⟩⟩
  | retrieveRange start limit =>
    rw [ends_map]
    refine checkOpen_late hE ?_
    rw [ends_bind, statement, ends_read, ends_bind, ends_require]
    split
    · rw [ends_bind, ends_ofExcept]
      split
      · exact fetchMemo_late hE hlate hO _ _ fun table log h => ⟨rfl, .inl ⟨table, h, rfl⟩⟩
      · next e _ => exact hE e
    · exact hE (.usage (.pagedStatement d.statement.label))
  | retrieveFirst =>
    rw [ends_map]
    refine checkOpen_late hE ?_
    rw [ends_bind, statement, ends_read]
    refine resolve_late hE hO fun bindings filled _ => ?_
    rw [ends_bind]
    exact openCursor_late hE hlate _ _ _ _
  | query =>
    rw [ends_map]
    refine checkOpen_late hE ?_
    rw [ends_bind, statement, ends_read]
    refine resolve_late hE hO fun bindings filled _ => ?_
    rw [ends_bind]
    exact openCursor_late hE hlate _ _ _ _
  | update =>
    rw [ends_map]
    refine checkOpen_late hE (resolve_late hE hO fun bindings filled _ => ?_)
    rw [ends_bind]
    exact run_late hE hlate _ _ _ _
  | count =>
    rw [ends_map]
    refine checkOpen_late hE ?_
    rw [ends_bind, statement, ends_read]
    exact resolve_late hE hO fun bindings filled _ => countFilled_late hE hlate _ _ _
  | executeBatch =>
    rw [ends_map]
    exact executeBatch_late hE hlate fun hbatch => ⟨rfl, .inr ⟨rfl, hbatch⟩⟩
  | bind | bindAll | clearBindings | addBatch | close => cases haction

theorem perform_reports {action : Action} (haction : action.executes = true) {d d' : Desk (Watched σ)}
    {r : Outcome Failure Result} (h : action.perform b.watched d = (r, d')) :
    ∃ calls, d'.line.world.link.seen = d.line.world.link.seen ++ calls ∧
      ((∃ e, r = .failed e ∧ ∀ x ∈ calls, x.Explains d.line.session.vendor d.line.session.timeLimit e) ∨
        (∀ x ∈ calls, x.InTime d.line.session.timeLimit) ∨ (r = .overflow ∧ ClosingStopped calls)) := by
  have hlaw : Obeys (deadlineLaw d.line.session.vendor d.line.session.timeLimit d.line.world.link.seen)
      (action.perform b.watched) := obeys_perform haction
  have hends := hlaw d ⟨trivial, ⟨rfl, rfl⟩, Since.refl (List.forall_mem_nil _)⟩
  unfold ends at hends
  rw [h] at hends
  cases r with
  | done x =>
    obtain ⟨calls, hseen, hcalls⟩ := hends.line.world
    exact ⟨calls, hseen, .inr (.inl hcalls)⟩
  | failed e =>
    obtain ⟨calls, hseen, hcalls⟩ := hends
    exact ⟨calls, hseen, .inl ⟨e, rfl, hcalls⟩⟩
  | overflow =>
    obtain ⟨calls, hseen, hcalls⟩ := hends
    exact ⟨calls, hseen, .inr (hcalls.imp_right fun hstopped => ⟨rfl, hstopped⟩)⟩

/-- The database is watched, which changes nothing. If the transaction has an expiry and an action starts
at it or later, nothing at all is asked of the database and the action fails, unless the memo answers it or
its batch is empty or its hooks run out of the calendar. If an execution succeeds but comes back at the
expiry or later, the action ends in a timeout without a cause. If an execution fails, with a limit or
without one, the action ends in the vendor's failure for that error. Only the closing of a handle after it
can hide such an end, when it runs out of the calendar itself. -/
theorem deadlines_hold (b : Backend σ) {action : Action} (haction : action.executes = true)
    {d d' : Desk (Watched σ)} {r : Outcome Failure Result} (h : action.perform b.watched d = (r, d')) :
    action.perform b d.unwatched = (r, d'.unwatched) ∧
    ∃ calls, d'.line.world.link.seen = d.line.world.link.seen ++ calls ∧
      (∀ expiry, d.line.session.timeLimit.bind TimeLimit.expiry? = some expiry →
        (expiry.millis ≤ d.line.world.now.millis → d'.line.world = d.line.world ∧ calls = [] ∧
          ((∃ e, r = .failed e) ∨ (∃ table, d.Recalls table ∧ r = .done (.table table)) ∨
            (action = .executeBatch ∧ d.statement.batch = []) ∨ (r = .overflow ∧ d.HooksStop))) ∧
        ∀ x ∈ calls, ∀ now, x.execution? = some (.done (), now) → expiry.millis ≤ now.millis →
          (∃ sql parameters, r = .failed (.timeout ⟨sql, parameters, none⟩)) ∨
            (r = .overflow ∧ ClosingStopped calls)) ∧
      ∀ x ∈ calls, ∀ fault now, x.execution? = some (.failed fault, now) →
        (∃ sql parameters, r = .failed (d.line.session.vendor.failure sql parameters fault)) ∨
          (r = .overflow ∧ ClosingStopped calls) := by
  obtain ⟨calls, hseen, hreport⟩ := perform_reports haction h
  refine ⟨perform_unwatched action h, calls, hseen, fun expiry hexpiry => ⟨fun hnow => ?_, ?_⟩, ?_⟩
  · obtain ⟨t, ht, hexpiry⟩ := Option.bind_eq_some_iff.1 hexpiry
    have hlate : TimeLimit.budget? d.line.session.timeLimit d.line.world.now = some .exhausted := by
      rw [ht]
      exact TimeLimit.budget?_of_expired hexpiry hnow
    have hends := perform_late (b := b.watched) haction hlate
    unfold ends at hends
    rw [h] at hends
    have hquiet (hworld : d'.line.world = d.line.world) : calls = [] := by
      rw [hworld] at hseen
      exact List.self_eq_append_right.1 hseen
    cases r with
    | done x =>
      obtain ⟨hworld, ⟨table, hrecalls, rfl⟩ | hempty⟩ := hends
      · exact ⟨hworld, hquiet hworld, .inr (.inl ⟨table, hrecalls, rfl⟩)⟩
      · exact ⟨hworld, hquiet hworld, .inr (.inr (.inl hempty))⟩
    | failed e => exact ⟨hends, hquiet hends, .inl ⟨e, rfl⟩⟩
    | overflow => exact ⟨hends.1, hquiet hends.1, .inr (.inr (.inr ⟨rfl, hends.2⟩))⟩
  · intro x hx now hdone hnow
    obtain ⟨t, ht, hexpiry⟩ := Option.bind_eq_some_iff.1 hexpiry
    have hlate : TimeLimit.budget? d.line.session.timeLimit now = some .exhausted := by
      rw [ht]
      exact TimeLimit.budget?_of_expired hexpiry hnow
    obtain ⟨e, rfl, hexplains⟩ | hinTime | hstopped := hreport
    · obtain ⟨sql, parameters, rfl⟩ := (hexplains x hx).late now hdone hlate
      exact .inl ⟨sql, parameters, rfl⟩
    · exact absurd hlate ((hinTime x hx _ now hdone).2 rfl)
    · exact .inr hstopped
  · intro x hx fault now hfailed
    obtain ⟨e, rfl, hexplains⟩ | hinTime | hstopped := hreport
    · obtain ⟨sql, parameters, rfl⟩ := (hexplains x hx).failed fault now hfailed
      exact .inl ⟨sql, parameters, rfl⟩
    · exact absurd rfl ((hinTime x hx _ now hfailed).1 fault)
    · exact .inr hstopped

def slowDesk : Desk (Watched Script) where
  statement := ofTemplate .sqlite ⟨"DELETE FROM t", '\\', "DELETE FROM t".toList.map .sql⟩ none
  memos := []
  line :=
    { session := { Session.start "main" .default with transaction := some (some ⟨.epoch, 1000⟩) }
      world := ⟨⟨Script.empty.push ⟨2000, .count 1⟩, []⟩, .epoch⟩
      log := [] }

theorem deadlines_hold_of_slow_update : ∃ r d', Action.update.perform Script.buffered.watched slowDesk = (r, d') ∧
    (d'.line.world.link.seen[4]?.bind Watch.execution?) = some (.done (), ⟨2000⟩) ∧
    ∃ sql parameters, r = .failed (.timeout ⟨sql, parameters, none⟩) := by
  obtain ⟨r, d', hperform, hexecuted, hends⟩ : ∃ r d',
      Action.update.perform Script.buffered.watched slowDesk = (r, d') ∧
      d'.line.world.link.seen[4]?.bind Watch.execution? = some (.done (), ⟨2000⟩) ∧ r ≠ .overflow :=
    ⟨_, _, rfl, rfl, by decide +kernel⟩
  have haction : Action.update.executes = true := rfl
  obtain ⟨-, calls, hseen, hlimit, -⟩ := deadlines_hold Script.buffered haction hperform
  obtain ⟨x, hx, hdone⟩ := Option.bind_eq_some_iff.1 hexecuted
  have hmem : x ∈ calls := by
    rw [hseen] at hx
    exact List.mem_of_getElem? hx
  obtain hbare | ⟨hover, -⟩ := (hlimit ⟨1000⟩ rfl).2 x hmem ⟨2000⟩ hdone (by decide)
  · exact ⟨r, d', hperform, hexecuted, hbare⟩
  · exact absurd hover hends

end Statement

end NamedSql
