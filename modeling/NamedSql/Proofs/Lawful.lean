import NamedSql.Statement.Action
import NamedSql.Proofs.Law

/-!
# Operations that obey a law

An operation that executes a statement fills the template, executes, reads out and records, in an order of
its own. A law that these parts obey is obeyed by all such operations (`Lawful.perform`), whatever the
order. When the law does not depend on what is executed, it is enough that the calls on the database obey it
one by one (`CallByCall.lawful`).
-/

namespace NamedSql

open NamedSql.Flow

variable {σ α : Type} {b : Backend σ}

/-- Work that keeps the states in which it may go on obeys the law. -/
theorem Obeys.of_always {ε τ : Type} {L : Law ε τ} {m : Flow ε τ α} (h : Obeys (.always ε L.going) m) :
    Obeys L m := fun s hs =>
  ends_mono (h s hs) (fun _ _ ht => ht) (fun e _ ht => L.fails ht e) fun _ ht => L.stops ht

/-! ### Calls of several requests -/

namespace Backend

variable {L : Law NativeFault (World σ)} (b)

theorem obeys_bindFrom {handle : Nat} (hbind : ∀ position v, Obeys L (b.bind handle position v))
    (position : Nat) (values : List Value) : Obeys L (b.bindFrom handle position values) := by
  induction values generalizing position with
  | nil => exact .pure _
  | cons v values ih => exact (hbind position v).bind fun _ => ih _

theorem obeys_nextRow (hfetch : ∀ handle, Obeys L (b.fetch handle)) (feed : Feed) :
    Obeys L (b.nextRow feed) := by
  obtain ⟨_ | handle, columns, _ | ⟨row, rows⟩, _ | fault⟩ := feed
  · exact .pure _
  · exact .fail _
  · exact .pure _
  · exact .pure _
  · exact (hfetch handle).bind fun _ => .pure _
  · exact (hfetch handle).bind fun _ => .fail _
  · exact (hfetch handle).bind fun _ => .pure _
  · exact (hfetch handle).bind fun _ => .pure _

end Backend

/-! ### What holds of sessions, connections and statements -/

/-- A line whose session has `T` and whose connection has `W`. -/
structure Line.Has (T : Session → Prop) (W : World σ → Prop) (l : Line σ) : Prop where
  session : T l.session
  world : W l.world

/-- A desk whose statement has `S`, on such a line. -/
structure Desk.Has (S : Statement → Prop) (T : Session → Prop) (W : World σ → Prop) (d : Desk σ) : Prop where
  statement : S d.statement
  line : d.line.Has T W

section
variable {S : Statement → Prop} {T : Session → Prop} {W : World σ → Prop}

theorem Dialog.has_call {c : Call σ α} (hc : Obeys (.always NativeFault W) c) :
    Obeys (.always Failure (Line.Has T W)) (Dialog.call c) := by
  refine Obeys.within fun l hl => ?_
  rw [ends_attempt]
  exact ends_mono (hc l.world hl.world) (fun _ _ hw => ⟨hl.session, hw⟩) (fun _ _ hw => ⟨hl.session, hw⟩)
    fun _ hw => ⟨hl.session, hw⟩

theorem Dialog.has_record (e : Event) : Obeys (.always Failure (Line.Has T W)) (Dialog.record e) :=
  .modify fun _ hl => ⟨hl.session, hl.world⟩

theorem Dialog.has_modifySession {f : Session → Session} (hf : ∀ s, T s → T (f s)) :
    Obeys (.always Failure (Line.Has T W)) (Dialog.modifySession f) :=
  .modify fun _ hl => ⟨hf _ hl.session, hl.world⟩

theorem Session.obeys_checkOpen {L : Law Failure (Line σ)} : Obeys L Session.checkOpen :=
  (Obeys.read _).bind fun _ => .require _ _

/-- What opening and releasing handles keeps. -/
structure Session.Steady (T : Session → Prop) : Prop where
  opened : ∀ s, T s → T { s with handles := s.handles ++ [s.nextHandle], nextHandle := s.nextHandle + 1 }
  released : ∀ s handle, T s → T { s with handles := s.handles.erase handle }

/-- What does not depend on the handles is steady. -/
theorem Session.Steady.of_apart (h : ∀ s handles next, T s → T { s with handles, nextHandle := next }) : Steady T :=
  ⟨fun s hs => h s _ _ hs, fun s _ hs => h s _ s.nextHandle hs⟩

theorem Session.has_prepareHandle (hT : Session.Steady T)
    (hW : ∀ handle sql, Obeys (.always NativeFault W) (b.prepare handle sql)) (sql : String) :
    Obeys (.always Failure (Line.Has T W)) (Session.prepareHandle b sql) := by
  refine (Obeys.read _).bind fun s => (Dialog.has_call (hW _ sql)).bind fun result => ?_
  cases result with
  | error fault => exact .fail _
  | ok u =>
    exact (Dialog.has_modifySession hT.opened).bind fun _ => (Dialog.has_record _).bind fun _ => .pure _

theorem Session.has_openHandle (hT : Session.Steady T)
    (hW : ∀ handle sql, Obeys (.always NativeFault W) (b.prepare handle sql)) (sql : String) :
    Obeys (.always Failure (Line.Has T W)) (Session.openHandle b sql) :=
  Session.obeys_checkOpen.bind fun _ => Session.has_prepareHandle hT hW sql

theorem Session.has_release (hT : ∀ s handle, T s → T { s with handles := s.handles.erase handle })
    (hW : ∀ handle, Obeys (.always NativeFault W) (b.close handle)) (handle : Nat) (sql : String) :
    Obeys (.always Failure (Line.Has T W)) (Session.release b handle sql) := by
  refine (Obeys.read _).bind fun s => ?_
  split
  · refine (Dialog.has_modifySession fun s hs => hT s handle hs).bind fun _ => ?_
    refine (Dialog.has_call (hW handle)).bind fun result => ?_
    cases result with
    | ok u => exact .pure _
    | error fault => exact .fail _
  · exact .pure _

theorem Session.obeys_settle {L : Law Failure (Line σ)} (hrecord : ∀ e, Obeys L (Dialog.record e))
    (result : Except Failure α) (closed : Except Failure Unit) (note : Failure → Event) :
    Obeys L (Session.settle result closed note) := by
  rcases result with e | a
  · rcases closed with e' | _
    · exact (hrecord _).bind fun _ => .fail _
    · exact .fail _
  · rcases closed with e' | _
    · exact .fail _
    · exact .pure _

theorem Session.has_closeAll (hW : ∀ handle, Obeys (.always NativeFault W) (b.close handle))
    (first : Option Failure) (handles : List Nat) :
    Obeys (.always Failure (Line.Has T W)) (Session.closeAll b first handles) := by
  induction handles generalizing first with
  | nil => exact .pure _
  | cons handle rest ih =>
    refine (Dialog.has_call (hW handle)).bind fun result => ?_
    rcases result with fault | _
    · rcases first with _ | e
      · exact ih _
      · exact (Obeys.read _).bind fun _ => (Dialog.has_record _).bind fun _ => ih _
    · exact ih _

theorem Statement.has_onLine {m : Dialog σ α} (h : Obeys (.always Failure (Line.Has T W)) m) :
    Obeys (.always Failure (Desk.Has S T W)) (onLine m) :=
  .within fun d hd => ends_mono (h d.line hd.line) (fun _ _ hl => ⟨hd.statement, hl⟩)
    (fun _ _ hl => ⟨hd.statement, hl⟩) fun _ hl => ⟨hd.statement, hl⟩

end

/-- A line after a statement was prepared under the next handle. -/
def Line.withNext (l : Line σ) (w : World σ) (log : List Event) : Line σ :=
  { l with
    session := { l.session with
      handles := l.session.handles ++ [l.session.nextHandle], nextHandle := l.session.nextHandle + 1 }
    world := w
    log := log }

theorem Session.ends_checkOpen {Q : Unit → Line σ → Prop} {E : Failure → Line σ → Prop} {O : Line σ → Prop}
    {l : Line σ} : ends checkOpen Q E O l ↔
      if l.session.terminated then E (.state (.sessionTerminated l.session.name)) l else Q () l := by
  show ends (Flow.require (!l.session.terminated) _) Q E O l ↔ _
  rw [ends_require]
  cases l.session.terminated <;> rfl

theorem Session.ends_prepareHandle {Q : Nat → Line σ → Prop} {E : Failure → Line σ → Prop}
    {O : Line σ → Prop} {l : Line σ} {sql : String} (hprepare : ends (b.prepare l.session.nextHandle sql)
      (fun _ w => ∀ log, Q l.session.nextHandle (l.withNext w log))
      (fun fault w => E (l.session.vendor.failure sql none fault) { l with world := w })
      (fun w => O { l with world := w }) l.world) :
    ends (prepareHandle b sql) Q E O l := by
  show ends (Dialog.call (b.prepare l.session.nextHandle sql) >>= _) Q E O l
  rw [ends_bind, Dialog.call, ends_within, ends_attempt]
  exact ends_mono hprepare (fun _ _ hw => hw _) (fun _ _ hw => hw) fun _ hw => hw

/-- Opening a handle fails where it started, or it is decided by preparing under the next handle. -/
theorem Session.ends_openHandle {Q : Nat → Line σ → Prop} {E : Failure → Line σ → Prop} {O : Line σ → Prop}
    {l : Line σ} {sql : String} (hE : ∀ e, E e l)
    (hprepare : ends (b.prepare l.session.nextHandle sql)
      (fun _ w => ∀ log, Q l.session.nextHandle (l.withNext w log))
      (fun fault w => E (l.session.vendor.failure sql none fault) { l with world := w })
      (fun w => O { l with world := w }) l.world) :
    ends (openHandle b sql) Q E O l := by
  unfold openHandle
  rw [ends_bind, ends_checkOpen]
  split
  · exact hE _
  · exact ends_prepareHandle hprepare

def Line.without (l : Line σ) (handle : Nat) (w : World σ) : Line σ :=
  { l with session := { l.session with handles := l.session.handles.erase handle }, world := w }

/-- A handle that is not open is left alone. -/
theorem Session.ends_release {Q : Unit → Line σ → Prop} {E : Failure → Line σ → Prop} {O : Line σ → Prop}
    {l : Line σ} {handle : Nat} {sql : String} (hgone : Q () l)
    (hclose : ends (b.close handle) (fun _ w => Q () (l.without handle w))
      (fun fault w => E (l.session.vendor.failure sql none fault) (l.without handle w))
      (fun w => O (l.without handle w)) l.world) :
    ends (release b handle sql) Q E O l := by
  show ends (if l.session.handles.contains handle then _ else Pure.pure ()) Q E O l
  split
  · rw [ends_bind, Dialog.modifySession, ends_modify, ends_bind, Dialog.call, ends_within, ends_attempt]
    exact hclose
  · exact hgone

/-! ### Reading rows -/

namespace Cursor

abbrev Minds (W : World σ → Prop) (m : Reading σ α) : Prop :=
  Obeys (.always Failure fun s => W s.2) m

variable {W : World σ → Prop} (h : ∀ feed, Obeys (.always NativeFault W) (b.nextRow feed))
include h

theorem minds_readRow : Minds W (readRow b) := by
  refine (Obeys.read _).bind fun c => Obeys.bind ?_ fun result => ?_
  · refine Obeys.within fun s hs => ?_
    rw [ends_attempt]
    exact h c.feed s.2 hs
  · cases result with
    | ok result => exact Obeys.bind (.modify fun _ hs => hs) fun _ => .pure _
    | error fault => exact Obeys.bind (.modify fun _ hs => hs) fun _ => .fail _

theorem minds_skipRows (count : Nat) : Minds W (skipRows b count) := by
  induction count with
  | zero => exact .pure _
  | succ count ih =>
    refine (minds_readRow h).bind fun row => ?_
    cases row with
    | none => exact .pure _
    | some row => exact Obeys.bind (.modify fun _ hs => hs) fun _ => ih

theorem minds_nextRow : Minds W (nextRow b) := by
  refine (Obeys.read _).bind fun c => ?_
  split
  · exact .pure _
  · refine (minds_skipRows h _).bind fun found => ?_
    split
    · refine (minds_readRow h).bind fun row => ?_
      cases row with
      | none => exact .pure _
      | some row => exact Obeys.bind (.modify fun _ hs => hs) fun _ => .pure _
    · exact .pure _

theorem minds_readRows (count : Nat) : Minds W (readRows b count) := by
  induction count with
  | zero => exact .pure _
  | succ count ih =>
    refine (minds_nextRow h).bind fun row => ?_
    cases row with
    | none => exact .pure _
    | some row => exact ih.bind fun _ => .pure _

theorem minds_readAll : Minds W (readAll b) :=
  (Obeys.read _).bind fun _ => (minds_readRows h _).bind fun _ => .pure _

end Cursor

/-- What the statement of a desk comes to with the bindings that it has now. -/
def Desk.resolved (d : Desk σ) : Option Filled :=
  match Hook.applyAll d.line.world.now d.statement.hooks d.statement.bindings with
  | .done bindings => (d.statement.template.fill bindings).toOption
  | _ => none

namespace Statement

variable {L : Law Failure (Desk σ)}

/-! ### What only looks -/

section
variable {Q : α → Desk σ → Prop} {E : Failure → Desk σ → Prop} {O : Desk σ → Prop} {d : Desk σ}

theorem ends_onLine (m : Dialog σ α) : ends (onLine m) Q E O d ↔
    ends m (fun a l => Q a { d with line := l }) (fun e l => E e { d with line := l })
      (fun l => O { d with line := l }) d.line :=
  ends_within Desk.linePart m

theorem ends_session {Q : Session → Desk σ → Prop} : ends session Q E O d ↔ Q d.line.session d := Iff.rfl

theorem ends_recordStart {Q : Unit → Desk σ → Prop} {activity : Activity} {sql : String}
    {parameters : Option String} {window : Option Window}
    (h : ∀ log, Q () { d with line := { d.line with log } }) :
    ends (recordStart activity sql parameters window) Q E O d :=
  h _

theorem ends_checkOpen {Q : Unit → Desk σ → Prop} : ends checkOpen Q E O d ↔
    if d.statement.closed then E (.state (.statementClosed d.statement.label)) d else Q () d := by
  show ends (Flow.require (!d.statement.closed) _) Q E O d ↔ _
  rw [ends_require]
  cases d.statement.closed <;> rfl

theorem ends_resolve {Q : Bindings × Filled → Desk σ → Prop} : ends resolve Q E O d ↔
    match Hook.applyAll d.line.world.now d.statement.hooks d.statement.bindings with
    | .done bindings =>
      match d.statement.template.fill bindings with
      | .ok filled => Q (bindings, filled) d
      | .error e => E e d
    | .failed e => E e d
    | .overflow => O d := by
  show ends (Flow.ofOutcome (Hook.applyAll d.line.world.now d.statement.hooks d.statement.bindings) >>= _) Q E O d
    ↔ _
  rw [ends_bind]
  cases Hook.applyAll d.line.world.now d.statement.hooks d.statement.bindings with
  | done bindings =>
    show ends (Flow.ofExcept (d.statement.template.fill bindings) >>= _) Q E O d ↔ _
    rw [ends_bind, ends_ofExcept]
    dsimp only
    cases d.statement.template.fill bindings with
    | ok filled => exact Iff.rfl
    | error e => exact Iff.rfl
  | failed e => exact Iff.rfl
  | overflow => exact Iff.rfl

/-- Filling the template is decided by what the desk has then, which it leaves alone. -/
theorem ends_resolveThen {f : Bindings × Filled → Work σ α}
    (hQ : ∀ bindings filled, d.resolved = some filled → ends (f (bindings, filled)) Q E O d) (hE : ∀ e, E e d)
    (hO : O d) : ends (resolve >>= f) Q E O d := by
  rw [ends_bind, ends_resolve]
  unfold Desk.resolved at hQ
  split
  · next bindings hbindings =>
    rw [hbindings] at hQ
    split
    · next filled hfilled => exact hQ bindings filled (congrArg Except.toOption hfilled)
    · exact hE _
  · exact hE _
  · exact hO

theorem ends_budget {Q : TimeLimit.Budget → Desk σ → Prop} : ends budget Q E O d ↔
    match TimeLimit.budget? d.line.session.timeLimit d.line.world.now with
    | some left => Q left d
    | none => O d := by
  show ends (Flow.ofCalendar (TimeLimit.budget? d.line.session.timeLimit d.line.world.now)) Q E O d ↔ _
  cases TimeLimit.budget? d.line.session.timeLimit d.line.world.now with
  | some left => exact Iff.rfl
  | none => exact Iff.rfl

theorem ends_shownParameters {Q : Option String → Desk σ → Prop} (text : String) :
    ends (shownParameters text) Q E O d ↔
      Q (if d.line.session.settings.logParameters then some text else none) d := Iff.rfl

theorem ends_checkTime {Q : Unit → Desk σ → Prop} (sql : String) (parameters : Option String) :
    ends (checkTime sql parameters) Q E O d ↔
      match TimeLimit.budget? d.line.session.timeLimit d.line.world.now with
      | some .exhausted => E (.timeout ⟨sql, parameters, none⟩) d
      | some _ => Q () d
      | none => O d := by
  unfold checkTime
  rw [ends_bind, ends_budget]
  rcases TimeLimit.budget? d.line.session.timeLimit d.line.world.now with _ | _ | _ | _
  · exact Iff.rfl
  · exact Iff.rfl
  · exact Iff.rfl
  · exact Iff.rfl

end

/-- Creating a statement fails where it started, or it is decided by preparing it. -/
theorem ends_create {Q : Statement → Line σ → Prop} {E : Failure → Line σ → Prop} {O : Line σ → Prop}
    {template : Template} {page : Option Page} {l : Line σ} (hE : ∀ e, E e l)
    (hprepare : ends (prepareNew b) (fun _ d => Q d.statement d.line) (fun e d => E e d.line) (fun d => O d.line)
      ⟨ofTemplate l.session.vendor template page, [], l⟩) : ends (create b template page) Q E O l := by
  unfold create
  rw [ends_bind, Session.ends_checkOpen]
  split
  · exact hE _
  · let st := ofTemplate l.session.vendor template page
    show ends (fun _ => ((prepareNew b ⟨st, [], l⟩).1.map fun () => (prepareNew b ⟨st, [], l⟩).2.statement,
      (prepareNew b ⟨st, [], l⟩).2.line)) Q E O l
    unfold ends at hprepare ⊢
    rcases hd : prepareNew b ⟨st, [], l⟩ with ⟨_ | _ | _, d⟩ <;> rw [hd] at hprepare <;> exact hprepare

theorem ends_readOut {Q : α → Desk σ → Prop} {E : Failure → Desk σ → Prop} {O : Desk σ → Prop} {d : Desk σ}
    (c : Cursor) (m : Cursor.Reading σ α) : ends (readOut c m) Q E O d ↔
      ends m (fun a s => Q a { d with line := { d.line with world := s.2 } })
        (fun e s => E e { d with line := { d.line with world := s.2 } })
        (fun s => O { d with line := { d.line with world := s.2 } }) (c, d.line.world) := by
  unfold ends readOut Cursor.use
  rcases m (c, d.line.world) with ⟨_ | _ | _, s⟩ <;> rfl

theorem has_readOut {S : Statement → Prop} {T : Session → Prop} {W : World σ → Prop} {m : Cursor.Reading σ α}
    (hm : Cursor.Minds W m) (c : Cursor) : Obeys (.always Failure (Desk.Has S T W)) (readOut c m) := fun d hd =>
  (ends_readOut c m).2 (ends_mono (hm (c, d.line.world) hd.line.world)
    (fun _ _ hw => ⟨hd.statement, hd.line.session, hw⟩) (fun _ _ hw => ⟨hd.statement, hd.line.session, hw⟩)
    fun _ hw => ⟨hd.statement, hd.line.session, hw⟩)

theorem obeys_session : Obeys L session := fun _ h => h

theorem obeys_now : Obeys L (onLine Dialog.now) := fun _ h => h

theorem obeys_checkOpen : Obeys L checkOpen := (Obeys.read _).bind fun _ => .require _ _

theorem obeys_resolve : Obeys L resolve :=
  (Obeys.read _).bind fun _ => obeys_now.bind fun _ => (Obeys.ofOutcome _).bind fun _ => (Obeys.ofExcept _).bind
    fun _ => .pure _

theorem obeys_budget : Obeys L budget := obeys_session.bind fun _ => obeys_now.bind fun _ => .ofCalendar _

theorem obeys_checkTime (sql : String) (parameters : Option String) : Obeys L (checkTime sql parameters) := by
  refine obeys_budget.bind fun left => ?_
  cases left with
  | exhausted => exact .fail _
  | _ => exact .pure _

theorem obeys_shownParameters (text : String) : Obeys L (shownParameters text) :=
  obeys_session.bind fun _ => .pure _

theorem obeys_recordStart (hrecord : ∀ e, Obeys L (onLine (Dialog.record e))) (activity : Activity)
    (sql : String) (parameters : Option String) (window : Option Window) :
    Obeys L (recordStart activity sql parameters window) :=
  (Obeys.read _).bind fun _ => hrecord _

end Statement

/-! ### Calls in time -/

/-- Whether a limit has an expiry does not depend on the clock. -/
theorem TimeLimit.budget?_isSome {limit : Option TimeLimit} {now later : Instant}
    (h : (budget? limit now).isSome) : (budget? limit later).isSome := by
  cases limit with
  | none => rfl
  | some t =>
    have hsome (u : Instant) : (budget? (some t) u).isSome = t.expiry?.isSome := by
      show ((t.expiry?.map (·.since u)).map _).isSome = _
      rw [Option.isSome_map, Option.isSome_map]
    rw [hsome] at h ⊢
    exact h

/-- No error is both a timeout and a duplicate key. -/
theorem Vendor.isDuplicateKey_of_isTimeout {v : Vendor} {f : NativeFault} (h : v.isTimeout f = true) :
    v.isDuplicateKey f = false := by
  obtain ⟨state, code, message⟩ := f
  cases v <;> simp only [isTimeout, timeouts, isDuplicateKey, duplicateKeys, Signature.isMatch, List.any_cons,
    List.any_nil, Bool.or_false, Bool.and_true, Bool.true_and] at h ⊢ <;> grind

/-- A timeout that the database reports is the same failure when the time is over and when it is not. -/
theorem Vendor.failure_of_isTimeout {v : Vendor} {f : NativeFault} (h : v.isTimeout f = true) (sql : String)
    (parameters : Option String) : v.failure sql parameters f = .timeout ⟨sql, parameters, some f⟩ := by
  have hduplicate : ¬ v.isDuplicateKey f = true := Bool.eq_false_iff.1 (isDuplicateKey_of_isTimeout h)
  rw [failure, if_neg hduplicate, if_pos h]

/-- How a call in time ends: before the call it fails where it started, or stops there if the limit has no expiry;
after it success is judged by the clock, and an error is the vendor's failure. -/
theorem Statement.ends_callInTime_of_budget {Q : α → Desk σ → Prop} {E : Failure → Desk σ → Prop}
    {O : Desk σ → Prop} {d : Desk σ} {handle : Nat} (sql : String) (parameters : Option String)
    {c : Call σ α} (hE : ∀ e, E e d)
    (hO : TimeLimit.budget? d.line.session.timeLimit d.line.world.now = none → O d)
    (hcall : ∀ before, TimeLimit.budget? d.line.session.timeLimit d.line.world.now = some before ∧
        before ≠ .exhausted → d.line.session.handles.contains handle = true →
      ends (limitTime b handle before >>= fun _ => c)
        (fun a w =>
          if TimeLimit.budget? d.line.session.timeLimit w.now = some .exhausted then
            E (.timeout ⟨sql, parameters, none⟩) { d with line := { d.line with world := w } }
          else Q a { d with line := { d.line with world := w } })
        (fun fault w =>
          E (d.line.session.vendor.failure sql parameters fault) { d with line := { d.line with world := w } })
        (fun w => O { d with line := { d.line with world := w } }) d.line.world) :
    ends (callInTime b handle sql parameters c) Q E O d := by
  unfold callInTime
  rw [ends_bind, ends_session, ends_bind, ends_budget]
  rcases hbefore : TimeLimit.budget? d.line.session.timeLimit d.line.world.now with _ | before
  · exact hO hbefore
  dsimp only
  split
  · exact hE _
  next hleft =>
  rw [ends_bind, ends_onLine]
  show ends (Flow.require _ _ >>= fun _ => Dialog.call _) _ _ _ _
  rw [ends_bind, ends_require]
  split
  · next hopen =>
    -- the budget is defined after the call as it was before it
    have hsome : (TimeLimit.budget? d.line.session.timeLimit d.line.world.now).isSome = true := by
      rw [hbefore]
      rfl
    have hafter (w : World σ) : ∃ after, TimeLimit.budget? d.line.session.timeLimit w.now = some after :=
      Option.isSome_iff_exists.1 (TimeLimit.budget?_isSome hsome)
    rw [Dialog.call, ends_within, ends_attempt]
    refine ends_mono (hcall before ⟨hbefore, hleft⟩ hopen) (fun a w hw => ?_) (fun fault w hw => ?_) fun _ hw => hw
    · obtain ⟨after, hafter⟩ := hafter w
      rw [hafter] at hw
      rw [ends_bind, ends_budget]
      show match TimeLimit.budget? d.line.session.timeLimit w.now with
        | some left => _
        | none => _
      rw [hafter]
      dsimp only
      split at hw
      · next hlate =>
        rw [if_pos (Option.some.inj hlate)]
        exact hw
      · next hlate =>
        rw [if_neg fun h => hlate (congrArg some h)]
        exact hw
    · obtain ⟨after, hafter⟩ := hafter w
      rw [ends_bind, ends_budget]
      show match TimeLimit.budget? d.line.session.timeLimit w.now with
        | some left => _
        | none => _
      rw [hafter]
      dsimp only
      split
      · next hlate =>
        rw [Vendor.failure_of_isTimeout (Bool.and_eq_true_iff.1 hlate).2] at hw
        exact hw
      · exact hw
  · exact hE _

theorem Statement.ends_callInTime {Q : α → Desk σ → Prop} {E : Failure → Desk σ → Prop} {O : Desk σ → Prop}
    {d : Desk σ} {handle : Nat} (sql : String) (parameters : Option String) {c : Call σ α} (hE : ∀ e, E e d) (hO : O d)
    (hcall : ∀ before, TimeLimit.budget? d.line.session.timeLimit d.line.world.now = some before ∧
        before ≠ .exhausted → d.line.session.handles.contains handle = true →
      ends (limitTime b handle before >>= fun _ => c)
        (fun a w =>
          if TimeLimit.budget? d.line.session.timeLimit w.now = some .exhausted then
            E (.timeout ⟨sql, parameters, none⟩) { d with line := { d.line with world := w } }
          else Q a { d with line := { d.line with world := w } })
        (fun fault w =>
          E (d.line.session.vendor.failure sql parameters fault) { d with line := { d.line with world := w } })
        (fun w => O { d with line := { d.line with world := w } }) d.line.world) :
    ends (callInTime b handle sql parameters c) Q E O d :=
  ends_callInTime_of_budget sql parameters hE (fun _ => hO) hcall

namespace Statement

variable {L : Law Failure (Desk σ)}

/-! ### Operations -/

/-- Counting the rows of a filled template. -/
def countFilled (b : Backend σ) (label : String) (bindings : Bindings) (filled : Filled) : Work σ UInt64 := do
  let s ← session
  let values ← Flow.ofExcept (boundValues s.vendor filled.values)
  let sql := s.vendor.countSql filled.sql
  let shown ← shownParameters bindings.render
  checkTime sql shown
  let handle ← onLine (Session.openHandle b sql)
  recordStart .count sql shown none
  let counted ← (countRow b s.vendor handle sql shown values).attempt
  let closed ← (onLine (Session.release b handle sql)).attempt
  let row ← onLine <| Session.settle counted closed fun e =>
    ⟨.warn, "failed to close count statement after error",
      [("statement", .text label), ("error", .text e.message)]⟩
  let n ← Flow.ofExcept (countOf row)
  recordEnd .count (some n)
  pure n

theorem obeys_settle (hrecord : ∀ e, Obeys L (onLine (Dialog.record e))) (result : Except Failure α)
    (closed : Except Failure Unit) (note : Failure → Event) : Obeys L (onLine (Session.settle result closed note)) := by
  intro d hd
  rcases result with e | a
  · rcases closed with e' | _
    · show ends (onLine (Dialog.record (note e') >>= fun _ => Flow.fail e)) _ _ _ d
      rw [ends_onLine, ends_bind]
      exact ends_mono ((ends_onLine _).1 (hrecord (note e') d hd)) (fun _ _ hl => L.fails hl e) (fun _ _ hl => hl)
        fun _ hl => hl
    · exact L.fails hd e
  · rcases closed with e' | _
    · exact L.fails hd e'
    · exact hd

/-- Counting keeps what recording and releasing a handle keep, if opening a handle and executing on it do. However the
execution ends, the handle is released and the result is settled. -/
theorem ends_countFilled {I : Desk σ → Prop} {d : Desk σ} (label : String) (bindings : Bindings) {filled : Filled}
    (hd : I d) (hrecord : ∀ e, Obeys (.always Failure I) (onLine (Dialog.record e)))
    (hrelease : ∀ handle sql, Obeys (.always Failure I) (onLine (Session.release b handle sql)))
    (hcount : ∀ values, boundValues d.line.session.vendor filled.values = .ok values → ∀ d₁, I d₁ →
      ends (onLine (Session.openHandle b (d.line.session.vendor.countSql filled.sql)))
        (fun handle d₂ => ∀ shown log, ends
          (countRow b d.line.session.vendor handle (d.line.session.vendor.countSql filled.sql) shown values)
          (fun _ => I) (fun _ => I) I { d₂ with line := { d₂.line with log } }) (fun _ => I) I d₁) :
    ends (countFilled b label bindings filled) (fun _ => I) (fun _ => I) I d := by
  unfold countFilled
  rw [ends_bind, ends_session, ends_bind, ends_ofExcept]
  split
  · next values hvalues =>
    rw [ends_bind, ends_shownParameters]
    refine (obeys_checkTime _ _).thenEnds hd (fun _ _ h => h) (fun _ h => h) fun _ d₁ h₁ => ?_
    refine (hcount values hvalues d₁ h₁).bind fun handle d₂ h₂ => ?_
    rw [ends_bind]
    refine ends_recordStart fun log => ?_
    have hsettled (counted : Except Failure (Option Row)) (note : Failure → Event) :
        Obeys (.always Failure I)
          ((onLine (Session.release b handle (d.line.session.vendor.countSql filled.sql))).attempt >>= fun closed =>
            onLine (Session.settle counted closed note) >>= fun row => Flow.ofExcept (countOf row) >>= fun n =>
              recordEnd .count (some n) >>= fun _ => Pure.pure n) :=
      (hrelease handle _).attempt.bind fun closed => (obeys_settle hrecord counted closed note).bind fun row =>
        (Obeys.ofExcept (countOf row)).bind fun n => (hrecord _).bind fun _ => .pure n
    rw [ends_bind, ends_attempt]
    exact ends_mono (h₂ _ log) (fun row d₃ h₃ => hsettled (.ok row) _ d₃ h₃) (fun e d₃ h₃ => hsettled (.error e) _ d₃ h₃)
      fun _ h => h
  · exact hd

theorem count_eq : Statement.count b = (checkOpen >>= fun _ => statement >>= fun st => resolve >>= fun resolved =>
    countFilled b st.label resolved.1 resolved.2) := rfl

/-- Counting does not depend on how else the statement is executed. -/
theorem obeys_count (hcount : ∀ label bindings filled, Obeys L (countFilled b label bindings filled)) :
    Obeys L (Statement.count b) := by
  rw [count_eq]
  exact obeys_checkOpen.bind fun _ => (Obeys.read _).bind fun st => obeys_resolve.bind fun _ => hcount _ _ _

theorem ends_count {d : Desk σ} (hd : L.going d) (hcount : ∀ label bindings filled, d.resolved = some filled →
      ends (countFilled b label bindings filled) (fun _ => L.going) L.failed L.stopped d) :
    ends (Statement.count b) (fun _ => L.going) L.failed L.stopped d := by
  rw [count_eq, ends_bind, ends_checkOpen]
  split
  · exact L.fails hd _
  rw [ends_bind, statement, ends_read]
  exact ends_resolveThen (hcount _) (L.fails hd) (L.stops hd)

/-- A law that the parts obey of which operations are made, if what is executed has `P`, together with the window
of the execution. -/
structure Lawful (b : Backend σ) (L : Law Failure (Desk σ)) (P : Filled → Option Window → Prop) : Prop where
  setMemo : ∀ n memo, Obeys L (Flow.within Desk.memosPart (Flow.modify fun memos => memos.set n memo))
  record : ∀ e, Obeys L (onLine (Dialog.record e))
  run : ∀ activity bindings filled window, P filled window → Obeys L (run b activity bindings filled window)
  readAll : ∀ c, Obeys L (readOut c (Cursor.readAll b))
  nextRow : ∀ c, Obeys L (readOut c (Cursor.nextRow b))

def Action.executes : Action → Bool
  | .retrieve | .retrieveRange .. | .retrieveFirst | .query | .update | .count | .executeBatch => true
  | _ => false

/-- The window of what an action executes, if it has one. -/
def Action.window? (st : Statement) : Action → Option Window
  | .retrieve | .query => some st.window
  | .retrieveRange start limit => (Page.ofStart start (some limit)).toOption.map Window.ofClient
  | .retrieveFirst => some st.window.first
  | _ => none

namespace Lawful

variable {P : Filled → Option Window → Prop} (h : Lawful b L P)
include h

theorem openCursor (activity : Activity) (bindings : Bindings) {filled : Filled} {window : Window}
    (hP : P filled (some window)) : Obeys L (openCursor b activity bindings filled window) :=
  obeys_session.bind fun _ => (h.run activity bindings filled _ hP).bind fun _ => .pure _

theorem fetch (bindings : Bindings) {filled : Filled} {window : Window} (hP : P filled (some window)) :
    Obeys L (fetch b bindings filled window) :=
  (h.openCursor _ _ hP).bind fun c => (h.readAll c).bind fun _ => (h.record _).bind fun _ => .pure _

theorem store (use : MemoUse) (memo : Memo) (key : MemoKey) (table : Table) :
    Obeys L (store use memo key table) :=
  obeys_now.bind fun _ => (Obeys.ofCalendar _).bind fun _ => (Obeys.ofExcept _).bind fun _ => h.setMemo _ _

section
variable {d : Desk σ} (hd : L.going d)
include hd

theorem ends_fetchMemo {window : Window} (page : Option Page)
    (hP : ∀ filled, d.resolved = some filled → P filled (some window)) :
    ends (fetchMemo b window page) (fun _ => L.going) L.failed L.stopped d := by
  unfold Statement.fetchMemo
  rw [ends_bind, statement, ends_read]
  refine ends_resolveThen (fun bindings filled hresolved => ?_) (L.fails hd) (L.stops hd)
  have hfetch : Obeys L (Statement.fetch b bindings filled window) := h.fetch bindings (hP filled hresolved)
  refine Obeys.bind (Obeys.read _) (fun memos => ?_) d hd
  dsimp only
  rcases d.statement.memo.bind fun use => (memos[use.memo]?).map (use, ·) with _ | ⟨use, memo⟩
  · exact hfetch
  · refine obeys_now.bind fun now => (Obeys.ofExcept _).bind fun table => ?_
    cases table with
    | some table => exact (h.record _).bind fun _ => .pure _
    | none => exact hfetch.bind fun _ => (h.store _ _ _ _).bind fun _ => .pure _

theorem ends_retrieve (hP : ∀ filled, d.resolved = some filled → P filled (some d.statement.window)) :
    ends (retrieve b) (fun _ => L.going) L.failed L.stopped d := by
  unfold Statement.retrieve
  rw [ends_bind, ends_checkOpen]
  split
  · exact L.fails hd _
  rw [ends_bind, statement, ends_read]
  exact h.ends_fetchMemo hd _ hP

theorem ends_retrieveRange (start count : UInt64)
    (hP : ∀ filled page, d.resolved = some filled → Page.ofStart start (some count) = .ok page →
      P filled (some (.ofClient page))) :
    ends (retrieveRange b start count) (fun _ => L.going) L.failed L.stopped d := by
  unfold Statement.retrieveRange
  rw [ends_bind, ends_checkOpen]
  split
  · exact L.fails hd _
  rw [ends_bind, statement, ends_read, ends_bind, ends_require]
  split
  · rw [ends_bind, ends_ofExcept]
    split
    · next page hpage => exact h.ends_fetchMemo hd _ fun filled hresolved => hP filled page hresolved hpage
    · exact L.fails hd _
  · exact L.fails hd _

theorem ends_retrieveFirst (hP : ∀ filled, d.resolved = some filled → P filled (some d.statement.window.first)) :
    ends (retrieveFirst b) (fun _ => L.going) L.failed L.stopped d := by
  unfold Statement.retrieveFirst
  rw [ends_bind, ends_checkOpen]
  split
  · exact L.fails hd _
  rw [ends_bind, statement, ends_read]
  refine ends_resolveThen (fun bindings filled hresolved => ?_) (L.fails hd) (L.stops hd)
  exact ((h.openCursor _ _ (hP filled hresolved)).bind fun c => (h.nextRow c).bind fun _ => (h.record _).bind
    fun _ => .pure _) d hd

theorem ends_query (hP : ∀ filled, d.resolved = some filled → P filled (some d.statement.window)) :
    ends (query b) (fun _ => L.going) L.failed L.stopped d := by
  unfold Statement.query
  rw [ends_bind, ends_checkOpen]
  split
  · exact L.fails hd _
  rw [ends_bind, statement, ends_read]
  refine ends_resolveThen (fun bindings filled hresolved => ?_) (L.fails hd) (L.stops hd)
  exact ((h.openCursor _ _ (hP filled hresolved)).bind fun c => (h.record _).bind fun _ => .pure _) d hd

theorem ends_update (hP : ∀ filled, d.resolved = some filled → P filled none) :
    ends (update b) (fun _ => L.going) L.failed L.stopped d := by
  unfold Statement.update
  rw [ends_bind, ends_checkOpen]
  split
  · exact L.fails hd _
  refine ends_resolveThen (fun bindings filled hresolved => ?_) (L.fails hd) (L.stops hd)
  exact ((h.run _ _ _ _ (hP filled hresolved)).bind fun _ => (h.record _).bind fun _ => .pure _) d hd

/-- An operation executes what the statement of the desk comes to where it starts, through a window of its own. -/
theorem ends_perform {action : Action} (haction : action.executes = true)
    (hP : ∀ filled, d.resolved = some filled → P filled (action.window? d.statement))
    (hcount : action = .count → ends (Statement.count b) (fun _ => L.going) L.failed L.stopped d)
    (hbatch : action = .executeBatch → ends (executeBatch b) (fun _ => L.going) L.failed L.stopped d) :
    ends (action.perform b) (fun _ => L.going) L.failed L.stopped d := by
  cases action with
  | retrieve => exact (ends_map _ _).2 (h.ends_retrieve hd hP)
  | retrieveRange start limit =>
    refine (ends_map _ _).2 (h.ends_retrieveRange hd start limit fun filled page hresolved hpage => ?_)
    have hwindow : Action.window? d.statement (.retrieveRange start limit) = some (.ofClient page) := by
      show (Page.ofStart start (some limit)).toOption.map Window.ofClient = _
      rw [hpage]
      rfl
    exact hwindow ▸ hP filled hresolved
  | retrieveFirst => exact (ends_map _ _).2 (h.ends_retrieveFirst hd hP)
  | query => exact (ends_map _ _).2 (h.ends_query hd hP)
  | update => exact (ends_map _ _).2 (h.ends_update hd hP)
  | count => exact (ends_map _ _).2 (hcount rfl)
  | executeBatch => exact (ends_map _ _).2 (hbatch rfl)
  | bind | bindAll | clearBindings | addBatch | close => cases haction

end

/-- A law that is obeyed whatever the statement comes to. -/
theorem perform (hfill : ∀ d, L.going d → ∀ filled, d.resolved = some filled → ∀ window, P filled window)
    {action : Action} (haction : action.executes = true) (hcount : action = .count → Obeys L (Statement.count b))
    (hbatch : action = .executeBatch → Obeys L (Statement.executeBatch b)) : Obeys L (action.perform b) := fun d hd =>
  h.ends_perform hd haction (fun filled hresolved => hfill d hd filled hresolved _) (fun hc => hcount hc d hd)
    fun hb => hbatch hb d hd

end Lawful

/-- Actions that execute nothing change the bindings, take an entry into the batch or close the statement. -/
theorem obeys_action {action : Action}
    (hbindings : ∀ f : Statement → Bindings, Obeys L (modifyStatement fun st => { st with bindings := f st }))
    (hadd : action = .addBatch → Obeys L addBatch) (hclose : action = .close → Obeys L (close b))
    (hexecutes : action.executes = true → Obeys L (action.perform b)) : Obeys L (action.perform b) := by
  cases action with
  | bind key p =>
    exact (obeys_checkOpen.bind fun _ => hbindings fun st => st.bindings.insert key p).bind fun _ =>
      (Obeys.read _).bind fun _ => .pure _
  | bindAll other =>
    exact (obeys_checkOpen.bind fun _ => hbindings fun st => st.bindings.union other).bind fun _ =>
      (Obeys.read _).bind fun _ => .pure _
  | clearBindings => exact (hbindings fun _ => Bindings.empty).bind fun _ => .pure _
  | addBatch => exact (hadd rfl).bind fun _ => (Obeys.read _).bind fun _ => .pure _
  | close => exact (hclose rfl).bind fun _ => .pure _
  | retrieve | retrieveRange | retrieveFirst | query | update | count | executeBatch => exact hexecutes rfl

/-! ### Laws of single calls -/

/-- A law that all obeys which is done around executions. -/
structure Handling (b : Backend σ) (L : Law Failure (Desk σ)) : Prop where
  setHandle : ∀ handle, Obeys L (modifyStatement fun st => { st with handle })
  setMemo : ∀ n memo, Obeys L (Flow.within Desk.memosPart (Flow.modify fun memos => memos.set n memo))
  record : ∀ e, Obeys L (onLine (Dialog.record e))
  openHandle : ∀ sql, Obeys L (onLine (Session.openHandle b sql))
  release : ∀ handle sql, Obeys L (onLine (Session.release b handle sql))
  readAll : ∀ c, Obeys L (readOut c (Cursor.readAll b))
  nextRow : ∀ c, Obeys L (readOut c (Cursor.nextRow b))

theorem Handling.of_always (h : Handling b (.always Failure L.going)) : Handling b L where
  setHandle handle := .of_always (h.setHandle handle)
  setMemo n memo := .of_always (h.setMemo n memo)
  record e := .of_always (h.record e)
  openHandle sql := .of_always (h.openHandle sql)
  release handle sql := .of_always (h.release handle sql)
  readAll c := .of_always (h.readAll c)
  nextRow c := .of_always (h.nextRow c)

/-- What calls that execute nothing keep is kept around executions. -/
theorem Handling.has {S : Statement → Prop} {T : Session → Prop} {W : World σ → Prop}
    (hS : ∀ st handle, S st → S { st with handle })
    (hT : Session.Steady T)
    (hprepare : ∀ handle sql, Obeys (.always NativeFault W) (b.prepare handle sql))
    (hclose : ∀ handle, Obeys (.always NativeFault W) (b.close handle))
    (hnext : ∀ feed, Obeys (.always NativeFault W) (b.nextRow feed)) :
    Handling b (.always Failure (Desk.Has S T W)) where
  setHandle handle := .modify fun _ hd => ⟨hS _ handle hd.statement, hd.line⟩
  setMemo _ _ := .within fun _ hd => ⟨hd.statement, hd.line⟩
  record e := has_onLine (Dialog.has_record e)
  openHandle sql := has_onLine (Session.has_openHandle hT hprepare sql)
  release handle sql := has_onLine (Session.has_release hT.released hclose handle sql)
  readAll c := has_readOut (Cursor.minds_readAll hnext) c
  nextRow c := has_readOut (Cursor.minds_nextRow hnext) c

theorem Handling.prepareFor (h : Handling b L) (sql : String) : Obeys L (prepareFor b sql) :=
  (h.openHandle sql).bind fun _ => (h.setHandle _).bind fun _ => .pure _

theorem Handling.ensureHandle (h : Handling b L) (sql : String) : Obeys L (ensureHandle b sql) := by
  refine (Obeys.read _).bind fun st => ?_
  rcases st.handle with _ | ⟨handle, prepared⟩
  · exact h.prepareFor sql
  · dsimp only
    split
    · exact .pure _
    · exact (h.setHandle _).bind fun _ => (h.release _ _).bind fun _ => h.prepareFor sql

theorem Handling.prepareNew (h : Handling b L) : Obeys L (prepareNew b) := by
  refine (Obeys.read _).bind fun st => obeys_session.bind fun s => ?_
  split
  · exact (h.ensureHandle _).discard
  · exact .pure _

/-- A statement that holds a handle for the SQL keeps it. Otherwise it gives up the one that it holds, if any, and
prepares the SQL. -/
theorem ends_ensureHandle {I : Desk σ → Prop} {H : Nat → Desk σ → Prop} {sql : String} {d : Desk σ} (hd : I d)
    (hheld : ∀ handle, d.statement.handle = some (handle, sql) → H handle d)
    (hgiven : I { d with statement := { d.statement with handle := none } })
    (hrelease : ∀ handle text, Obeys (.always Failure I) (onLine (Session.release b handle text)))
    (hprepare : ∀ d, I d → ends (Statement.prepareFor b sql) H (fun _ => I) I d) :
    ends (Statement.ensureHandle b sql) H (fun _ => I) I d := by
  unfold Statement.ensureHandle
  rw [ends_bind, statement, ends_read]
  split
  · next handle prepared hhandle =>
    split
    · next heq => exact hheld handle (beq_iff_eq.1 heq ▸ hhandle)
    · rw [ends_bind, modifyStatement, ends_modify]
      exact (hrelease handle prepared).thenEnds hgiven (fun _ _ h => h) (fun _ h => h) fun _ d' h => hprepare d' h
  · exact hprepare d hd

/-- A law that calls on the database obey, whatever is prepared, bound and executed. What has failed may
still be recorded, and a handle that it leaves may still be released. -/
structure CallByCall (b : Backend σ) (L : Law Failure (Desk σ)) : Prop extends Handling b L where
  execute : ∀ handle sql parameters values maxRows,
    Obeys L (callInTime b handle sql parameters (execute b handle values maxRows))
  executeBound : ∀ handle sql parameters values,
    Obeys L (callInTime b handle sql parameters (b.bindFrom handle 1 values >>= fun _ => b.execute handle))
  recordFailed : ∀ e e' d, L.failed e d →
    ends (onLine (Dialog.record e')) (fun _ => L.failed e) (fun _ => L.failed e) L.stopped d
  releaseFailed : ∀ e handle sql d, L.failed e d →
    ends (onLine (Session.release b handle sql)) (fun _ => L.failed e) (fun _ => L.failed e) L.stopped d

namespace CallByCall

variable (h : CallByCall b L)
include h

theorem run (activity : Activity) (bindings : Bindings) (filled : Filled) (window : Option Window) :
    Obeys L (run b activity bindings filled window) :=
  (Obeys.read _).bind fun _ => obeys_session.bind fun _ => (Obeys.ofExcept _).bind fun _ =>
    (obeys_shownParameters _).bind fun _ => (obeys_checkTime _ _).bind fun _ => (h.ensureHandle _).bind fun _ =>
      (obeys_recordStart h.record _ _ _ _).bind fun _ => (h.execute _ _ _ _ _).bind fun _ => .pure _

theorem countRow (vendor : Vendor) (handle : Nat) (sql : String) (parameters : Option String)
    (values : List Value) : Obeys L (countRow b vendor handle sql parameters values) := by
  refine (h.executeBound handle sql parameters values).bind fun reply => ?_
  cases reply with
  | rows feed => exact h.nextRow _
  | count n => exact .pure _

theorem countFilled (label : String) (bindings : Bindings) (filled : Filled) :
    Obeys L (countFilled b label bindings filled) := by
  refine obeys_session.bind fun s => (Obeys.ofExcept _).bind fun values => ?_
  refine (obeys_shownParameters _).bind fun shown => (obeys_checkTime _ _).bind fun _ => ?_
  refine (h.openHandle _).bind fun handle => (obeys_recordStart h.record _ _ _ _).bind fun _ => ?_
  intro d hd
  refine (h.countRow s.vendor handle _ shown values).attemptThen hd (fun row d hd => ?_) (fun e d hd => ?_)
    fun _ hd => hd
  · refine (h.release handle _).attemptThen hd (fun _ d hd => ?_) (fun e d hd => ?_) fun _ hd => hd
    · -- both the count and the closing succeeded
      exact ((Obeys.ofExcept (countOf row)).bind fun n => (h.record _).bind fun _ => .pure n) d hd
    · exact hd
  · -- the failure of the count stands, however the closing ends
    rw [ends_bind, ends_attempt]
    refine ends_mono (h.releaseFailed e handle _ d hd) (fun _ d hd => hd) (fun e' d hd => ?_) fun _ hd => hd
    rw [ends_bind, ends_onLine]
    exact (ends_onLine _).1 (h.recordFailed e _ d hd)

theorem lawful : Lawful b L fun _ _ => True where
  setMemo := h.setMemo
  record := h.record
  run activity bindings filled window _ := h.run activity bindings filled window
  readAll := h.readAll
  nextRow := h.nextRow

theorem perform {action : Action} (haction : action.executes = true)
    (hbatch : action = .executeBatch → Obeys L (Statement.executeBatch b)) : Obeys L (action.perform b) :=
  h.lawful.perform (fun _ _ _ _ _ => trivial) haction (fun _ => obeys_count h.countFilled) hbatch

/-- Executing the batch, where it may be given up and its execution obeys the law. -/
theorem executeBatch (hclear : ∀ d, L.going d → L.going { d with statement.batch := [] })
    (hcall : ∀ handle sql parameters entries,
      Obeys L (callInTime b handle sql parameters (b.executeBatch handle entries))) :
    Obeys L (executeBatch b) := by
  refine obeys_checkOpen.bind fun _ => (Obeys.read _).bind fun st => ?_
  split
  · exact .pure _
  · refine obeys_session.bind fun s => (Obeys.ofExcept _).bind fun entries => ?_
    refine (obeys_shownParameters _).bind fun shown => (obeys_checkTime _ _).bind fun _ => ?_
    refine (h.ensureHandle _).bind fun handle => (obeys_recordStart h.record _ _ _ _).bind fun _ => ?_
    refine (hcall handle _ shown entries).bind fun counts => ?_
    exact (Obeys.modify hclear).bind fun _ => (h.record _).bind fun _ => .pure _

/-- All actions, where the law does not depend on what they set of a statement. -/
theorem obeys_perform (hset : ∀ d bindings batch handle closed, L.going d →
      L.going { d with statement := { d.statement with bindings, batch, handle, closed } })
    (hcall : ∀ handle sql parameters entries,
      Obeys L (callInTime b handle sql parameters (b.executeBatch handle entries)))
    (action : Action) : Obeys L (action.perform b) := by
  refine obeys_action (fun f => .modify fun d hd => ?_) (fun _ => ?_) (fun _ => (Obeys.read _).bind fun st => ?_)
    fun hexecutes => h.perform hexecutes fun _ => h.executeBatch (fun d hd => ?_) hcall
  · exact hset d (f d.statement) d.statement.batch d.statement.handle d.statement.closed hd
  · refine obeys_checkOpen.bind fun _ => obeys_resolve.bind fun ⟨_, filled⟩ => (Obeys.read _).bind fun st => ?_
    have htaken : Obeys L (modifyStatement fun st =>
        { st with batch := st.batch ++ [filled], bindings := Bindings.empty }) :=
      .modify fun d hd =>
        hset d .empty (d.statement.batch ++ [filled]) d.statement.handle d.statement.closed hd
    dsimp only
    split
    · exact (Obeys.require _ _).bind fun _ => htaken
    · exact htaken
  · split
    · refine Obeys.bind (.modify fun d hd => hset d .empty [] none true hd) fun _ => ?_
      split
      · exact h.release _ _
      · exact .pure _
    · exact .pure _
  · exact hset d d.statement.bindings [] d.statement.handle d.statement.closed hd

end CallByCall

/-! ### What all calls keep -/

theorem has_callInTime {S : Statement → Prop} {T : Session → Prop} {W : World σ → Prop} {handle : Nat}
    (sql : String) (parameters : Option String) {c : Call σ α}
    (hlimit : ∀ budget, Obeys (.always NativeFault W) (limitTime b handle budget))
    (hc : Obeys (.always NativeFault W) c) :
    Obeys (.always Failure (Desk.Has S T W)) (callInTime b handle sql parameters c) := by
  intro d hd
  have hleft (w : World σ) (hw : W w) : Desk.Has S T W { d with line := { d.line with world := w } } :=
    ⟨hd.statement, hd.line.session, hw⟩
  refine ends_callInTime sql parameters (fun _ => hd) hd fun before _ _ => ?_
  refine ends_mono (((hlimit before).bind fun _ => hc) d.line.world hd.line.world) (fun _ w hw => ?_)
    (fun _ w hw => hleft w hw) fun w hw => hleft w hw
  split
  · exact hleft w hw
  · exact hleft w hw

end Statement

/-- A database whose calls on statements that are open, those of batches apart, keep what holds of the
connection. -/
structure Backend.MindsOpen (b : Backend σ) (W : World σ → Prop) : Prop where
  bind : ∀ handle position v, Obeys (.always NativeFault W) (b.bind handle position v)
  clearBindings : ∀ handle, Obeys (.always NativeFault W) (Call.modifyLink (b.clearBindings handle))
  execute : ∀ handle, Obeys (.always NativeFault W) (b.execute handle)
  limitRows : ∀ handle n, Obeys (.always NativeFault W) (Call.modifyLink (b.limitRows handle n))
  limitTime : ∀ handle budget, Obeys (.always NativeFault W) (Statement.limitTime b handle budget)
  fetch : ∀ handle, Obeys (.always NativeFault W) (b.fetch handle)

/-- A database of which the same holds of opening and closing as well. -/
structure Backend.Minds (b : Backend σ) (W : World σ → Prop) : Prop extends b.MindsOpen W where
  prepare : ∀ handle sql, Obeys (.always NativeFault W) (b.prepare handle sql)
  close : ∀ handle, Obeys (.always NativeFault W) (b.close handle)

namespace Backend

variable {W : World σ → Prop}

namespace MindsOpen

variable (h : b.MindsOpen W)
include h

theorem executeBound (handle : Nat) (values : List Value) :
    Obeys (.always NativeFault W) (b.bindFrom handle 1 values >>= fun _ => b.execute handle) :=
  (b.obeys_bindFrom (h.bind handle) 1 values).bind fun _ => h.execute handle

theorem executeWith (handle : Nat) (values : List Value) (maxRows : Option UInt64) :
    Obeys (.always NativeFault W) (Statement.execute b handle values maxRows) :=
  (h.clearBindings handle).bind fun _ => (b.obeys_bindFrom (h.bind handle) 1 values).bind fun _ =>
    (h.limitRows handle maxRows).bind fun _ => h.execute handle

theorem executeFirst (handle : Nat) : Obeys (.always NativeFault W) (Session.executeFirst b handle) := by
  refine (h.execute handle).bind fun reply => ?_
  cases reply with
  | rows feed => exact (b.obeys_nextRow h.fetch feed).bind fun _ => .pure _
  | count n => exact .pure _

end MindsOpen

theorem Minds.trivially (b : Backend σ) : b.Minds fun _ => True := by
  have hall {β : Type} (c : Call σ β) : Obeys (.always NativeFault fun _ => True) c := fun _ _ =>
    ends_of_forall (fun _ _ => trivial) (fun _ _ => trivial) fun _ => trivial
  exact ⟨⟨fun _ _ _ => hall _, fun _ => hall _, fun _ => hall _, fun _ _ => hall _, fun _ _ => hall _, fun _ => hall _⟩,
    fun _ _ => hall _, fun _ => hall _⟩

theorem Minds.callByCall (h : b.Minds W) {S : Statement → Prop} {T : Session → Prop}
    (hS : ∀ st handle, S st → S { st with handle })
    (hT : Session.Steady T) :
    Statement.CallByCall b (.always Failure (Desk.Has S T W)) where
  toHandling := .has hS hT h.prepare h.close (b.obeys_nextRow h.fetch)
  execute handle sql parameters values maxRows :=
    Statement.has_callInTime sql parameters (h.limitTime handle) (h.executeWith handle values maxRows)
  executeBound handle sql parameters values :=
    Statement.has_callInTime sql parameters (h.limitTime handle) (h.executeBound handle values)
  recordFailed _ _ _ hd := ⟨hd.statement, hd.line.session, hd.line.world⟩
  releaseFailed _ handle sql d hd :=
    Statement.has_onLine (Session.has_release hT.released h.close handle sql) d hd

end Backend

end NamedSql
