import NamedSql.Proofs.Lawful

/-!
# Work that comes to an end

Work completes where something holds if it gives a value or fails from there and leaves that it holds; no time may run
out of the calendar on the way. Sessions and statements complete (`Session.completes_run`, `Statement.completes_perform`)
where the calls on their database do, the time limit of the session is one that the calendar has, and so is what hooks
and memos add to the clock.
-/

namespace NamedSql

open NamedSql.Flow

section
variable {ε σ τ α β : Type}

/-- From where `I` holds the work gives a value or fails, and leaves that `I` holds. -/
def Completes (I : σ → Prop) (m : Flow ε σ α) : Prop :=
  ∀ s, I s → ends m (fun _ => I) (fun _ => I) (fun _ => False) s

namespace Completes

variable {I : σ → Prop}

theorem pure (a : α) : Completes I (Pure.pure a : Flow ε σ α) := fun _ h => h

theorem fail (e : ε) : Completes I (Flow.fail e : Flow ε σ α) := fun _ h => h

theorem read (f : σ → α) : Completes I (Flow.read f : Flow ε σ α) := fun _ h => h

theorem modify {f : σ → σ} (hf : ∀ s, I s → I (f s)) : Completes I (Flow.modify f : Flow ε σ Unit) := hf

theorem ofExcept (r : Except ε α) : Completes I (Flow.ofExcept r : Flow ε σ α) := by
  intro s h
  cases r with
  | ok a => exact h
  | error e => exact h

theorem require (condition : Bool) (e : ε) : Completes I (Flow.require condition e : Flow ε σ Unit) := by
  intro s h
  rw [ends_require]
  split
  · exact h
  · exact h

theorem bind {m : Flow ε σ β} {f : β → Flow ε σ α} (hm : Completes I m) (hf : ∀ b, Completes I (f b)) :
    Completes I (m >>= f) :=
  fun s h => (hm s h).bind fun b => hf b

theorem map {m : Flow ε σ β} (hm : Completes I m) (f : β → α) : Completes I (f <$> m) :=
  hm.bind fun b => pure (f b)

theorem discard {m : Flow ε σ β} (hm : Completes I m) : Completes I (Functor.discard m) := hm.map _

theorem attempt {ε' : Type} {m : Flow ε σ α} (hm : Completes I m) :
    Completes I (m.attempt : Flow ε' σ (Except ε α)) :=
  fun s h => (ends_attempt m).2 (hm s h)

/-- Work on a part completes where the part has what the work needs. -/
theorem within {part : Part σ τ} {J : τ → Prop} {m : Flow ε τ α} (hm : Completes J m) (hget : ∀ s, I s → J (part.get s))
    (hset : ∀ s t, I s → J t → I (part.set t s)) : Completes I (within part m) := by
  intro s h
  rw [ends_within]
  exact ends_mono (hm _ (hget s h)) (fun _ t ht => hset s t h ht) (fun _ t ht => hset s t h ht) fun _ ht => ht

theorem ne_overflow {m : Flow ε σ α} (hm : Completes I m) {s : σ} (h : I s) : (m s).1 ≠ .overflow ∧ I (m s).2 := by
  have hends := hm s h
  unfold ends at hends
  rcases hms : m s with ⟨a | e | _, t⟩ <;> rw [hms] at hends
  · exact ⟨nofun, hends⟩
  · exact ⟨nofun, hends⟩
  · exact hends.elim

end Completes

end

variable {σ α : Type} {b : Backend σ}

/-! ### Databases -/

/-- A database whose calls complete where `W` holds, as long as the timeouts that are set are `allowed`. -/
structure Backend.Completing (b : Backend σ) (W : World σ → Prop) (allowed : Nat → Prop) : Prop where
  prepare : ∀ handle sql, Completes W (b.prepare handle sql)
  bind : ∀ handle position v, Completes W (b.bind handle position v)
  clearBindings : ∀ handle, Completes W (Call.modifyLink (b.clearBindings handle))
  execute : ∀ handle, Completes W (b.execute handle)
  executeBatch : ∀ handle entries, Completes W (b.executeBatch handle entries)
  limitRows : ∀ handle n, Completes W (Call.modifyLink (b.limitRows handle n))
  limitTime : ∀ handle millis, allowed millis → Completes W (Statement.limitTime b handle (.left millis))
  fetch : ∀ handle, Completes W (b.fetch handle)
  close : ∀ handle, Completes W (b.close handle)

namespace Backend.Completing

variable {W : World σ → Prop} {allowed : Nat → Prop} (h : b.Completing W allowed)
include h

theorem bindFrom (handle position : Nat) (values : List Value) : Completes W (b.bindFrom handle position values) := by
  induction values generalizing position with
  | nil => exact .pure _
  | cons v values ih => exact (h.bind handle position v).bind fun _ => ih _

theorem nextRow (feed : Feed) : Completes W (b.nextRow feed) := by
  obtain ⟨_ | handle, columns, _ | ⟨row, rows⟩, _ | fault⟩ := feed
  · exact .pure _
  · exact .fail _
  · exact .pure _
  · exact .pure _
  · exact (h.fetch handle).bind fun _ => .pure _
  · exact (h.fetch handle).bind fun _ => .fail _
  · exact (h.fetch handle).bind fun _ => .pure _
  · exact (h.fetch handle).bind fun _ => .pure _

theorem executeWith (handle : Nat) (values : List Value) (maxRows : Option UInt64) :
    Completes W (Statement.execute b handle values maxRows) :=
  (h.clearBindings handle).bind fun _ => (h.bindFrom handle 1 values).bind fun _ =>
    (h.limitRows handle maxRows).bind fun _ => h.execute handle

theorem executeFirst (handle : Nat) : Completes W (Session.executeFirst b handle) := by
  refine (h.execute handle).bind fun reply => ?_
  cases reply with
  | rows feed => exact (h.nextRow feed).bind fun _ => .pure _
  | count n => exact .pure _

end Backend.Completing

/-! ### Cursors -/

namespace Cursor

variable {W : World σ → Prop} {allowed : Nat → Prop} (h : b.Completing W allowed)
include h

theorem completes_readRow : Completes (fun s => W s.2) (readRow b) := by
  refine (Completes.read _).bind fun c => Completes.bind ?_ fun result => ?_
  · exact (h.nextRow c.feed).attempt.within (fun _ hs => hs) fun _ _ _ hw => hw
  · cases result with
    | ok result => exact Completes.bind (.modify fun _ hs => hs) fun _ => .pure _
    | error fault => exact Completes.bind (.modify fun _ hs => hs) fun _ => .fail _

theorem completes_skipRows (count : Nat) : Completes (fun s => W s.2) (skipRows b count) := by
  induction count with
  | zero => exact .pure _
  | succ count ih =>
    refine (completes_readRow h).bind fun row => ?_
    cases row with
    | none => exact .pure _
    | some row => exact Completes.bind (.modify fun _ hs => hs) fun _ => ih

theorem completes_nextRow : Completes (fun s => W s.2) (nextRow b) := by
  refine (Completes.read _).bind fun c => ?_
  split
  · exact .pure _
  · refine (completes_skipRows h _).bind fun found => ?_
    split
    · refine (completes_readRow h).bind fun row => ?_
      cases row with
      | none => exact .pure _
      | some row => exact Completes.bind (.modify fun _ hs => hs) fun _ => .pure _
    · exact .pure _

theorem completes_readRows (count : Nat) : Completes (fun s => W s.2) (readRows b count) := by
  induction count with
  | zero => exact .pure _
  | succ count ih =>
    refine (completes_nextRow h).bind fun row => ?_
    cases row with
    | none => exact .pure _
    | some row => exact ih.bind fun _ => .pure _

theorem completes_readAll : Completes (fun s => W s.2) (readAll b) :=
  (Completes.read _).bind fun _ => (completes_readRows h _).bind fun _ => .pure _

end Cursor

/-! ### Sessions -/

section
variable {T : Session → Prop} {W : World σ → Prop} {allowed : Nat → Prop}

theorem Dialog.completes_call {c : Call σ α} (hc : Completes W c) : Completes (Line.Has T W) (Dialog.call c) :=
  hc.attempt.within (fun _ hl => hl.world) fun _ _ hl hw => ⟨hl.session, hw⟩

theorem Dialog.completes_record (e : Event) : Completes (@Line.Has σ T W) (Dialog.record e) :=
  .modify fun _ hl => ⟨hl.session, hl.world⟩

theorem Dialog.completes_modifySession {f : Session → Session} (hf : ∀ s, T s → T (f s)) :
    Completes (@Line.Has σ T W) (Dialog.modifySession f) :=
  .modify fun _ hl => ⟨hf _ hl.session, hl.world⟩

namespace Session

theorem completes_checkOpen : Completes (@Line.Has σ T W) checkOpen :=
  (Completes.read _).bind fun _ => .require _ _

theorem completes_withHandle (handle : Nat) {c : Call σ α} (hc : Completes W c) :
    Completes (Line.Has T W) (withHandle handle c) :=
  (Completes.read _).bind fun _ => (Completes.require _ _).bind fun _ => Dialog.completes_call hc

theorem completes_settle (result : Except Failure α) (closed : Except Failure Unit) (note : Failure → Event) :
    Completes (@Line.Has σ T W) (settle result closed note) := by
  rcases result with e | a
  · rcases closed with e' | _
    · exact (Dialog.completes_record _).bind fun _ => .fail _
    · exact .fail _
  · rcases closed with e' | _
    · exact .fail _
    · exact .pure _

variable (h : b.Completing W allowed) (hT : Steady T)
include h hT

theorem completes_prepareHandle (sql : String) : Completes (Line.Has T W) (prepareHandle b sql) := by
  refine (Completes.read _).bind fun s => (Dialog.completes_call (h.prepare _ sql)).bind fun result => ?_
  cases result with
  | error fault => exact .fail _
  | ok u =>
    exact (Dialog.completes_modifySession hT.opened).bind fun _ => (Dialog.completes_record _).bind fun _ => .pure _

theorem completes_openHandle (sql : String) : Completes (Line.Has T W) (openHandle b sql) :=
  completes_checkOpen.bind fun _ => completes_prepareHandle h hT sql

theorem completes_release (handle : Nat) (sql : String) : Completes (Line.Has T W) (release b handle sql) := by
  refine (Completes.read _).bind fun s => ?_
  split
  · refine (Dialog.completes_modifySession fun s hs => hT.released s handle hs).bind fun _ => ?_
    refine (Dialog.completes_call (h.close handle)).bind fun result => ?_
    cases result with
    | ok u => exact .pure _
    | error fault => exact .fail _
  · exact .pure _

/-- Statements without parameters are executed and closed without a look at the time limit. -/
theorem completes_run (sql : String) : Completes (Line.Has T W) (run b sql) := by
  refine completes_checkOpen.bind fun _ => (completes_prepareHandle h hT sql).bind fun handle => ?_
  refine (Completes.read _).bind fun s => (completes_withHandle handle (h.executeFirst handle)).bind fun row => ?_
  exact (completes_release h hT handle sql).attempt.bind fun closed => completes_settle _ closed _

end Session

end

/-! ### Times that the calendar has -/

/-- The milliseconds of 365 days. -/
def yearMillis : Int :=
  31536000000

/-- Within a year of the start of 1970. -/
def Instant.NearEpoch (t : Instant) : Prop :=
  -yearMillis ≤ t.millis ∧ t.millis ≤ yearMillis

instance (t : Instant) : Decidable t.NearEpoch := inferInstanceAs (Decidable (_ ∧ _))

/-- A span that the calendar has room for behind every instant near the epoch. -/
def InReach (millis : Int) : Prop :=
  Instant.first.millis + yearMillis ≤ millis ∧ millis ≤ Instant.last.millis - yearMillis

instance (millis : Int) : Decidable (InReach millis) := inferInstanceAs (Decidable (_ ∧ _))

theorem InReach.exists_add {millis : Int} (h : InReach millis) {now : Instant} (hnow : now.NearEpoch) :
    ∃ t, now.add? millis = some t := by
  obtain ⟨hlow, hhigh⟩ := h
  obtain ⟨hfrom, hto⟩ := hnow
  refine ⟨⟨now.millis + millis⟩, if_pos ⟨?_, ?_⟩⟩
  · omega
  · omega

theorem Memo.lifetime_put {m m' : Memo} {k : MemoKey} {t : Table} {expires : Instant} (h : m.put k t expires = .ok m') :
    m'.lifetime = m.lifetime := by
  obtain ⟨_, -, h⟩ := bind_eq_ok.1 h
  split at h
  · rw [← Except.ok.inj h]
  · split at h
    · rw [← Except.ok.inj h]
      rfl
    · rw [← Except.ok.inj h]
      show (if m.capacity ≤ m.entries.length then m.dropFirst else m).lifetime = m.lifetime
      unfold dropFirst
      split
      · split <;> rfl
      · rfl

/-- A hook that runs out of the calendar at no instant near the epoch. -/
def Hook.Completing (h : Hook) : Prop :=
  ∀ now, now.NearEpoch → ∀ b, h now b ≠ .overflow

theorem Hook.applyAll_ne_overflow {now : Instant} (hnow : now.NearEpoch) {hooks : List Hook}
    (h : ∀ hook ∈ hooks, hook.Completing) (b : Bindings) : applyAll now hooks b ≠ .overflow := by
  induction hooks generalizing b with
  | nil => nofun
  | cons hook hooks ih =>
    obtain ⟨hhook, hhooks⟩ := List.forall_mem_cons.1 h
    have hfirst := hhook now hnow b
    rw [applyAll]
    cases hb : hook now b with
    | done b => exact ih hhooks b
    | failed e => nofun
    | overflow => exact absurd hb hfirst

/-- A session whose time limit, if it has one, has an expiry, and leaves only timeouts that are `allowed`. -/
def Session.Limited (W : World σ → Prop) (allowed : Nat → Prop) (s : Session) : Prop :=
  ∀ t, s.timeLimit = some t → ∃ expiry, t.expiry? = some expiry ∧ ∀ w, W w → allowed (expiry.since w.now).toNat

theorem Session.limited_steady (W : World σ → Prop) (allowed : Nat → Prop) : Steady (Limited W allowed) :=
  .of_apart fun _ _ _ h => h

theorem Session.Limited.exists_budget {W : World σ → Prop} {allowed : Nat → Prop} {s : Session}
    (h : s.Limited W allowed) {w : World σ} (hw : W w) : ∃ before, TimeLimit.budget? s.timeLimit w.now = some before ∧
      ∀ millis, before = .left millis → allowed millis := by
  cases hlimit : s.timeLimit with
  | none => exact ⟨.unlimited, rfl, nofun⟩
  | some t =>
    obtain ⟨expiry, hexpiry, hallowed⟩ := h t hlimit
    have hbudget : TimeLimit.budget? (some t) w.now =
        some (if 0 < expiry.since w.now then .left (expiry.since w.now).toNat else .exhausted) := by
      show (t.expiry?.map (·.since w.now)).map _ = _
      rw [hexpiry]
      rfl
    refine ⟨_, hbudget, fun millis hmillis => ?_⟩
    split at hmillis
    · obtain rfl := TimeLimit.Budget.left.inj hmillis
      exact hallowed w hw
    · cases hmillis

/-! ### Statements -/

/-- A desk on which nothing runs out of the calendar: not the hooks and the lifetimes of its statement, nor the
lifetimes of the memos, nor the time limit of the session. -/
structure Desk.Ready (W : World σ → Prop) (allowed : Nat → Prop) (d : Desk σ) : Prop where
  hooks : ∀ hook ∈ d.statement.hooks, hook.Completing
  lifetime : ∀ use, d.statement.memo = some use → ∀ millis, use.lifetime = some millis → InReach millis
  memos : ∀ memo ∈ d.memos, InReach memo.lifetime
  line : d.line.Has (Session.Limited W allowed) W

/-- Calls on the database touch nothing else of a desk. -/
theorem Desk.Ready.withWorld {W : World σ → Prop} {allowed : Nat → Prop} {d : Desk σ} (hd : d.Ready W allowed)
    {w : World σ} (hw : W w) : Desk.Ready W allowed { d with line := { d.line with world := w } } :=
  { hd with line := ⟨hd.line.session, hw⟩ }

namespace Statement

section
variable {W : World σ → Prop} {allowed : Nat → Prop}

theorem completes_onLine {m : Dialog σ α} (hm : Completes (Line.Has (Session.Limited W allowed) W) m) :
    Completes (Desk.Ready W allowed) (onLine m) :=
  hm.within (fun _ hd => hd.line) fun _ _ hd hl => { hd with line := hl }

theorem completes_session : Completes (@Desk.Ready σ W allowed) session := fun _ h => h

theorem completes_now : Completes (@Desk.Ready σ W allowed) (onLine Dialog.now) := fun _ h => h

theorem completes_record (e : Event) : Completes (@Desk.Ready σ W allowed) (onLine (Dialog.record e)) :=
  completes_onLine (Dialog.completes_record e)

/-- What does not touch the hooks and the memo of the statement. -/
theorem completes_modifyStatement {f : Statement → Statement} (hf : ∀ st, (f st).hooks = st.hooks ∧ (f st).memo = st.memo) :
    Completes (@Desk.Ready σ W allowed) (modifyStatement f) := by
  refine .modify fun d hd => ⟨?_, ?_, hd.memos, hd.line⟩
  · rw [(hf d.statement).1]
    exact hd.hooks
  · rw [(hf d.statement).2]
    exact hd.lifetime

theorem completes_checkOpen : Completes (@Desk.Ready σ W allowed) checkOpen :=
  (Completes.read _).bind fun _ => .require _ _

theorem completes_shownParameters (text : String) : Completes (@Desk.Ready σ W allowed) (shownParameters text) :=
  completes_session.bind fun _ => .pure _

theorem completes_recordStart (activity : Activity) (sql : String) (parameters : Option String) (window : Option Window) :
    Completes (@Desk.Ready σ W allowed) (recordStart activity sql parameters window) :=
  (Completes.read _).bind fun _ => completes_record _

theorem completes_resolve (hW : ∀ w, W w → w.now.NearEpoch) : Completes (@Desk.Ready σ W allowed) resolve := by
  intro d hd
  rw [ends_resolve]
  have hhooks := Hook.applyAll_ne_overflow (hW _ hd.line.world) hd.hooks d.statement.bindings
  split
  · split
    · exact hd
    · exact hd
  · exact hd
  · next hstop => exact absurd hstop hhooks

theorem completes_checkTime (sql : String) (parameters : Option String) :
    Completes (@Desk.Ready σ W allowed) (checkTime sql parameters) := by
  intro d hd
  obtain ⟨before, hbefore, -⟩ := hd.line.session.exists_budget hd.line.world
  rw [ends_checkTime, hbefore]
  split
  · exact hd
  · exact hd
  · next h => cases h

variable (h : b.Completing W allowed)
include h

theorem completes_limitTime {d : Desk σ} (hd : d.Ready W allowed) (handle : Nat) {before : TimeLimit.Budget}
    (hbefore : TimeLimit.budget? d.line.session.timeLimit d.line.world.now = some before) :
    Completes W (limitTime b handle before) := by
  obtain ⟨left, hleft, hallowed⟩ := hd.line.session.exists_budget hd.line.world
  obtain rfl : left = before := Option.some.inj (hleft.symm.trans hbefore)
  cases left with
  | left millis => exact h.limitTime handle millis (hallowed millis rfl)
  | unlimited => exact .pure _
  | exhausted => exact .pure _

theorem completes_callInTime (handle : Nat) (sql : String) (parameters : Option String) {c : Call σ α}
    (hc : Completes W c) : Completes (Desk.Ready W allowed) (callInTime b handle sql parameters c) := by
  intro d hd
  refine ends_callInTime_of_budget sql parameters (fun _ => hd) (fun hnone => ?_) fun before hbefore _ => ?_
  · obtain ⟨before, hbefore, -⟩ := hd.line.session.exists_budget hd.line.world
    rw [hnone] at hbefore
    cases hbefore
  · refine ends_mono (((completes_limitTime h hd handle hbefore.1).bind fun _ => hc) d.line.world hd.line.world)
      (fun _ w hw => ?_) (fun _ w hw => hd.withWorld hw) fun _ hw => hw
    split
    · exact hd.withWorld hw
    · exact hd.withWorld hw

theorem completes_openHandle (sql : String) : Completes (Desk.Ready W allowed) (onLine (Session.openHandle b sql)) :=
  completes_onLine (Session.completes_openHandle h (Session.limited_steady W allowed) sql)

theorem completes_release (handle : Nat) (sql : String) :
    Completes (Desk.Ready W allowed) (onLine (Session.release b handle sql)) :=
  completes_onLine (Session.completes_release h (Session.limited_steady W allowed) handle sql)

theorem completes_prepareFor (sql : String) : Completes (Desk.Ready W allowed) (prepareFor b sql) :=
  (completes_openHandle h sql).bind fun _ => (completes_modifyStatement (by simp)).bind fun _ => .pure _

theorem completes_ensureHandle (sql : String) : Completes (Desk.Ready W allowed) (ensureHandle b sql) := by
  refine (Completes.read _).bind fun st => ?_
  rcases st.handle with _ | ⟨handle, prepared⟩
  · exact completes_prepareFor h sql
  · dsimp only
    split
    · exact .pure _
    · exact (completes_modifyStatement (by simp)).bind fun _ => (completes_release h _ _).bind fun _ =>
        completes_prepareFor h sql

theorem completes_prepareNew : Completes (Desk.Ready W allowed) (prepareNew b) := by
  refine (Completes.read _).bind fun st => completes_session.bind fun s => ?_
  split
  · exact (completes_ensureHandle h _).discard
  · exact .pure _

theorem completes_create (template : Template) (page : Option Page) :
    Completes (Line.Has (Session.Limited W allowed) W) (create b template page) := by
  intro l hl
  have hnew : Desk.Ready W allowed ⟨ofTemplate l.session.vendor template page, [], l⟩ :=
    ⟨List.forall_mem_nil _, nofun, List.forall_mem_nil _, hl⟩
  refine ends_create (fun _ => hl) (ends_mono (completes_prepareNew h _ hnew) ?_ ?_ fun _ hd => hd)
  · exact fun _ _ hd => hd.line
  · exact fun _ _ hd => hd.line

theorem completes_run (activity : Activity) (bindings : Bindings) (filled : Filled) (window : Option Window) :
    Completes (Desk.Ready W allowed) (run b activity bindings filled window) :=
  (Completes.read _).bind fun _ => completes_session.bind fun _ => (Completes.ofExcept _).bind fun _ =>
    (completes_shownParameters _).bind fun _ => (completes_checkTime _ _).bind fun _ =>
      (completes_ensureHandle h _).bind fun handle => (completes_recordStart _ _ _ _).bind fun _ =>
        (completes_callInTime h handle _ _ (h.executeWith handle _ _)).bind fun _ => .pure _

omit h in
theorem completes_readOut {m : Cursor.Reading σ α} (hm : Completes (fun s => W s.2) m) (c : Cursor) :
    Completes (Desk.Ready W allowed) (readOut c m) := by
  intro d hd
  exact (ends_readOut c m).2 (ends_mono (hm (c, d.line.world) hd.line.world) (fun _ s hw => hd.withWorld hw)
    (fun _ s hw => hd.withWorld hw) fun _ hw => hw)

theorem completes_openCursor (activity : Activity) (bindings : Bindings) (filled : Filled) (window : Window) :
    Completes (Desk.Ready W allowed) (openCursor b activity bindings filled window) :=
  completes_session.bind fun _ => (completes_run h _ _ _ _).bind fun _ => .pure _

theorem completes_fetch (bindings : Bindings) (filled : Filled) (window : Window) :
    Completes (Desk.Ready W allowed) (fetch b bindings filled window) :=
  (completes_openCursor h _ _ _ _).bind fun c => (completes_readOut (Cursor.completes_readAll h) c).bind fun _ =>
    (completes_record _).bind fun _ => .pure _

omit h in
theorem completes_store (hW : ∀ w, W w → w.now.NearEpoch) {use : MemoUse} {memo : Memo}
    (hreach : InReach (use.lifetime.getD memo.lifetime)) (hmemo : InReach memo.lifetime) (key : MemoKey) (table : Table) :
    Completes (@Desk.Ready σ W allowed) (store use memo key table) := by
  intro d hd
  obtain ⟨expires, hexpires⟩ := hreach.exists_add (hW _ hd.line.world)
  show ends (Flow.ofCalendar (d.line.world.now.add? (use.lifetime.getD memo.lifetime)) >>= _) _ _ _ d
  rw [ends_bind, hexpires]
  show ends (Flow.ofExcept (memo.put key table expires) >>= _) _ _ _ d
  rw [ends_bind, ends_ofExcept]
  split
  · next stored hstored =>
    have hlifetime : stored.lifetime = memo.lifetime := Memo.lifetime_put hstored
    refine { hd with memos := fun m hm => ?_ }
    rcases List.mem_or_eq_of_mem_set hm with hm | rfl
    · exact hd.memos m hm
    · rwa [hlifetime]
  · exact hd

theorem completes_fetchMemo (hW : ∀ w, W w → w.now.NearEpoch) (window : Window) (page : Option Page) :
    Completes (Desk.Ready W allowed) (fetchMemo b window page) := by
  intro d hd
  unfold fetchMemo
  rw [ends_bind, statement, ends_read]
  refine (completes_resolve hW d hd).bind fun resolved d' hd' => ?_
  obtain ⟨bindings, filled⟩ := resolved
  rw [ends_bind, ends_read]
  dsimp only
  split
  · exact completes_fetch h _ _ _ d' hd'
  · next use memo hfind =>
    obtain ⟨use, huse, hentry⟩ := Option.bind_eq_some_iff.1 hfind
    obtain ⟨memo, hmemo, heq⟩ := Option.map_eq_some_iff.1 hentry
    obtain ⟨rfl, rfl⟩ := Prod.mk.inj heq
    have hstored : InReach memo.lifetime := hd'.memos memo (List.mem_of_getElem? hmemo)
    have hreach : InReach (use.lifetime.getD memo.lifetime) := by
      cases hlifetime : use.lifetime with
      | none => exact hstored
      | some millis => exact hd.lifetime use huse millis hlifetime
    refine (completes_now.bind fun now => (Completes.ofExcept _).bind fun table => ?_) d' hd'
    cases table with
    | some table => exact (completes_record _).bind fun _ => .pure _
    | none =>
      exact (completes_fetch h _ _ _).bind fun table => (completes_store hW hreach hstored _ table).bind fun _ => .pure _

theorem completes_countRow (vendor : Vendor) (handle : Nat) (sql : String) (parameters : Option String)
    (values : List Value) : Completes (Desk.Ready W allowed) (countRow b vendor handle sql parameters values) := by
  refine (completes_callInTime h handle sql parameters
    ((h.bindFrom handle 1 values).bind fun _ => h.execute handle)).bind fun reply => ?_
  cases reply with
  | rows feed => exact completes_readOut (Cursor.completes_nextRow h) _
  | count n => exact .pure _

theorem completes_countFilled (label : String) (bindings : Bindings) (filled : Filled) :
    Completes (Desk.Ready W allowed) (countFilled b label bindings filled) := by
  refine completes_session.bind fun s => (Completes.ofExcept _).bind fun values => ?_
  refine (completes_shownParameters _).bind fun shown => (completes_checkTime _ _).bind fun _ => ?_
  refine (completes_openHandle h _).bind fun handle => (completes_recordStart _ _ _ _).bind fun _ => ?_
  refine (completes_countRow h s.vendor handle _ shown values).attempt.bind fun counted => ?_
  refine (completes_release h handle _).attempt.bind fun closed => ?_
  refine (completes_onLine (Session.completes_settle counted closed _)).bind fun row => ?_
  exact (Completes.ofExcept (countOf row)).bind fun n => (completes_record _).bind fun _ => .pure n

theorem completes_executeBatch : Completes (Desk.Ready W allowed) (executeBatch b) := by
  refine completes_checkOpen.bind fun _ => (Completes.read _).bind fun st => ?_
  split
  · exact .pure _
  · refine completes_session.bind fun s => (Completes.ofExcept _).bind fun entries => ?_
    refine (completes_shownParameters _).bind fun shown => (completes_checkTime _ _).bind fun _ => ?_
    refine (completes_ensureHandle h _).bind fun handle => (completes_recordStart _ _ _ _).bind fun _ => ?_
    refine (completes_callInTime h handle _ shown (h.executeBatch handle entries)).bind fun counts => ?_
    exact (completes_modifyStatement (by simp)).bind fun _ => (completes_record _).bind fun _ => .pure _

theorem completes_close : Completes (Desk.Ready W allowed) (close b) := by
  refine (Completes.read _).bind fun st => ?_
  split
  · refine (completes_modifyStatement (by simp)).bind fun _ => ?_
    split
    · exact completes_release h _ _
    · exact .pure _
  · exact .pure _

omit h in
theorem completes_addBatch (hW : ∀ w, W w → w.now.NearEpoch) : Completes (@Desk.Ready σ W allowed) addBatch := by
  refine completes_checkOpen.bind fun _ => (completes_resolve hW).bind fun ⟨_, filled⟩ => ?_
  refine (Completes.read _).bind fun st => ?_
  have htaken : Completes (@Desk.Ready σ W allowed) (modifyStatement fun st =>
      { st with batch := st.batch ++ [filled], bindings := Bindings.empty }) :=
    completes_modifyStatement (by simp)
  dsimp only
  split
  · exact (Completes.require _ _).bind fun _ => htaken
  · exact htaken

/-- Every action on a statement completes. -/
theorem completes_perform (hW : ∀ w, W w → w.now.NearEpoch) (action : Action) :
    Completes (Desk.Ready W allowed) (action.perform b) := by
  cases action with
  | bind key p =>
    exact (completes_checkOpen.bind fun _ => completes_modifyStatement (by simp)).bind fun _ =>
      (Completes.read _).bind fun _ => .pure _
  | bindAll other =>
    exact (completes_checkOpen.bind fun _ => completes_modifyStatement (by simp)).bind fun _ =>
      (Completes.read _).bind fun _ => .pure _
  | clearBindings => exact (completes_modifyStatement (by simp)).bind fun _ => .pure _
  | retrieve =>
    exact (completes_checkOpen.bind fun _ => (Completes.read _).bind fun st => completes_fetchMemo h hW _ _).map _
  | retrieveRange start limit =>
    exact (completes_checkOpen.bind fun _ => (Completes.read _).bind fun st => (Completes.require _ _).bind fun _ =>
      (Completes.ofExcept _).bind fun page => completes_fetchMemo h hW _ _).map _
  | retrieveFirst =>
    exact (completes_checkOpen.bind fun _ => (Completes.read _).bind fun st => (completes_resolve hW).bind fun _ =>
      (completes_openCursor h _ _ _ _).bind fun c => (completes_readOut (Cursor.completes_nextRow h) c).bind fun _ =>
        (completes_record _).bind fun _ => .pure _).map _
  | query =>
    exact (completes_checkOpen.bind fun _ => (Completes.read _).bind fun st => (completes_resolve hW).bind fun _ =>
      (completes_openCursor h _ _ _ _).bind fun _ => (completes_record _).bind fun _ => .pure _).map _
  | update =>
    exact (completes_checkOpen.bind fun _ => (completes_resolve hW).bind fun _ => (completes_run h _ _ _ _).bind fun _ =>
      (completes_record _).bind fun _ => .pure _).map _
  | count =>
    rw [Action.perform, count_eq]
    exact (completes_checkOpen.bind fun _ => (Completes.read _).bind fun st => (completes_resolve hW).bind fun _ =>
      completes_countFilled h _ _ _).map _
  | addBatch => exact (completes_addBatch hW).bind fun _ => (Completes.read _).bind fun _ => .pure _
  | executeBatch => exact (completes_executeBatch h).map _
  | close => exact (completes_close h).bind fun _ => .pure _

end

end Statement

end NamedSql
