import NamedSql.Statement.Action
import NamedSql.Proofs.Handles.Session

/-!
# Handles of statements

The handles of a session that is not over are those that its owners hold. A statement holds at most one,
and none when it is closed; whatever is done with it, the session has its handle and those of the others,
and no more.
-/

namespace NamedSql

open NamedSql.Flow

variable {σ : Type} {b : Backend σ}

/-- The handles of the session are those that are open in the record. Until the session is over they are
those that are owned, and then there are none. -/
structure Accounts (owned : List Nat) (l : Line (Recorded σ)) : Prop where
  booked : Booked l.session.handles l.world.link.events l.session.nextHandle
  owned : l.session.terminated = false → l.session.handles.Perm owned
  ended : l.session.terminated = true → l.session.handles = []

namespace Accounts

variable {owned owned' hs : List Nat} {ended : Bool} {l : Line (Recorded σ)} {n : Nat} {α : Type}

theorem registered (h : Accounts owned l) : Registered l.session.handles l.session.terminated l :=
  ⟨h.booked, rfl, rfl⟩

theorem of_registered (h : Registered hs ended l) (howned : ended = false → hs.Perm owned)
    (hended : ended = true → hs = []) : Accounts owned l := by
  obtain ⟨hbooked, rfl, rfl⟩ := h
  exact ⟨hbooked, howned, hended⟩

theorem perm (h : Accounts owned l) (hp : owned.Perm owned') : Accounts owned' l :=
  ⟨h.booked, fun ho => (h.owned ho).trans hp, h.ended⟩

theorem of_ended (h : Registered [] true l) : Accounts owned l :=
  of_registered h nofun fun _ => rfl

/-- Reading rows does nothing with handles. -/
theorem use {m : Cursor.Reading (Recorded σ) α} (h : Accounts owned l) (hm : Cursor.Silent m) (c : Cursor)
    (hr : (c.use m l).1 ≠ .overflow) : Accounts owned (c.use m l).2.2 := by
  have hevents := Cursor.use_events hm c l hr
  exact ⟨hevents ▸ h.booked, h.owned, h.ended⟩

/-- What keeps the handles of a session keeps them with their owners. -/
theorem keeps {m : Dialog (Recorded σ) α} (hm : ∀ hs ended, Keeps (Registered hs ended) m) :
    Keeps (Accounts owned) m := fun l h =>
  wp_mono (hm _ _ l h.registered) (fun _ _ hr => of_registered hr h.owned h.ended) fun _ _ hr =>
    of_registered hr h.owned h.ended

theorem openHandle (h : Accounts owned l) (sql : String) :
    wp (Session.openHandle b.recorded sql) (fun n => Accounts (owned ++ [n])) (fun _ => Accounts owned) l := by
  refine wp_mono (Session.wp_openHandle sql h.registered) ?_ fun _ _ hr => of_registered hr h.owned h.ended
  rintro n l' ⟨hopen, -, hr⟩
  exact of_registered hr (fun _ => (h.owned hopen).append_right _) fun hended =>
    absurd (hopen.symm.trans hended) Bool.false_ne_true

theorem release (h : Accounts (owned ++ [n]) l) (sql : String) :
    wp (Session.release b.recorded n sql) (fun _ => Accounts owned) (fun _ => Accounts owned) l := by
  have hend (l' : Line (Recorded σ)) (hr : Registered (l.session.handles.erase n) l.session.terminated l') :
      Accounts owned l' := by
    refine of_registered hr (fun hopen => ?_) fun hended => ?_
    · have hp : l.session.handles.Perm (n :: owned) := (h.owned hopen).trans (List.perm_append_singleton _ _)
      have herase := hp.erase n
      rwa [List.erase_cons_head] at herase
    · rw [h.ended hended, List.erase_nil]
  exact wp_mono (Session.wp_release sql h.registered) (fun _ => hend) fun _ => hend

end Accounts

/-! ### Statements on their desks -/

/-- The handle of a statement, if it has one. -/
def Statement.held (st : Statement) : List Nat :=
  (st.handle.map (·.1)).toList

/-- A desk whose session has the handles of others and that of the statement. -/
structure Held (others : List Nat) (d : Desk (Recorded σ)) : Prop where
  accounts : Accounts (others ++ d.statement.held) d.line
  closed : d.statement.closed = true → d.statement.handle = none

/-- The same with a statement that is not closed. -/
structure HeldOpen (others : List Nat) (d : Desk (Recorded σ)) : Prop where
  accounts : Accounts (others ++ d.statement.held) d.line
  opened : d.statement.closed = false

theorem HeldOpen.held {others : List Nat} {d : Desk (Recorded σ)} (h : HeldOpen others d) : Held others d :=
  ⟨h.accounts, fun hc => absurd (h.opened.symm.trans hc) Bool.false_ne_true⟩

namespace Statement

variable {others : List Nat} {d : Desk (Recorded σ)} {α : Type}

theorem keeps_onLine {m : Dialog (Recorded σ) α} (hm : ∀ hs ended, Keeps (Registered hs ended) m) :
    Keeps (HeldOpen others) (onLine m) :=
  Keeps.within fun d h => wp_mono (Accounts.keeps hm d.line h.accounts) (fun _ _ ha => ⟨ha, h.opened⟩)
    fun _ _ ha => ⟨ha, h.opened⟩

theorem keeps_record (e : Event) : Keeps (HeldOpen (σ := σ) others) (onLine (Dialog.record e)) :=
  keeps_onLine fun _ _ => Session.keeps_record e

theorem keeps_session : Keeps (HeldOpen (σ := σ) others) session :=
  keeps_onLine fun _ _ => Dialog.keeps_session

theorem keeps_now : Keeps (HeldOpen (σ := σ) others) (onLine Dialog.now) :=
  keeps_onLine fun _ _ => Dialog.keeps_now

theorem keeps_modifyStatement {f : Statement → Statement} (hh : ∀ st, (f st).handle = st.handle)
    (hc : ∀ st, (f st).closed = st.closed) : Keeps (HeldOpen (σ := σ) others) (modifyStatement f) := by
  refine Keeps.modify fun d h => ⟨?_, (hc _).trans h.opened⟩
  show Accounts (others ++ (f d.statement).held) d.line
  rw [held, hh]
  exact h.accounts

/-- Work that starts with the question whether the statement is open. -/
theorem keeps_checkOpen {f : Unit → Work (Recorded σ) α} (hf : Keeps (HeldOpen others) (f ())) :
    Keeps (Held others) (checkOpen >>= f) := by
  intro d h
  show wp (Flow.require (!d.statement.closed) _ >>= f) _ _ d
  rw [wp_bind, wp_require]
  cases hclosed : d.statement.closed with
  | true => exact h
  | false => exact wp_mono (hf d ⟨h.accounts, hclosed⟩) (fun _ _ h => h.held) fun _ _ h => h.held

/-! ### Handles -/

theorem append_held {st : Statement} (h : st.handle = none) : others ++ st.held = others := by
  rw [held, h]
  exact List.append_nil _

theorem held_of_handle {st : Statement} {handle : Nat} {sql : String} (h : st.handle = some (handle, sql)) :
    st.held = [handle] := by
  rw [held, h]; rfl

theorem wp_prepareFor (sql : String) (h : HeldOpen others d) (hd : d.statement.handle = none) :
    wp (prepareFor b.recorded sql) (fun _ => HeldOpen others)
      (fun _ d => HeldOpen others d ∧ d.statement.handle = none) d := by
  have hnone : others ++ d.statement.held = others := append_held hd
  have haccounts : Accounts others d.line := hnone ▸ h.accounts
  unfold prepareFor
  rw [wp_bind, onLine, wp_within]
  refine wp_mono (haccounts.openHandle sql) (fun n l hl => ⟨hl, h.opened⟩) fun e l hl =>
    ⟨⟨?_, h.opened⟩, hd⟩
  show Accounts (others ++ d.statement.held) l
  rwa [hnone]

/-- Releases a handle that the statement held before. -/
theorem wp_releaseHeld (d : Desk (Recorded σ)) {handle : Nat} (sql : String)
    (h : Accounts (others ++ [handle]) d.line) (hd : d.statement.handle = none) {Q : Desk (Recorded σ) → Prop}
    (hQ : ∀ l, Accounts (others ++ d.statement.held) l → Q { d with line := l }) :
    wp (onLine (Session.release b.recorded handle sql)) (fun _ => Q) (fun _ => Q) d := by
  rw [append_held hd] at hQ
  rw [onLine, wp_within]
  exact wp_mono (h.release sql) (fun _ => hQ) fun _ => hQ

theorem ensureHandle_none (sql : String) {d : Desk σ} (hd : d.statement.handle = none) :
    ensureHandle b sql d = prepareFor b sql d := by
  rw [ensureHandle, statement, read_bind, hd]

theorem ensureHandle_some (sql : String) {d : Desk σ} {handle : Nat} {prepared : String}
    (hd : d.statement.handle = some (handle, prepared)) :
    ensureHandle b sql d =
      (if prepared == sql then pure handle
      else do
        modifyStatement fun st => { st with handle := none }
        onLine (Session.release b handle prepared)
        prepareFor b sql : Work σ Nat) d := by
  rw [ensureHandle, statement, read_bind, hd]

theorem keeps_ensureHandle (sql : String) : Keeps (HeldOpen others) (ensureHandle b.recorded sql) := by
  intro d h
  rcases hd : d.statement.handle with _ | ⟨handle, prepared⟩
  · rw [wp_congr (ensureHandle_none sql hd)]
    exact wp_mono (wp_prepareFor sql h hd) (fun _ _ h => h) fun _ _ h => h.1
  · rw [wp_congr (ensureHandle_some sql hd)]
    split
    · exact h
    · have haccounts : Accounts (others ++ [handle]) d.line := held_of_handle hd ▸ h.accounts
      rw [wp_bind, modifyStatement, wp_modify, wp_bind]
      refine wp_mono (wp_releaseHeld (Q := fun d => HeldOpen others d ∧ d.statement.handle = none)
        { d with statement.handle := none } prepared haccounts rfl fun l hl => ⟨⟨hl, h.opened⟩, rfl⟩) ?_
        fun _ d h => h.1
      rintro _ d ⟨h, hd⟩
      exact wp_mono (wp_prepareFor sql h hd) (fun _ _ h => h) fun _ _ h => h.1

theorem wp_prepareNew (h : HeldOpen others d) (hd : d.statement.handle = none) :
    wp (prepareNew b.recorded) (fun _ => HeldOpen others)
      (fun _ d => HeldOpen others d ∧ d.statement.handle = none) d := by
  have hensure (sql : String) : wp (ensureHandle b.recorded sql) (fun _ => HeldOpen others)
      (fun _ d => HeldOpen others d ∧ d.statement.handle = none) d := by
    rw [wp_congr (ensureHandle_none sql hd)]
    exact wp_prepareFor sql h hd
  show wp (if !d.statement.template.hasSequences then discard (ensureHandle b.recorded _) else pure ()) _ _ d
  split
  · rw [wp_discard]
    exact hensure _
  · exact h

theorem wp_close (h : Held others d) :
    wp (close b.recorded) (fun _ d => Held others d ∧ d.statement.closed = true)
      (fun _ d => Held others d ∧ d.statement.closed = true) d := by
  unfold close
  rw [wp_bind]
  show wp (if !d.statement.closed then _ else _) _ _ d
  cases hclosed : d.statement.closed with
  | true => exact ⟨h, hclosed⟩
  | false =>
    rw [if_pos (by rfl), wp_bind, modifyStatement, wp_modify]
    rcases hd : d.statement.handle with _ | ⟨handle, sql⟩
    · refine ⟨⟨?_, fun _ => rfl⟩, rfl⟩
      have haccounts := h.accounts
      rw [append_held hd] at haccounts
      rwa [append_held rfl]
    · have haccounts : Accounts (others ++ [handle]) d.line := held_of_handle hd ▸ h.accounts
      exact wp_releaseHeld
        { d with
          statement := { d.statement with closed := true, bindings := .empty, batch := [], handle := none } }
        sql haccounts rfl fun l hl => ⟨⟨hl, fun _ => rfl⟩, rfl⟩

theorem wp_drop (h : Held others d) :
    wp (drop b.recorded) (fun _ d => Held others d ∧ d.statement.handle = none) (fun _ _ => False) d := by
  unfold drop
  rw [wp_bind, wp_attempt]
  refine wp_mono (wp_close h) (fun _ d hd => ⟨hd.1, hd.1.closed hd.2⟩) ?_
  rintro e d ⟨h, hclosed⟩
  dsimp only
  rw [wp_bind, statement, wp_read, onLine, wp_within]
  exact wp_mono (Session.wp_record _ h.accounts.registered)
    (fun _ l hl => ⟨⟨.of_registered hl h.accounts.owned h.accounts.ended, h.closed⟩, h.closed hclosed⟩)
    fun _ _ h => h

/-- A new statement owns the handle that was prepared for it, if any. -/
theorem wp_create {owned : List Nat} {l : Line (Recorded σ)} (template : Template) (page : Option Page)
    (h : Accounts owned l) :
    wp (create b.recorded template page)
      (fun st l => Accounts (owned ++ st.held) l ∧ st.closed = false) (fun _ => Accounts owned) l := by
  unfold create
  rw [wp_bind, Session.wp_checkOpen]
  split
  · exact h
  · let st := ofTemplate l.session.vendor template page
    have hnew : HeldOpen owned ⟨st, [], l⟩ := ⟨by rwa [append_held rfl], rfl⟩
    have hprepare := wp_prepareNew (b := b) hnew rfl
    show wp (fun _ => match prepareNew b.recorded ⟨st, [], l⟩ with
      | (r, d) => (r.map fun () => d.statement, d.line)) _ _ l
    unfold wp at hprepare ⊢
    rcases hd : prepareNew b.recorded ⟨st, [], l⟩ with ⟨_ | e | _, d⟩ <;> rw [hd] at hprepare
    · exact ⟨hprepare.accounts, hprepare.opened⟩
    · -- the statement is not given out, and it has no handle that could be lost with it
      have haccounts := hprepare.1.accounts
      rwa [append_held hprepare.2] at haccounts
    · trivial

/-! ### Executions -/

theorem keeps_budget : Keeps (HeldOpen (σ := σ) others) budget :=
  keeps_session.bind fun _ => keeps_now.bind fun _ => .ofCalendar _

theorem keeps_checkTime (sql : String) (parameters : Option String) :
    Keeps (HeldOpen (σ := σ) others) (checkTime sql parameters) := by
  refine keeps_budget.bind fun left => ?_
  split
  · exact .fail _
  · exact .pure _

theorem keeps_shownParameters (text : String) : Keeps (HeldOpen (σ := σ) others) (shownParameters text) :=
  keeps_session.bind fun _ => .pure _

/-- Recording never fails. -/
theorem wp_recordStart (activity : Activity) (sql : String) (parameters : Option String)
    (window : Option Window) (h : HeldOpen others d) :
    wp (recordStart activity sql parameters window) (fun _ => HeldOpen others) (fun _ _ => False) d := by
  rw [recordStart, wp_bind, statement, wp_read, onLine, wp_within, Dialog.record, wp_modify]
  exact ⟨⟨h.accounts.booked, h.accounts.owned, h.accounts.ended⟩, h.opened⟩

theorem keeps_recordStart (activity : Activity) (sql : String) (parameters : Option String)
    (window : Option Window) :
    Keeps (HeldOpen (σ := σ) others) (recordStart activity sql parameters window) := fun _ h =>
  wp_mono (wp_recordStart activity sql parameters window h) (fun _ _ h => h) fun _ _ h => h.elim

theorem keeps_recordEnd (activity : Activity) (count : Option UInt64) :
    Keeps (HeldOpen (σ := σ) others) (recordEnd activity count) :=
  keeps_record _

theorem keeps_resolve : Keeps (HeldOpen (σ := σ) others) resolve :=
  (Keeps.read _).bind fun _ => keeps_now.bind fun _ => (Keeps.ofOutcome _).bind fun _ =>
    (Keeps.ofExcept _).bind fun _ => .pure _

theorem keeps_callInTime {handle : Nat} (sql : String) (parameters : Option String)
    {c : Call (Recorded σ) α} (hc : Uses handle c) :
    Keeps (HeldOpen others) (callInTime b.recorded handle sql parameters c) := by
  refine keeps_session.bind fun s => keeps_budget.bind fun before => ?_
  split
  · exact .fail _
  · have hcall : Uses handle (limitTime b.recorded handle before >>= fun _ => c) :=
      (uses_limitTime before).bind fun _ => hc
    refine (keeps_onLine fun _ _ => Session.keeps_withHandle hcall).bind fun result => ?_
    refine keeps_budget.bind fun after => ?_
    cases result with
    | ok a =>
      dsimp only
      split
      · exact .fail _
      · exact .pure _
    | error fault =>
      dsimp only
      split
      · exact .fail _
      · exact .fail _

theorem keeps_run (activity : Activity) (bindings : Bindings) (filled : Filled) (window : Option Window) :
    Keeps (HeldOpen others) (run b.recorded activity bindings filled window) :=
  (Keeps.read _).bind fun _ => keeps_session.bind fun _ => (Keeps.ofExcept _).bind fun _ =>
    (keeps_shownParameters _).bind fun _ => (keeps_checkTime _ _).bind fun _ =>
      (keeps_ensureHandle _).bind fun _ => (keeps_recordStart _ _ _ _).bind fun _ =>
        (keeps_callInTime _ _ (uses_executeWith _ _)).bind fun _ => .pure _

theorem keeps_openCursor (activity : Activity) (bindings : Bindings) (filled : Filled) (window : Window) :
    Keeps (HeldOpen others) (openCursor b.recorded activity bindings filled window) :=
  keeps_session.bind fun _ => (keeps_run _ _ _ _).bind fun _ => .pure _

theorem keeps_readOut (c : Cursor) {m : Cursor.Reading (Recorded σ) α} (hm : Cursor.Silent m) :
    Keeps (HeldOpen others) (readOut c m) := by
  intro d h
  unfold wp readOut
  rcases huse : c.use m d.line with ⟨r, c', l⟩
  have hl (hr : r ≠ .overflow) : HeldOpen others { d with line := l } := by
    have haccounts := h.accounts.use hm c (by rwa [huse])
    rw [huse] at haccounts
    exact ⟨haccounts, h.opened⟩
  cases r with
  | done a => exact hl nofun
  | failed e => exact hl nofun
  | overflow => trivial

/-! ### Operations -/

theorem keeps_fetch (bindings : Bindings) (filled : Filled) (window : Window) :
    Keeps (HeldOpen others) (fetch b.recorded bindings filled window) :=
  (keeps_openCursor _ _ _ _).bind fun c => (keeps_readOut c Cursor.silent_readAll).bind fun _ =>
    (keeps_recordEnd _ _).bind fun _ => .pure _

theorem keeps_store (use : MemoUse) (memo : Memo) (key : MemoKey) (table : Table) :
    Keeps (HeldOpen (σ := σ) others) (store use memo key table) :=
  keeps_now.bind fun _ => (Keeps.ofCalendar _).bind fun _ => (Keeps.ofExcept _).bind fun _ =>
    .within fun _ h => ⟨h.accounts, h.opened⟩

theorem keeps_fetchMemo (window : Window) (page : Option Page) :
    Keeps (HeldOpen others) (fetchMemo b.recorded window page) := by
  refine (Keeps.read _).bind fun st => keeps_resolve.bind fun resolved => (Keeps.read _).bind fun memos => ?_
  dsimp only
  split
  · exact keeps_fetch _ _ _
  · refine keeps_now.bind fun now => (Keeps.ofExcept _).bind fun found => ?_
    split
    · exact (keeps_record _).bind fun _ => .pure _
    · exact (keeps_fetch _ _ _).bind fun _ => (keeps_store _ _ _ _).bind fun _ => .pure _

theorem keeps_retrieve : Keeps (Held others) (retrieve b.recorded) :=
  keeps_checkOpen ((Keeps.read _).bind fun _ => keeps_fetchMemo _ _)

theorem keeps_retrieveRange (start count : UInt64) :
    Keeps (Held others) (retrieveRange b.recorded start count) :=
  keeps_checkOpen ((Keeps.read _).bind fun _ => (Keeps.require _ _).bind fun _ =>
    (Keeps.ofExcept _).bind fun _ => keeps_fetchMemo _ _)

theorem keeps_retrieveFirst : Keeps (Held others) (retrieveFirst b.recorded) :=
  keeps_checkOpen ((Keeps.read _).bind fun _ => keeps_resolve.bind fun _ => (keeps_openCursor _ _ _ _).bind
    fun c => (keeps_readOut c Cursor.silent_nextRow).bind fun _ => (keeps_recordEnd _ _).bind fun _ => .pure _)

theorem keeps_query : Keeps (Held others) (query b.recorded) :=
  keeps_checkOpen ((Keeps.read _).bind fun _ => keeps_resolve.bind fun _ => (keeps_openCursor _ _ _ _).bind
    fun _ => (keeps_recordEnd _ _).bind fun _ => .pure _)

theorem keeps_update : Keeps (Held others) (update b.recorded) :=
  keeps_checkOpen (keeps_resolve.bind fun _ => (keeps_run _ _ _ _).bind fun _ =>
    (keeps_recordEnd _ _).bind fun _ => .pure _)

theorem keeps_addBatch : Keeps (Held (σ := σ) others) addBatch := by
  refine keeps_checkOpen (keeps_resolve.bind fun resolved => (Keeps.read _).bind fun st => ?_)
  have hadd : Keeps (HeldOpen (σ := σ) others) (modifyStatement fun st =>
      { st with batch := st.batch ++ [resolved.2], bindings := Bindings.empty }) :=
    keeps_modifyStatement (fun _ => rfl) fun _ => rfl
  dsimp only
  split
  · exact (Keeps.require _ _).bind fun _ => hadd
  · exact hadd

theorem keeps_executeBatch : Keeps (Held others) (executeBatch b.recorded) := by
  refine keeps_checkOpen ((Keeps.read _).bind fun st => ?_)
  split
  · exact .pure _
  · refine keeps_session.bind fun s => (Keeps.ofExcept _).bind fun _ => (keeps_shownParameters _).bind fun _ =>
      (keeps_checkTime _ _).bind fun _ => (keeps_ensureHandle _).bind fun _ =>
        (keeps_recordStart _ _ _ _).bind fun _ => (keeps_callInTime _ _ (uses_executeBatch _)).bind fun _ => ?_
    exact (keeps_modifyStatement (f := fun st => { st with batch := [] }) (fun _ => rfl) fun _ => rfl).bind
      fun _ => (keeps_recordEnd _ _).bind fun _ => .pure _

theorem keeps_countRow {handle : Nat} (vendor : Vendor) (sql : String) (parameters : Option String)
    (values : List Value) :
    Keeps (HeldOpen others) (countRow b.recorded vendor handle sql parameters values) := by
  refine (keeps_callInTime _ _ ((uses_bindFrom _ _).bind fun _ => uses_execute)).bind fun reply => ?_
  cases reply with
  | rows feed => exact keeps_readOut _ Cursor.silent_nextRow
  | count n => exact .pure _

/-- The handle of a count is released before it ends. -/
theorem keeps_count : Keeps (Held others) (count b.recorded) := by
  refine keeps_checkOpen ((Keeps.read _).bind fun st => keeps_resolve.bind fun resolved =>
    keeps_session.bind fun s => (Keeps.ofExcept _).bind fun values =>
      (keeps_shownParameters _).bind fun shown => (keeps_checkTime _ _).bind fun _ => ?_)
  intro d h
  rw [wp_bind, onLine, wp_within]
  refine wp_mono (h.accounts.openHandle _) (fun n l hl => ?_) fun e l hl => ⟨hl, h.opened⟩
  -- the new handle is owned by the operation itself
  have hmine : ∀ st : Statement, (others ++ st.held ++ [n]).Perm (others ++ [n] ++ st.held) := fun st => by
    rw [List.append_assoc, List.append_assoc]
    exact List.perm_append_comm.append_left others
  have hopen : HeldOpen (others ++ [n]) { d with line := l } := ⟨hl.perm (hmine _), h.opened⟩
  rw [wp_bind]
  refine wp_mono (wp_recordStart _ _ _ _ hopen) (fun _ d hd => ?_) fun _ _ h => h.elim
  refine (keeps_countRow _ _ _ _).attemptThen hd fun counted d hd => ?_
  rw [wp_bind, wp_attempt, onLine, wp_within]
  have howned := hd.accounts.perm (hmine d.statement).symm
  have haccounts := howned.release (b := b) (s.vendor.countSql resolved.2.sql)
  have hend {m : Work (Recorded σ) (Option Row)} (hm : Keeps (HeldOpen others) m) :
      Keeps (HeldOpen others) (m >>= fun row => Flow.ofExcept (countOf row) >>= fun n =>
        recordEnd .count (some n) >>= fun _ => pure n) :=
    hm.bind fun _ => (Keeps.ofExcept _).bind fun _ => (keeps_recordEnd _ _).bind fun _ => .pure _
  refine wp_mono haccounts (fun _ l hl => ?_) fun e l hl => ?_
  · exact hend (keeps_onLine fun _ _ => Session.keeps_settle _ _ _) _ ⟨hl, hd.opened⟩
  · exact hend (keeps_onLine fun _ _ => Session.keeps_settle _ _ _) _ ⟨hl, hd.opened⟩

theorem keeps_perform (action : Action) : Keeps (Held others) (action.perform b.recorded) := by
  cases action with
  | bind key p =>
    exact (keeps_checkOpen (keeps_modifyStatement
      (f := fun st => { st with bindings := st.bindings.insert key p }) (fun _ => rfl) fun _ => rfl)).bind
      fun _ => (Keeps.read _).bind fun _ => .pure _
  | bindAll other =>
    exact (keeps_checkOpen (keeps_modifyStatement
      (f := fun st => { st with bindings := st.bindings.union other }) (fun _ => rfl) fun _ => rfl)).bind
      fun _ => (Keeps.read _).bind fun _ => .pure _
  | clearBindings => exact Keeps.bind (.modify fun _ h => ⟨h.accounts, h.closed⟩) fun _ => .pure _
  | retrieve => exact keeps_retrieve.map _
  | retrieveRange start limit => exact (keeps_retrieveRange _ _).map _
  | retrieveFirst => exact keeps_retrieveFirst.map _
  | query => exact keeps_query.map _
  | update => exact keeps_update.map _
  | count => exact keeps_count.map _
  | addBatch => exact keeps_addBatch.bind fun _ => (Keeps.read _).bind fun _ => .pure _
  | executeBatch => exact keeps_executeBatch.map _
  | close =>
    refine Keeps.bind (fun d h => ?_) fun _ => .pure _
    exact wp_mono (wp_close h) (fun _ _ h => h.1) fun _ _ h => h.1

end Statement

end NamedSql
