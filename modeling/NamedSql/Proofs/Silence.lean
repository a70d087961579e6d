import NamedSql.Proofs.Transactions

/-!
# Sessions that are over

Terminating a session that returns leaves no handles and no transaction behind, even if it fails. From then
on no operation gives the session either of them again, and none of them calls the database; only cursors
that were handed out before still fetch their rows (`silent_after_terminate`). There is no single check that
sees to it. Opening a handle looks whether the session is over, work on a handle looks whether the handle is
open, and so a statement that keeps a handle which is gone fails in another way than a new one does. Ending
a transaction looks for a transaction, and closing for an open handle.
-/

namespace NamedSql

open NamedSql.Flow

/-- Work that never gives a result, and ends otherwise as the law says. -/
def Balks {ε σ α : Type} (L : Law ε σ) (m : Flow ε σ α) : Prop :=
  ∀ s, L.going s → ends m (fun _ _ => False) L.failed L.stopped s

namespace Balks

variable {ε σ α β : Type} {L : Law ε σ} {m : Flow ε σ α} {f : α → Flow ε σ β}

theorem obeys (h : Balks L m) : Obeys L m := fun s hs =>
  ends_mono (h s hs) (fun _ _ hfalse => hfalse.elim) (fun _ _ ht => ht) fun _ ht => ht

/-- What comes after it is never done. -/
theorem bind (h : Balks L m) : Balks L (m >>= f) := fun s hs =>
  ends.bind (h s hs) fun _ _ hfalse => hfalse.elim

theorem after (hm : Obeys L m) (hf : ∀ a, Balks L (f a)) : Balks L (m >>= f) := fun s hs =>
  ends.bind (hm s hs) hf

end Balks

variable {σ α : Type} {b : Backend σ}

namespace Session

structure Over (s : Session) : Prop where
  terminated : s.terminated = true
  handles : s.handles = []
  transaction : s.transaction = none

theorem Over.inTransaction {s : Session} (h : Over s) : s.inTransaction = false :=
  congrArg Option.isSome h.transaction

/-! ### Terminating -/

/-- Terminating that returns has given up the transaction and all handles, whatever failed. -/
theorem over_of_terminate {l : Line (Watched σ)} (hl : l.session.terminated = false) :
    ends (terminate b.watched) (fun _ l' => Over l'.session) (fun _ l' => Over l'.session) (fun _ => True) l := by
  unfold terminate
  rw [ends_bind, Dialog.session, ends_read, hl]
  show ends (Dialog.modifySession _ >>= _) _ _ _ l
  rw [ends_bind, Dialog.modifySession, ends_modify]
  extract_lets finish
  have hfinish (r : Except Failure (Option (List Value))) (l₁ : Line (Watched σ))
      (hterminated : l₁.session.terminated = true) (htransaction : l₁.session.transaction = none) :
      ends (finish r) (fun _ l' => Over l'.session) (fun _ l' => Over l'.session) (fun _ => True) l₁ := by
    have hclosed (first : Option Failure) (handles : List Nat) (l₂ : Line (Watched σ)) (hl₂ : Over l₂.session) :
        ends (closeAll b.watched first handles) (fun _ l' => Over l'.session) (fun _ l' => Over l'.session)
          (fun _ => True) l₂ := by
      have hany : ∀ handle, Obeys (.always NativeFault fun _ => True) (b.watched.close handle) :=
        (Backend.Minds.trivially b.watched).close
      have hends := has_closeAll hany first handles l₂ ⟨hl₂, trivial⟩
      exact ends_mono hends (fun _ _ h => h.session) (fun _ _ h => h.session) fun _ _ => trivial
    show ends (Dialog.session >>= _) _ _ _ l₁
    rw [ends_bind, Dialog.session, ends_read, ends_bind, Dialog.modifySession, ends_modify, ends_bind, Dialog.record,
      ends_modify]
    refine (hclosed _ _ _ ?_).bind fun first l' hl' => ?_
    · exact ⟨hterminated, rfl, htransaction⟩
    · cases first with
      | none => exact hl'
      | some e => exact hl'
  split
  · rw [ends_bind, ends_attempt]
    refine ends_mono (ends_runUnchecked "ROLLBACK" _) (fun row l' hl' => ?_) (fun e l' hl' => ?_) fun _ _ => trivial
    · exact hfinish (.ok row) l' hl'.session.terminated hl'.session.transaction
    · exact hfinish (.error e) l' hl'.session.terminated hl'.session.transaction
  · exact hfinish (.ok none) _ rfl rfl

/-! ### What a session does that is over -/

section
variable {W : World σ → Prop}

abbrev keepingOver (W : World σ → Prop) : Law Failure (Line σ) :=
  .always Failure (Line.Has Over W)

theorem balks_checkOpen : Balks (keepingOver W) checkOpen := by
  intro l hl
  rw [ends_checkOpen, if_pos hl.session.terminated]
  exact hl

theorem balks_openHandle (sql : String) : Balks (keepingOver W) (openHandle b sql) := balks_checkOpen.bind

theorem balks_run (sql : String) : Balks (keepingOver W) (run b sql) := balks_checkOpen.bind

theorem over_release (handle : Nat) (sql : String) : Obeys (keepingOver W) (release b handle sql) := by
  intro l hl
  have hgone : l.session.handles.contains handle = false := by simp [hl.session.handles]
  unfold release
  rw [ends_bind, Dialog.session, ends_read, hgone]
  exact hl

theorem balks_begin (seconds : Option Int) : Balks (keepingOver W) (begin b seconds) := balks_checkOpen.bind

/-- Whether the session is over is not looked at, but it has no transaction to be ended. -/
theorem balks_finish (sql : String) : Balks (keepingOver W) (finish b sql) := by
  intro l hl
  unfold finish
  rw [ends_bind, Dialog.session, ends_read, ends_bind, ends_require, hl.session.inTransaction]
  exact hl

theorem balks_withTransaction (seconds : Option Int) (body : Dialog σ α) :
    Balks (keepingOver W) (withTransaction b ⟨id, fun l _ => l⟩ seconds body) := by
  refine Balks.bind fun l hl => ?_
  rw [ends_within]
  exact balks_begin seconds l hl

theorem over_terminate : Obeys (keepingOver W) (terminate b) := by
  intro l hl
  unfold terminate
  rw [ends_bind, Dialog.session, ends_read, hl.session.terminated]
  exact hl

theorem over_drop : Obeys (keepingOver W) (drop b) := by
  refine (over_terminate.attempt).bind fun result => ?_
  cases result with
  | ok u => exact .pure _
  | error e => exact (Obeys.read _).bind fun _ => Dialog.has_record _

theorem over_ping : Obeys (keepingOver W) (ping b) :=
  (Obeys.read _).bind fun _ => (balks_run _).obeys.discard

theorem over_nextValue (sequence : String) : Obeys (keepingOver W) (nextValue b sequence) := by
  refine (Obeys.read _).bind fun _ => ?_
  split
  · exact .fail _
  · exact (balks_run _).bind.obeys

end

end Session

/-! ### What its statements do -/

namespace Statement

open NamedSql.Session (Over)

variable {W : World σ → Prop}

abbrev keepingOver (W : World σ → Prop) : Law Failure (Desk σ) :=
  .always Failure (Desk.Has (fun _ => True) Over W)

theorem over_modify (f : Statement → Statement) : Obeys (keepingOver W) (modifyStatement f) :=
  .modify fun _ hd => ⟨trivial, hd.line⟩

theorem over_record (e : Event) : Obeys (keepingOver W) (onLine (Dialog.record e)) :=
  has_onLine (Dialog.has_record e)

theorem balks_openHandle (sql : String) : Balks (keepingOver W) (onLine (Session.openHandle b sql)) := by
  intro d hd
  rw [ends_onLine]
  exact ends_mono (Session.balks_openHandle sql d.line hd.line) (fun _ _ h => h) (fun _ _ h => ⟨trivial, h⟩)
    fun _ h => ⟨trivial, h⟩

theorem over_release (handle : Nat) (sql : String) :
    Obeys (keepingOver W) (onLine (Session.release b handle sql)) :=
  has_onLine (Session.over_release handle sql)

/-- A handle that the statement still has is not open any more. -/
theorem over_ensureHandle (sql : String) : Obeys (keepingOver W) (ensureHandle b sql) := by
  have hprepare : Balks (keepingOver W) (prepareFor b sql) := (balks_openHandle sql).bind
  refine (Obeys.read _).bind fun st => ?_
  rcases st.handle with _ | ⟨handle, prepared⟩
  · exact hprepare.obeys
  · dsimp only
    split
    · exact .pure _
    · exact (over_modify _).bind fun _ => (over_release handle prepared).bind fun _ => hprepare.obeys

theorem balks_callInTime (handle : Nat) (sql : String) (parameters : Option String) (c : Call σ α) :
    Balks (keepingOver W) (callInTime b handle sql parameters c) := by
  intro d hd
  refine ends_callInTime sql parameters (fun _ => hd) hd fun _ _ hopen => ?_
  simp [hd.line.session.handles] at hopen

theorem balks_run (activity : Activity) (bindings : Bindings) (filled : Filled) (window : Option Window) :
    Balks (keepingOver W) (run b activity bindings filled window) := by
  refine .after (.read _) fun st => .after obeys_session fun s => .after (.ofExcept _) fun values => ?_
  refine .after (obeys_shownParameters _) fun shown => .after (obeys_checkTime _ shown) fun _ => ?_
  refine .after (over_ensureHandle _) fun handle => .after (obeys_recordStart over_record _ _ _ _) fun _ => ?_
  exact (balks_callInTime handle _ shown _).bind

theorem balks_openCursor (activity : Activity) (bindings : Bindings) (filled : Filled) (window : Window) :
    Balks (keepingOver W) (openCursor b activity bindings filled window) :=
  .after obeys_session fun _ => (balks_run activity bindings filled (some window)).bind

/-- What a memo still has is given out. -/
theorem over_fetchMemo (window : Window) (page : Option Page) : Obeys (keepingOver W) (fetchMemo b window page) := by
  refine (Obeys.read _).bind fun st => obeys_resolve.bind fun ⟨bindings, filled⟩ => ?_
  have hfetch : Balks (keepingOver W) (fetch b bindings filled window) :=
    (balks_openCursor .retrieve bindings filled window).bind
  refine (Obeys.read _).bind fun memos => ?_
  dsimp only
  rcases st.memo.bind fun use => (memos[use.memo]?).map (use, ·) with _ | ⟨use, memo⟩
  · exact hfetch.obeys
  · refine obeys_now.bind fun now => (Obeys.ofExcept _).bind fun table => ?_
    cases table with
    | some table => exact (over_record _).bind fun _ => .pure _
    | none => exact hfetch.bind.obeys

theorem over_executeBatch : Obeys (keepingOver W) (executeBatch b) := by
  refine obeys_checkOpen.bind fun _ => (Obeys.read _).bind fun st => ?_
  split
  · exact .pure _
  · refine obeys_session.bind fun s => (Obeys.ofExcept _).bind fun entries => ?_
    refine (obeys_shownParameters _).bind fun shown => (obeys_checkTime _ _).bind fun _ => ?_
    refine (over_ensureHandle _).bind fun handle => (obeys_recordStart over_record _ _ _ _).bind fun _ => ?_
    exact (balks_callInTime handle _ shown _).bind.obeys

theorem over_countFilled (label : String) (bindings : Bindings) (filled : Filled) :
    Obeys (keepingOver W) (countFilled b label bindings filled) := by
  refine obeys_session.bind fun s => (Obeys.ofExcept _).bind fun values => ?_
  refine (obeys_shownParameters _).bind fun shown => (obeys_checkTime _ _).bind fun _ => ?_
  exact (balks_openHandle _).bind.obeys

theorem over_addBatch : Obeys (keepingOver W) (addBatch : Work σ Unit) := by
  refine obeys_checkOpen.bind fun _ => obeys_resolve.bind fun _ => (Obeys.read _).bind fun st => ?_
  dsimp only
  split
  · exact (Obeys.require _ _).bind fun _ => over_modify _
  · exact over_modify _

theorem over_close : Obeys (keepingOver W) (close b) := by
  refine (Obeys.read _).bind fun st => ?_
  split
  · refine (over_modify _).bind fun _ => ?_
    split
    · exact over_release _ _
    · exact .pure _
  · exact .pure _

theorem over_drop : Obeys (keepingOver W) (drop b) := by
  refine over_close.attempt.bind fun result => ?_
  cases result with
  | ok u => exact .pure _
  | error e => exact (Obeys.read _).bind fun _ => over_record _

theorem over_retrieve : Obeys (keepingOver W) (retrieve b) :=
  obeys_checkOpen.bind fun _ => (Obeys.read _).bind fun st => over_fetchMemo st.window st.page

theorem over_retrieveRange (start count : UInt64) : Obeys (keepingOver W) (retrieveRange b start count) :=
  obeys_checkOpen.bind fun _ => (Obeys.read _).bind fun _ => (Obeys.require _ _).bind fun _ =>
    (Obeys.ofExcept _).bind fun page => over_fetchMemo (Window.ofClient page) (some page)

theorem over_retrieveFirst : Obeys (keepingOver W) (retrieveFirst b) :=
  obeys_checkOpen.bind fun _ => (Obeys.read _).bind fun _ => obeys_resolve.bind fun _ =>
    (balks_openCursor _ _ _ _).bind.obeys

theorem over_query : Obeys (keepingOver W) (query b) :=
  obeys_checkOpen.bind fun _ => (Obeys.read _).bind fun _ => obeys_resolve.bind fun _ =>
    (balks_openCursor _ _ _ _).bind.obeys

theorem over_update : Obeys (keepingOver W) (update b) :=
  obeys_checkOpen.bind fun _ => obeys_resolve.bind fun _ => (balks_run _ _ _ _).bind.obeys

theorem over_count : Obeys (keepingOver W) (count b) :=
  obeys_count over_countFilled

theorem over_perform (action : Action) : Obeys (keepingOver W) (action.perform b) := by
  refine obeys_action (fun f => over_modify _) (fun _ => over_addBatch) (fun _ => over_close) fun hexecutes => ?_
  cases action with
  | retrieve => exact over_retrieve.map _
  | retrieveRange start limit => exact (over_retrieveRange start limit).map _
  | retrieveFirst => exact over_retrieveFirst.map _
  | query => exact over_query.map _
  | update => exact over_update.map _
  | count => exact over_count.map _
  | executeBatch => exact over_executeBatch.map _
  | bind | bindAll | clearBindings | addBatch | close => cases hexecutes

end Statement

namespace Session

theorem over_create {W : World σ → Prop} (template : Template) (page : Option Page) :
    Balks (keepingOver W) (Statement.create b template page) :=
  balks_checkOpen.bind

theorem over_deed {W : World σ → Prop} (deed : Deed) : Obeys (keepingOver W) (deed.perform b) := by
  cases deed with
  | begin seconds => exact (balks_begin seconds).obeys
  | commit => exact (balks_finish _).obeys
  | rollback => exact (balks_finish _).obeys
  | terminate => exact over_terminate
  | drop => exact over_drop
  | ping => exact over_ping
  | nextValue sequence => exact (over_nextValue sequence).discard
  | create template page => exact (over_create template page).obeys.discard
  | act st memos action => exact Statement.has_atDesk (Statement.over_perform action) st memos

/-! ### Later operations -/

/-- What can be done with a session and its statements after it was terminated: deeds, giving up a statement,
work within a transaction, and reading cursors that were handed out before. -/
inductive Later (σ : Type) where
  | deed (action : Deed)
  | dropStatement (st : Statement)
  | withTransaction (seconds : Option Int) (body : Dialog σ Unit)
  | nextRow (c : Cursor)
  | readAll (c : Cursor)

namespace Later

def perform (b : Backend σ) : Later σ → Dialog σ Unit
  | deed action => action.perform b
  | dropStatement st => fun l =>
    match Statement.drop b ⟨st, [], l⟩ with
    | (r, d) => (r.map fun _ => (), d.line)
  | withTransaction seconds body => Session.withTransaction b ⟨id, fun l _ => l⟩ seconds body
  | nextRow c => fun l =>
    match c.use (Cursor.nextRow b) l with
    | (r, _, l) => (r.map fun _ => (), l)
  | readAll c => fun l =>
    match c.use (Cursor.readAll b) l with
    | (r, _, l) => (r.map fun _ => (), l)

/-- Reading a cursor fetches rows; nothing else calls the database. -/
def Allows (later : Later σ) (request : Request) : Prop :=
  (∃ c, later = .nextRow c ∨ later = .readAll c) ∧ ∃ handle, request = .fetch handle

/-- The same operation on another connection. The body of a transaction is not the same there, but one that
is given. -/
def onto {τ : Type} (body : Dialog τ Unit) : Later σ → Later τ
  | deed action => .deed action
  | dropStatement st => .dropStatement st
  | withTransaction seconds _ => .withTransaction seconds body
  | nextRow c => .nextRow c
  | readAll c => .readAll c

end Later

theorem over_use {W : World σ → Prop} {m : Cursor.Reading σ α} (hm : Cursor.Minds W m) (c : Cursor) :
    Obeys (keepingOver W) fun l =>
      match c.use m l with
      | (r, _, l) => (r.map fun _ => (), l) := by
  intro l hl
  have hends := hm (c, l.world) hl.world
  unfold ends at hends ⊢
  unfold Cursor.use
  dsimp only
  rcases hs : m (c, l.world) with ⟨_ | _ | _, c', w⟩ <;> rw [hs] at hends <;> exact ⟨hl.session, hends⟩

theorem alike_use {τ : Type} {r : σ → τ → Prop} {m : Cursor.Reading σ α} {n : Cursor.Reading τ α}
    (h : Flow.Alike (Cursor.OnAlike r) m n) (c : Cursor) :
    Flow.Alike (Line.Alike r)
      (fun l => match c.use m l with | (r, _, l) => ((r.map fun _ => () : Outcome Failure Unit), l))
      (fun l => match c.use n l with | (r, _, l) => (r.map fun _ => (), l)) := by
  intro l v hlv
  obtain ⟨hr, -, hl⟩ := Cursor.use_alike h c hlv
  exact ⟨congrArg (Outcome.map fun _ => ()) hr, hl⟩

/-- A session that is over stays so, and only reading cursors asks for anything. -/
theorem over_later (later : Later (Watched σ)) (start : List Watch) :
    Obeys (keepingOver (Since (fun calls => ∀ x ∈ calls, later.Allows x.request) start))
      (later.perform b.watched) := by
  have hread (hlater : ∃ c, later = .nextRow c ∨ later = .readAll c) (feed : Feed) :
      Asks later.Allows (b.watched.nextRow feed) :=
    asks_nextRow (fun handle => ⟨hlater, handle, rfl⟩) feed
  cases later with
  | deed action => exact over_deed action
  | dropStatement st => exact Statement.has_atDesk Statement.over_drop st []
  | withTransaction seconds body => exact (balks_withTransaction seconds body).obeys
  | nextRow c => exact over_use (Cursor.minds_nextRow fun feed => hread ⟨c, .inl rfl⟩ feed start) c
  | readAll c => exact over_use (Cursor.minds_readAll fun feed => hread ⟨c, .inr rfl⟩ feed start) c

/-! ### Watching does not show -/

theorem begin_of_over {l : Line σ} (hl : l.session.terminated = true) (seconds : Option Int) :
    begin b seconds l = (.failed (.state (.sessionTerminated l.session.name)), l) := by
  have hopen : (checkOpen : Dialog σ Unit) l = (.failed (.state (.sessionTerminated l.session.name)), l) := by
    show Flow.require (!l.session.terminated) _ l = _
    rw [hl]
    rfl
  exact Flow.bind_failed hopen

theorem withTransaction_of_over {l : Line σ} (hl : l.session.terminated = true) (seconds : Option Int)
    (body : Dialog σ α) : withTransaction b ⟨id, fun l _ => l⟩ seconds body l =
      (.failed (.state (.sessionTerminated l.session.name)), l) := by
  refine Flow.bind_failed ?_
  unfold Flow.within
  dsimp only [id]
  rw [begin_of_over hl]

/-- The body of a transaction does not matter, since it is not done. -/
theorem later_unwatched {later : Later (Watched σ)} {l l' : Line (Watched σ)} {r : Outcome Failure Unit}
    (hl : Over l.session) (h : later.perform b.watched l = (r, l')) (body : Dialog σ Unit) :
    (later.onto body).perform b l.unwatched = (r, l'.unwatched) := by
  have hb := b.alike_watched
  cases later with
  | deed action => exact action.perform_unwatched h
  | dropStatement st =>
    refine Flow.Alike.image Line.alike_unwatched_iff (fun {l v} hlv => ?_) h
    have hdesk : Desk.Alike Watched.Under ⟨st, [], l⟩ ⟨st, [], v⟩ := ⟨rfl, rfl, hlv⟩
    obtain ⟨hr, hd⟩ := Statement.alike_drop hb hdesk
    exact ⟨congrArg (Outcome.map fun _ => ()) hr, hd.line⟩
  | withTransaction seconds watchedBody =>
    have hrefused := withTransaction_of_over (b := b.watched) hl.terminated seconds watchedBody
    obtain ⟨rfl, rfl⟩ := Prod.mk.inj (hrefused.symm.trans h)
    exact withTransaction_of_over (l := l.unwatched) hl.terminated seconds body
  | nextRow c => exact (alike_use (Cursor.alike_nextRow hb) c).image Line.alike_unwatched_iff h
  | readAll c => exact (alike_use (Cursor.alike_readAll hb) c).image Line.alike_unwatched_iff h

/-- A session is terminated that was not terminated before, and it is watched, which changes nothing. Whether
that fails or not, there are no handles and there is no transaction when it returns. Whatever is done with
the session and its statements later, with statements that still have a handle as well, while what happens
beside leaves the session alone, there never are any again, and nothing is asked of the database but the rows
of cursors that were handed out before. -/
theorem silent_after_terminate (b : Backend σ) {l l' : Line (Watched σ)} (hl : l.session.terminated = false)
    {r : Outcome Failure Unit} (hterminate : terminate b.watched l = (r, l')) (hreturned : r ≠ .overflow)
    {turns : List (Turn (Line (Watched σ)) (Later (Watched σ)))}
    (hturns : ∀ change, .meanwhile change ∈ turns → ∀ l, (change l).session = l.session)
    {played : List (Played Failure (Line (Watched σ)) (Later (Watched σ)) Unit)} {last : Line (Watched σ)}
    (h : play (Later.perform b.watched) turns l' = (played, last)) :
    terminate b l.unwatched = (r, l'.unwatched) ∧
    (l'.session.handles = [] ∧ l'.session.inTransaction = false) ∧
    ∀ p ∈ played,
      (p.left.session.handles = [] ∧ p.left.session.inTransaction = false) ∧
      Since (fun calls => ∀ x ∈ calls, p.action.Allows x.request) p.found.world.link.seen p.left.world ∧
      ∀ body, (p.action.onto body).perform b p.found.unwatched = (p.outcome, p.left.unwatched) := by
  have hover : Over l'.session := by
    have hends := over_of_terminate (b := b) hl
    unfold Flow.ends at hends
    rw [hterminate] at hends
    cases r with
    | done u => exact hends
    | failed e => exact hends
    | overflow => exact absurd rfl hreturned
  have hstep (p : Played Failure (Line (Watched σ)) (Later (Watched σ)) Unit)
      (hhonest : p.Honest (Later.perform b.watched)) (hfound : Over p.found.session) :
      Line.Has Over (Since (fun calls => ∀ x ∈ calls, p.action.Allows x.request) p.found.world.link.seen)
        p.left := by
    have hstart : Since (fun calls => ∀ x ∈ calls, p.action.Allows x.request) p.found.world.link.seen
        p.found.world :=
      Since.refl (List.forall_mem_nil _)
    have hleft := (over_later (b := b) p.action p.found.world.link.seen p.found ⟨hfound, hstart⟩).left
    rwa [show p.action.perform b.watched p.found = (p.outcome, p.left) from hhonest] at hleft
  have hkept := play_keeps (I := fun l => Over l.session) (fun p _ hhonest _ hfound => (hstep p hhonest hfound).session)
    (fun change hchange l hl => ?_) hover h
  · refine ⟨(alike_terminate b.alike_watched).image Line.alike_unwatched_iff hterminate, ⟨hover.handles, hover.inTransaction⟩, ?_⟩
    intro p hp
    have hfound : Over p.found.session := (hkept.1 p hp).1
    have hhonest : p.Honest (Later.perform b.watched) := (honest_of_play h p hp).1
    have hleft := hstep p hhonest hfound
    exact ⟨⟨hleft.session.handles, hleft.session.inTransaction⟩, hleft.world, later_unwatched hfound hhonest⟩
  · show Over (change l).session
    rw [hturns change hchange l]
    exact hl

/-- Two handles are open and a transaction runs; closing a handle fails. -/
def busyLine : Line (Watched Script) :=
  { session := { start "main" .default with handles := [0, 1], nextHandle := 2, transaction := some none }
    world := ⟨⟨{ Script.empty with
      closeFault := some ⟨some "08006", 0, "gone"⟩, statements := [(1, .ofBody "SELECT k FROM t")] }, []⟩, .epoch⟩
    log := [] }

/-- A statement that keeps its handle, and a cursor whose rows are read through that handle. -/
def lateTurns : List (Turn (Line (Watched Script)) (Later (Watched Script))) :=
  let template : Template := ⟨"SELECT k FROM t", '\\', "SELECT k FROM t".toList.map .sql⟩
  let st : Statement := { Statement.ofTemplate .sqlite template none with handle := some (1, "SELECT k FROM t") }
  [.act (.deed (.act st [] .retrieve)), .act (.withTransaction none (ping Script.streaming.watched)),
    .meanwhile fun l => { l with world := { l.world with now := ⟨1000⟩ } }, .act (.deed .commit),
    .act (.nextRow (.ofFeed ⟨some 1, ["k"], [[.null]], none⟩ .sqlite "SELECT k FROM t" 0 none))]

theorem silent_after_terminate_of_fault : ∃ e l' played last,
    terminate Script.streaming.watched busyLine = (.failed e, l') ∧
    play (Later.perform Script.streaming.watched) lateTurns l' = (played, last) ∧ played.length = 4 ∧
    last.world.link.seen.length = l'.world.link.seen.length + 1 ∧
    ∀ p ∈ played, p.left.session.handles = [] ∧ p.left.session.inTransaction = false := by
  obtain ⟨e, l', played, last, hterminate, hplay, hlength, hseen⟩ : ∃ e l' played last,
      terminate Script.streaming.watched busyLine = (.failed e, l') ∧
      play (Later.perform Script.streaming.watched) lateTurns l' = (played, last) ∧ played.length = 4 ∧
      last.world.link.seen.length = l'.world.link.seen.length + 1 :=
    ⟨_, _, _, _, rfl, rfl, rfl, rfl⟩
  have hturns : ∀ change, .meanwhile change ∈ lateTurns → ∀ l, (change l).session = l.session := by
    intro change hchange l
    simp only [lateTurns, List.mem_cons, reduceCtorEq, Turn.meanwhile.injEq, List.not_mem_nil, or_false,
      false_or] at hchange
    subst hchange
    rfl
  obtain ⟨-, -, hsilent⟩ := silent_after_terminate Script.streaming rfl hterminate nofun hturns hplay
  exact ⟨e, l', played, last, hterminate, hplay, hlength, hseen, fun p hp => (hsilent p hp).1⟩

end Session

end NamedSql
