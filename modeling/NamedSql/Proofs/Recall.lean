import NamedSql.Proofs.Batch
import NamedSql.Proofs.Direct
import NamedSql.Proofs.Matching

/-!
# Retrieving from memos

Where the table comes from that a statement gives when it retrieves a page: the database was asked for it,
and then it may have been stored, or it was found in the memo of the statement and has not expired
(`Dealt`). Whatever else is done with a statement leaves the memos alone (`memos_perform`).
-/

namespace NamedSql

open NamedSql.Flow NamedSql.Session

variable {σ α : Type} {b : Backend σ}

namespace Statement

/-! ### What leaves the memos alone -/

section
variable {memos : List Memo}

abbrev keepingMemos (σ : Type) (memos : List Memo) : Law Failure (Desk σ) :=
  .always Failure fun d => d.memos = memos

theorem memos_onLine (m : Dialog σ α) : Obeys (keepingMemos σ memos) (onLine m) :=
  .within fun _ hd => ends_of_forall (fun _ _ => hd) (fun _ _ => hd) fun _ => hd

theorem memos_modifyStatement (f : Statement → Statement) :
    Obeys (keepingMemos σ memos) (modifyStatement f) :=
  .modify fun _ hd => hd

theorem memos_readOut (c : Cursor) (m : Cursor.Reading σ α) : Obeys (keepingMemos σ memos) (readOut c m) :=
  fun _ hd => (ends_readOut c m).2 (ends_of_forall (fun _ _ => hd) (fun _ _ => hd) fun _ => hd)

theorem memos_ensureHandle (sql : String) : Obeys (keepingMemos σ memos) (ensureHandle b sql) := by
  have hprepare : Obeys (keepingMemos σ memos) (prepareFor b sql) :=
    (memos_onLine _).bind fun _ => (memos_modifyStatement _).bind fun _ => .pure _
  refine (Obeys.read _).bind fun st => ?_
  rcases st.handle with _ | ⟨handle, prepared⟩
  · exact hprepare
  · dsimp only
    split
    · exact .pure _
    · exact (memos_modifyStatement _).bind fun _ => (memos_onLine _).bind fun _ => hprepare

theorem memos_callInTime (handle : Nat) (sql : String) (parameters : Option String) (c : Call σ α) :
    Obeys (keepingMemos σ memos) (callInTime b handle sql parameters c) := by
  intro d hd
  refine ends_callInTime sql parameters (fun _ => hd) hd fun _ _ _ => ?_
  refine ends_of_forall (fun _ w => ?_) (fun _ _ => hd) fun _ => hd
  split
  · exact hd
  · exact hd

theorem memos_run (activity : Activity) (bindings : Bindings) (filled : Filled) (window : Option Window) :
    Obeys (keepingMemos σ memos) (run b activity bindings filled window) :=
  (Obeys.read _).bind fun _ => obeys_session.bind fun _ => (Obeys.ofExcept _).bind fun _ =>
    (obeys_shownParameters _).bind fun _ => (obeys_checkTime _ _).bind fun _ => (memos_ensureHandle _).bind fun _ =>
      (obeys_recordStart (fun _ => memos_onLine _) _ _ _ _).bind fun _ => (memos_callInTime _ _ _ _).bind fun _ =>
        .pure _

theorem memos_openCursor (activity : Activity) (bindings : Bindings) (filled : Filled) (window : Window) :
    Obeys (keepingMemos σ memos) (openCursor b activity bindings filled window) :=
  obeys_session.bind fun _ => (memos_run _ _ _ _).bind fun _ => .pure _

theorem memos_fetch (bindings : Bindings) (filled : Filled) (window : Window) :
    Obeys (keepingMemos σ memos) (fetch b bindings filled window) :=
  (memos_openCursor _ _ _ _).bind fun c => (memos_readOut c _).bind fun _ => (memos_onLine _).bind fun _ => .pure _

theorem memos_countFilled (label : String) (bindings : Bindings) (filled : Filled) :
    Obeys (keepingMemos σ memos) (countFilled b label bindings filled) := by
  have hcountRow (vendor : Vendor) (handle : Nat) (sql : String) (parameters : Option String) (values : List Value) :
      Obeys (keepingMemos σ memos) (countRow b vendor handle sql parameters values) := by
    refine (memos_callInTime _ _ _ _).bind fun reply => ?_
    cases reply with
    | rows feed => exact memos_readOut _ _
    | count n => exact .pure _
  refine fun d hd => ends_countFilled label bindings hd (fun _ => memos_onLine _) (fun _ _ => memos_onLine _)
    fun values _ d₁ h₁ => ?_
  exact ends_mono (memos_onLine _ d₁ h₁) (fun handle d₂ h₂ shown log => hcountRow _ _ _ _ _ _ h₂) (fun _ _ h => h)
    fun _ h => h

theorem memos_executeBatch : Obeys (keepingMemos σ memos) (executeBatch b) := by
  refine obeys_checkOpen.bind fun _ => (Obeys.read _).bind fun st => ?_
  split
  · exact .pure _
  · refine obeys_session.bind fun s => (Obeys.ofExcept _).bind fun entries => ?_
    refine (obeys_shownParameters _).bind fun shown => (obeys_checkTime _ _).bind fun _ => ?_
    refine (memos_ensureHandle _).bind fun handle => (obeys_recordStart (fun _ => memos_onLine _) _ _ _ _).bind fun _ => ?_
    refine (memos_callInTime _ _ _ _).bind fun counts => (memos_modifyStatement _).bind fun _ => ?_
    exact (memos_onLine _).bind fun _ => .pure _

theorem memos_addBatch : Obeys (keepingMemos σ memos) (addBatch : Work σ Unit) := by
  refine obeys_checkOpen.bind fun _ => obeys_resolve.bind fun _ => (Obeys.read _).bind fun st => ?_
  dsimp only
  split
  · exact (Obeys.require _ _).bind fun _ => memos_modifyStatement _
  · exact memos_modifyStatement _

theorem memos_close : Obeys (keepingMemos σ memos) (close b) := by
  refine (Obeys.read _).bind fun st => ?_
  split
  · refine (memos_modifyStatement _).bind fun _ => ?_
    split
    · exact memos_onLine _
    · exact .pure _
  · exact .pure _

/-- The page that an action on a statement retrieves. -/
def Action.page? (st : Statement) : Action → Option (Option Page)
  | .retrieve => some st.page
  | .retrieveRange start limit => (Page.ofStart start (some limit)).toOption.map some
  | _ => none

def Action.retrieves : Action → Bool
  | .retrieve | .retrieveRange .. => true
  | _ => false

theorem Action.retrieves_of_page {action : Action} {st : Statement} {page : Option Page}
    (h : action.page? st = some page) : action.retrieves = true := by
  cases action with
  | retrieve | retrieveRange => rfl
  | _ => cases h

theorem memos_retrieveFirst : Obeys (keepingMemos σ memos) (retrieveFirst b) :=
  obeys_checkOpen.bind fun _ => (Obeys.read _).bind fun _ => obeys_resolve.bind fun _ =>
    (memos_openCursor _ _ _ _).bind fun c => (memos_readOut c _).bind fun _ => (memos_onLine _).bind fun _ => .pure _

theorem memos_query : Obeys (keepingMemos σ memos) (query b) :=
  obeys_checkOpen.bind fun _ => (Obeys.read _).bind fun _ => obeys_resolve.bind fun _ =>
    (memos_openCursor _ _ _ _).bind fun _ => (memos_onLine _).bind fun _ => .pure _

theorem memos_update : Obeys (keepingMemos σ memos) (update b) :=
  obeys_checkOpen.bind fun _ => obeys_resolve.bind fun _ => (memos_run _ _ _ _).bind fun _ =>
    (memos_onLine _).bind fun _ => .pure _

/-- Only retrieving tables changes memos. -/
theorem memos_perform {action : Action} (haction : action.retrieves = false) :
    Obeys (keepingMemos σ memos) (action.perform b) := by
  refine obeys_action (fun _ => memos_modifyStatement _) (fun _ => memos_addBatch) (fun _ => memos_close)
    fun hexecutes => ?_
  cases action with
  | retrieve | retrieveRange => cases haction
  | retrieveFirst => exact memos_retrieveFirst.map _
  | query => exact memos_query.map _
  | update => exact memos_update.map _
  | count =>
    exact (obeys_count fun _ _ _ => memos_countFilled _ _ _).map _
  | executeBatch => exact memos_executeBatch.map _
  | bind | bindAll | clearBindings | addBatch | close => cases hexecutes

end

/-! ### What the database is asked for -/

/-- Between the two states something was executed with success. -/
def Fetched (d d' : Desk (Watched σ)) : Prop :=
  Since Executed d.line.world.link.seen d'.line.world

theorem minds_seen (start : List Watch) : b.watched.Minds (Since (fun _ => True) start) := by
  have hseen {α : Type} {c : Call (Watched σ) α} (hc : Asks (fun _ => True) c) :
      Obeys (.always NativeFault (Since (fun _ => True) start)) c :=
    hc.keeps (fun _ _ _ _ => trivial) start
  refine ⟨?_, fun _ _ => hseen (asks_prepare trivial), fun _ => hseen (asks_close trivial)⟩
  constructor
  · exact fun _ _ _ => hseen (.watch trivial _)
  · exact fun _ => hseen (asks_clearBindings trivial)
  · exact fun _ => hseen (asks_execute trivial)
  · exact fun _ _ => hseen (asks_limitRows trivial)
  · exact fun _ budget => hseen (asks_limitTime (fun _ => trivial) budget)
  · exact fun _ => hseen (.watch trivial _)

section
variable {d : Desk (Watched σ)} {start : List Watch} {bindings : Bindings} {filled : Filled} {window : Window}

theorem since_executed_append (calls more : List Watch) (hcalls : Executed calls)
    (_ : ∀ x ∈ more, True) : Executed (calls ++ more) :=
  hcalls.append more

theorem executed_run (activity : Activity) (hd : Since (fun _ => True) start d.line.world) :
    ends (run b.watched activity bindings filled (some window))
      (fun _ d' => Since Executed start d'.line.world) (fun _ _ => True) (fun _ => True) d := by
  have hminds : b.watched.Minds (Since (fun _ => True) start) := minds_seen start
  have hlaw : CallByCall b.watched (.always Failure
      (Desk.Has (fun _ => True) (fun _ => True) (Since (fun _ => True) start))) :=
    hminds.callByCall (fun _ _ h => h) (.of_apart fun _ _ _ h => h)
  have hstart : Desk.Has (fun _ => True) (fun _ => True) (Since (fun _ => True) start) d := ⟨trivial, trivial, hd⟩
  unfold run
  rw [ends_bind, statement, ends_read, ends_bind, ends_session, ends_bind, ends_ofExcept]
  split
  · next values _ =>
    rw [ends_bind, ends_shownParameters]
    refine (obeys_checkTime _ _).thenEnds hstart (fun _ _ _ => trivial) (fun _ _ => trivial) fun _ d₁ h₁ => ?_
    refine (hlaw.ensureHandle _).thenEnds h₁ (fun _ _ _ => trivial) (fun _ _ => trivial) fun handle d₂ h₂ => ?_
    refine (obeys_recordStart hlaw.record _ _ _ _).thenEnds h₂ (fun _ _ _ => trivial) (fun _ _ => trivial)
      fun _ d₃ h₃ => ?_
    rw [ends_bind]
    refine ends_callInTime _ _ (fun _ => trivial) trivial fun before _ _ => ?_
    refine (hminds.limitTime handle before).thenEnds h₃.line.world (fun _ _ _ => trivial) (fun _ _ => trivial)
      fun _ w₁ hw₁ => ?_
    refine (hminds.clearBindings handle).thenEnds hw₁ (fun _ _ _ => trivial) (fun _ _ => trivial) fun _ w₂ hw₂ => ?_
    refine (b.watched.obeys_bindFrom (hminds.bind handle) 1 values).thenEnds hw₂ (fun _ _ _ => trivial)
      (fun _ _ => trivial) fun _ w₃ hw₃ => ?_
    refine (hminds.limitRows handle _).thenEnds hw₃ (fun _ _ _ => trivial) (fun _ _ => trivial) fun _ w₄ hw₄ => ?_
    refine ends_watch _ _ (fun reply w hw => ?_) (fun _ _ _ => trivial) fun _ _ => trivial
    split
    · trivial
    · exact hw₄.concat hw fun calls _ => ⟨handle, w.now, List.mem_append_right calls (List.mem_singleton_self _)⟩
  · trivial

theorem executed_fetch (d : Desk (Watched σ)) :
    ends (fetch b.watched bindings filled window) (fun _ d' => Fetched d d') (fun _ _ => True) (fun _ => True) d := by
  have hread {β : Type} {m : Cursor.Reading (Watched σ) β}
      (hm : Cursor.Minds (Since Executed d.line.world.link.seen) m) (c : Cursor) :
      Obeys (.always Failure (Desk.Has (fun _ => True) (fun _ => True) (Since Executed d.line.world.link.seen)))
        (readOut c m) :=
    has_readOut hm c
  have hnext (feed : Feed) : Obeys (.always NativeFault (Since Executed d.line.world.link.seen))
      (b.watched.nextRow feed) :=
    (asks_nextRow (R := fun _ => True) (fun _ => trivial) feed).keeps since_executed_append _
  unfold fetch openCursor
  rw [ends_bind, ends_bind, ends_session, ends_bind]
  refine ends_mono (executed_run .retrieve (Since.refl trivial)) (fun _ d₁ h₁ => ?_) (fun _ _ h => h) fun _ h => h
  refine (hread (Cursor.minds_readAll hnext) _).thenEnds ⟨trivial, trivial, h₁⟩ (fun _ _ _ => trivial)
    (fun _ _ => trivial) fun t d₂ h₂ => ?_
  exact h₂.line.world

end

/-! ### Where tables come from -/

/-- The bindings after the hooks, with the statement and the page, make this key. -/
def Keyed (d : Desk σ) (page : Option Page) (key : MemoKey) : Prop :=
  ∃ bindings, Hook.applyAll d.line.world.now d.statement.hooks d.statement.bindings = .done bindings ∧
    key = .ofPage d.statement.label bindings page

/-- A table from the database is stored under its key, in the memo with this number, for the lifetime that the
statement or else the memo has. -/
structure Stores (d : Desk (Watched σ)) (page : Option Page) (n : Nat) (key : MemoKey) (e : MemoEntry)
    (d' : Desk (Watched σ)) : Prop where
  keyed : Keyed d page key
  storable : key.isStorable = true
  fetched : Fetched d d'
  put : ∃ use memo memo', d.statement.memo = some use ∧ use.memo = n ∧ d.memos[n]? = some memo ∧
    d'.line.world.now.add? (use.lifetime.getD memo.lifetime) = some e.expires ∧
    memo.put key e.table e.expires = .ok memo' ∧ d'.memos = d.memos.set n memo'

/-- A table is found under its key, in the memo with this number, and has not expired. -/
structure Recalls (d : Desk (Watched σ)) (page : Option Page) (n : Nat) (key : MemoKey) (e : MemoEntry) : Prop where
  keyed : Keyed d page key
  storable : key.isStorable = true
  use : ∃ use, d.statement.memo = some use ∧ use.memo = n
  found : Memo.findIn d.memos n key = some e
  fresh : d.line.world.now.millis < e.expires.millis

/-- Where the table comes from that a page was retrieved as. -/
inductive Dealt (d : Desk (Watched σ)) (page : Option Page) (t : Table) (d' : Desk (Watched σ)) : Prop where
  | fetched (h : Fetched d d') (hleft : d'.memos = d.memos)
  | stored {n : Nat} {key : MemoKey} {expires : Instant} (h : Stores d page n key ⟨t, expires⟩ d')
  | recalled {n : Nat} {key : MemoKey} {expires : Instant} (h : Recalls d page n key ⟨t, expires⟩)
    (hleft : d'.memos = d.memos)

theorem get_eq_some {m : Memo} {now : Instant} {k : MemoKey} {t : Table} (h : m.get now k = .ok (some t)) :
    k.isStorable = true ∧ ∃ expires, m.find? k = some ⟨t, expires⟩ ∧ now.millis < expires.millis := by
  have hopen : m.closed = false := Memo.open_of_get h
  have hstorable : k.isStorable = true := by
    by_contra hk
    rw [Memo.get_unstorable hopen (Bool.eq_false_iff.2 hk)] at h
    cases h
  refine ⟨hstorable, ?_⟩
  cases hfind : m.find? k with
  | none =>
    rw [Memo.get_absent hopen hstorable hfind] at h
    cases h
  | some e =>
    rw [Memo.get_present hopen hstorable hfind] at h
    split at h
    · next hfresh =>
      obtain rfl := Option.some.inj (Except.ok.inj h)
      exact ⟨e.expires, rfl, hfresh⟩
    · cases h

section
variable {d d' : Desk (Watched σ)} {use : MemoUse} {memo : Memo} {page : Option Page} {key : MemoKey} {t : Table}

/-- A table that was got from the database is stored, or the memo does not take its key. -/
theorem ends_store (hkeyed : Keyed d page key) (huse : d.statement.memo = some use)
    (hmemo : d.memos[use.memo]? = some memo) (hfetched : Fetched d d') (hleft : d'.memos = d.memos) :
    ends (store use memo key t) (fun _ d'' => Dealt d page t d'') (fun _ d'' => d''.memos = d.memos)
      (fun d'' => d''.memos = d.memos) d' := by
  unfold store
  show ends (onLine Dialog.now >>= _) _ _ _ d'
  rw [ends_bind]
  show ends (Flow.ofCalendar (d'.line.world.now.add? (use.lifetime.getD memo.lifetime)) >>= _) _ _ _ d'
  rw [ends_bind, ends_ofCalendar]
  split
  · next expires hexpires =>
    rw [ends_bind, ends_ofExcept]
    split
    · next memo' hput =>
      have hset : d'.memos.set use.memo memo' = d.memos.set use.memo memo' := by rw [hleft]
      by_cases hstorable : key.isStorable = true
      · have hstores : Stores d page use.memo key ⟨t, expires⟩ { d' with memos := d'.memos.set use.memo memo' } :=
          ⟨hkeyed, hstorable, hfetched, use, memo, memo', huse, rfl, hmemo, hexpires, hput, hset⟩
        exact .stored hstores
      · -- the memo is written back as it was
        rw [Memo.put_unstorable (Memo.open_of_put hput) (Bool.eq_false_iff.2 hstorable)] at hput
        obtain rfl := Except.ok.inj hput
        obtain ⟨hn, rfl⟩ := List.getElem?_eq_some_iff.1 hmemo
        exact .fetched hfetched (hset.trans (List.set_getElem_self hn))
    · exact hleft
  · exact hleft

end

theorem ends_fetchMemo (window : Window) (page : Option Page) (d : Desk (Watched σ)) :
    ends (fetchMemo b.watched window page) (fun t d' => Dealt d page t d') (fun _ d' => d'.memos = d.memos)
      (fun d' => d'.memos = d.memos) d := by
  unfold fetchMemo
  rw [ends_bind, statement, ends_read, ends_bind, ends_resolve]
  split
  · next bindings hbindings =>
    split
    · next filled _ =>
      -- whatever the database is asked for, it leaves the memos alone
      have hfetch : ends (fetch b.watched bindings filled window)
          (fun _ d' => Fetched d d' ∧ d'.memos = d.memos) (fun _ d' => d'.memos = d.memos)
          (fun d' => d'.memos = d.memos) d :=
        ends_mono ((executed_fetch d).and (memos_fetch bindings filled window d rfl)) (fun _ _ h => h)
          (fun _ _ h => h.2) fun _ h => h.2
      rw [ends_bind, ends_read]
      dsimp only
      rcases huse : d.statement.memo.bind fun use => (d.memos[use.memo]?).map (use, ·) with _ | ⟨use, memo⟩
      · exact ends_mono hfetch (fun t d' h => .fetched h.1 h.2) (fun _ _ h => h) fun _ h => h
      · obtain ⟨use', huse', hmap⟩ := Option.bind_eq_some_iff.1 huse
        obtain ⟨memo', hmemo, hpair⟩ := Option.map_eq_some_iff.1 hmap
        obtain ⟨rfl, rfl⟩ := Prod.mk.inj hpair
        have hkeyed : Keyed d page (.ofPage d.statement.label bindings page) := ⟨bindings, hbindings, rfl⟩
        show ends (onLine Dialog.now >>= _) _ _ _ d
        rw [ends_bind]
        show ends (Flow.ofExcept (memo'.get d.line.world.now _) >>= _) _ _ _ d
        rw [ends_bind, ends_ofExcept]
        split
        · next found hresult =>
          cases found with
          | some t =>
            obtain ⟨hstorable, expires, hfind, hfresh⟩ := get_eq_some hresult
            have hfound : Memo.findIn d.memos use'.memo (.ofPage d.statement.label bindings page) =
                some ⟨t, expires⟩ :=
              Memo.findIn_eq_some.2 ⟨memo', hmemo, hfind⟩
            exact .recalled ⟨hkeyed, hstorable, ⟨use', huse', rfl⟩, hfound, hfresh⟩ rfl
          | none =>
            refine hfetch.bind fun t d₁ h₁ => ?_
            show ends (store use' memo' _ t >>= fun _ => pure t) _ _ _ d₁
            rw [ends_bind]
            exact ends_store hkeyed huse' hmemo h₁.1 h₁.2
        · rfl
    · rfl
  · rfl
  · rfl

/-- Bindings with a stream are never a key of a memo, so the database is asked. -/
theorem Dealt.of_stream {d d' : Desk (Watched σ)} {page : Option Page} {t : Table} {bindings : Bindings}
    (h : Dealt d page t d') (hbindings : Hook.applyAll d.line.world.now d.statement.hooks d.statement.bindings =
      .done bindings) (hstream : bindings.hasStream = true) : Fetched d d' ∧ d'.memos = d.memos := by
  have hunstorable {key : MemoKey} (hkey : Keyed d page key) (hstorable : key.isStorable = true) : False := by
    obtain ⟨bindings', hbindings', rfl⟩ := hkey
    obtain rfl : bindings = bindings' := Outcome.done.inj (hbindings.symm.trans hbindings')
    cases page <;> simp [MemoKey.isStorable, MemoKey.ofPage, hstream] at hstorable
  cases h with
  | fetched h hleft => exact ⟨h, hleft⟩
  | stored h => exact absurd h.storable (hunstorable h.keyed)
  | recalled h => exact absurd h.storable (hunstorable h.keyed)

theorem Dealt.withStatement {d d' : Desk (Watched σ)} {page : Option Page} {t : Table} (h : Dealt d page t d')
    (st : Statement) : Dealt d page t { d' with statement := st } := by
  cases h with
  | fetched h hleft => exact .fetched h hleft
  | stored h => exact .stored ⟨h.keyed, h.storable, h.fetched, h.put⟩
  | recalled h hleft => exact .recalled h hleft

theorem ends_retrieving {action : Action} (haction : action.retrieves = true) (d : Desk (Watched σ)) :
    ends (action.perform b.watched)
      (fun r d' => ∃ page t, action.page? d.statement = some page ∧ r = .table t ∧ Dealt d page t d')
      (fun _ d' => d'.memos = d.memos) (fun d' => d'.memos = d.memos) d := by
  cases action with
  | retrieve =>
    refine (ends_map _ _).2 ?_
    unfold retrieve
    rw [ends_bind, ends_checkOpen]
    split
    · rfl
    rw [ends_bind, statement, ends_read]
    exact ends_mono (ends_fetchMemo _ _ d) (fun t d' h => ⟨_, t, rfl, rfl, h⟩) (fun _ _ h => h) fun _ h => h
  | retrieveRange start limit =>
    refine (ends_map _ _).2 ?_
    unfold retrieveRange
    rw [ends_bind, ends_checkOpen]
    split
    · rfl
    rw [ends_bind, statement, ends_read, ends_bind, ends_require]
    split
    · rw [ends_bind, ends_ofExcept]
      split
      · next page hpage =>
        have hasked : (Action.retrieveRange start limit).page? d.statement = some (some page) := by
          rw [Action.page?, hpage]
          rfl
        exact ends_mono (ends_fetchMemo _ _ d) (fun t d' h => ⟨_, t, hasked, rfl, h⟩) (fun _ _ h => h) fun _ h => h
      · rfl
    · rfl
  | _ => cases haction

end Statement

end NamedSql
