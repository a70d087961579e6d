import NamedSql.Backend.Script
import NamedSql.Proofs.Delivery

/-!
# Windows on results

A statement reads the rows of its page in four ways: all at once, one after another, the first of them only,
or a range of all rows. Each of them tells the database how many rows it needs at most, skips some of them
and gives out some of them. On a database that cuts off rows behind the number it was told, all four give the
rows that one would pick from the uncut result (`windows_agree`).
-/

namespace NamedSql

open NamedSql.Flow NamedSql.Cursor

variable {σ α : Type} {b : Backend σ}

/-! ### What a window selects -/

namespace Window

/-- What is given out of a result through a window: of the rows that the database produces. -/
def select (w : Window) (rows : List Row) : List Row :=
  firstRows w.limit ((firstRows w.maxRows rows).drop w.skip.toNat)

variable {R : List Row} {p : Page}

theorem select_all : all.select R = R := rfl

theorem select_ofSql : (ofSql p).select R = firstRows p.limit R := by
  rcases hlimit : p.limit with _ | n
  · simp [select, ofSql, hlimit, firstRows]
  · simp [select, ofSql, hlimit, firstRows, List.take_take]

theorem toNat_saturatingAdd (m n : UInt64) :
    (Page.saturatingAdd m n).toNat = min (m.toNat + n.toNat) (2 ^ 64 - 1) := by
  show (UInt64.ofNat (min (m.toNat + n.toNat) (2 ^ 64 - 1))).toNat = _
  rw [UInt64.toNat_ofNat_of_lt']
  simp only [UInt64.size]
  omega

/-- The sum of the rows in front of a page and on it is cut down if it is too large, but there are not so many
rows. -/
theorem drop_take_saturatingAdd {α : Type} {R : List α} {m n : UInt64} (hR : R.length < twoTo 64) :
    (R.take (Page.saturatingAdd m n).toNat).drop m.toNat = (R.drop m.toNat).take n.toNat := by
  have hlength : R.length < 2 ^ 64 := hR
  rw [toNat_saturatingAdd]
  rcases Nat.le_total (m.toNat + n.toNat) (2 ^ 64 - 1) with hle | hle
  · rw [Nat.min_eq_left hle, List.drop_take, Nat.add_sub_cancel_left]
  · have hall : R.take (2 ^ 64 - 1) = R := List.take_of_length_le (by omega)
    have hrest : (R.drop m.toNat).length ≤ n.toNat := by
      rw [List.length_drop]
      omega
    rw [Nat.min_eq_right hle, hall, List.take_of_length_le hrest]

theorem select_ofClient (hR : R.length < twoTo 64) :
    (ofClient p).select R = firstRows p.limit (R.drop p.offset.toNat) := by
  rcases hlimit : p.limit with _ | n
  · simp [select, ofClient, Page.maxRows, hlimit, firstRows]
  · simp only [select, ofClient, Page.maxRows, hlimit, firstRows, Option.map_some]
    rw [drop_take_saturatingAdd hR, List.take_take, Nat.min_self]

/-- A window that gives out no rows lets the database produce none behind those it skips. -/
def Sound (w : Window) : Prop :=
  w.limit = some 0 → ∃ cap, w.maxRows = some cap ∧ cap.toNat ≤ w.skip.toNat

theorem sound_all : all.Sound := nofun

theorem sound_ofSql : (ofSql p).Sound := fun h => ⟨0, h, Nat.zero_le _⟩

theorem sound_ofClient : (ofClient p).Sound := by
  intro h
  refine ⟨Page.saturatingAdd p.offset 0, ?_, ?_⟩
  · simp only [ofClient] at h
    simp [ofClient, Page.maxRows, h]
  · have hcap := toNat_saturatingAdd p.offset 0
    simp only [ofClient]
    have : (0 : UInt64).toNat = 0 := rfl
    omega

theorem take_min (m n : UInt64) : R.take (min m n).toNat = (R.take m.toNat).take n.toNat := by
  have hmin : (min m n).toNat = min n.toNat m.toNat := by
    show (if m ≤ n then m else n).toNat = _
    split
    · next hle => exact (Nat.min_eq_right (UInt64.le_iff_toNat_le.1 hle)).symm
    · next hle => exact (Nat.min_eq_left (Nat.le_of_not_le fun h => hle (UInt64.le_iff_toNat_le.2 h))).symm
  rw [List.take_take, hmin]

/-- The number of rows up to the first one wraps around only where there is no row. -/
theorem drop_take_succ {skip : UInt64} (hR : R.length < twoTo 64) :
    (R.take (skip + 1).toNat).drop skip.toNat = (R.drop skip.toNat).take 1 := by
  have hlength : R.length < 2 ^ 64 := hR
  have hnext : (skip + 1).toNat = (skip.toNat + 1) % 2 ^ 64 := UInt64.toNat_add _ _
  have hskip : skip.toNat < 2 ^ 64 := skip.toNat_lt
  by_cases hwrap : skip.toNat + 1 = 2 ^ 64
  · have hnone : R.drop skip.toNat = [] := List.drop_eq_nil_of_le (by omega)
    rw [hnext, hwrap, hnone]
    simp
  · rw [hnext, Nat.mod_eq_of_lt (by omega), List.drop_take]
    congr 1
    omega

theorem take_one_firstRows {limit : Option UInt64} (h : limit ≠ some 0) : (firstRows limit R).take 1 = R.take 1 := by
  cases R with
  | nil => rw [firstRows_nil]
  | cons row rows =>
    rw [firstRows_cons h]
    rfl

theorem select_first {w : Window} (hw : w.Sound) (hR : R.length < twoTo 64) :
    w.first.select R = (w.select R).take 1 := by
  have hcapped : (firstRows w.maxRows R).length < twoTo 64 := (length_firstRows_le _ _).trans_lt hR
  have hfirst : w.first.select R = (((firstRows w.maxRows R).take (w.skip + 1).toNat).drop w.skip.toNat).take 1 := by
    rcases hcap : w.maxRows with _ | cap
    · simp [select, first, hcap, firstRows]
    · simp [select, first, hcap, firstRows, take_min]
  rw [hfirst, drop_take_succ hcapped, List.take_take, Nat.min_self, select]
  by_cases hlimit : w.limit = some 0
  · obtain ⟨cap, hcap, hle⟩ := hw hlimit
    have hnone : (firstRows w.maxRows R).drop w.skip.toNat = [] := by
      rw [hcap]
      exact List.drop_eq_nil_of_le ((List.length_take_le _ _).trans hle)
    rw [hnone, firstRows_nil]
  · exact (take_one_firstRows hlimit).symm

end Window

/-! ### What is executed -/

/-- The rows of a reply; a mere count has none. -/
def Reply.feed : Reply → Feed
  | rows feed => feed
  | count _ => Feed.empty

/-- A statement that is ready to be executed would produce these rows if they were not limited. Under a limit
it produces no more than so many of them. It may fail as a whole, but not while its rows are read. -/
def Backend.Offers (b : Backend σ) (handle : Nat) (rows : List Row) (w : World σ) : Prop :=
  ∀ limit reply w', b.execute handle ⟨b.limitRows handle limit w.link, w.now⟩ = (.done reply, w') →
    b.Delivers (firstRows limit rows) reply.feed w'

namespace Statement

variable {activity : Activity} {bindings : Bindings} {filled : Filled} {window : Window} {d d' : Desk σ}
  {R : List Row}

/-- The calls of an execution in front of the one that limits its rows. -/
def setUp (b : Backend σ) (handle : Nat) (before : TimeLimit.Budget) (values : List Value) : Call σ Unit := do
  limitTime b handle before
  Call.modifyLink (b.clearBindings handle)
  b.bindFrom handle 1 values

/-- The statement as it is filled now is prepared under the handle and its values are bound, and nothing else
is done until that world. -/
def Poised (b : Backend σ) (d : Desk σ) (handle : Nat) (w : World σ) : Prop :=
  ∃ bindings filled values d₁ before,
    resolve d = (.done (bindings, filled), d) ∧
    boundValues d.line.session.vendor filled.values = .ok values ∧
    ensureHandle b (d.statement.executableSql d.line.session.vendor filled.sql) d = (.done handle, d₁) ∧
    TimeLimit.budget? d₁.line.session.timeLimit d₁.line.world.now = some before ∧
    setUp b handle before values d₁.line.world = (.done (), w)

theorem callInTime_done {handle : Nat} {sql : String} {parameters : Option String} {c : Call σ α} {a : α}
    (h : callInTime b handle sql parameters c d = (.done a, d')) :
    ∃ before w, TimeLimit.budget? d.line.session.timeLimit d.line.world.now = some before ∧
      (limitTime b handle before >>= fun _ => c) d.line.world = (.done a, w) ∧
      d' = { d with line := { d.line with world := w } } := by
  suffices hends : ends (callInTime b handle sql parameters c)
      (fun a d' => ∃ before w, TimeLimit.budget? d.line.session.timeLimit d.line.world.now = some before ∧
        (limitTime b handle before >>= fun _ => c) d.line.world = (.done a, w) ∧
        d' = { d with line := { d.line with world := w } })
      (fun _ _ => True) (fun _ => True) d from (ends_of_done h).1 hends
  unfold callInTime
  rw [ends_bind, ends_session, ends_bind, ends_budget]
  rcases TimeLimit.budget? d.line.session.timeLimit d.line.world.now with _ | before
  · trivial
  dsimp only
  split
  · trivial
  rw [ends_bind, ends_onLine]
  show ends (Flow.require _ _ >>= fun _ => Dialog.call _) _ _ _ _
  rw [ends_bind, ends_require]
  split
  · rw [Dialog.call, ends_within, ends_attempt]
    refine ends_mono (ends_self _ _) (fun a w hw => ?_) (fun fault w hw => ?_) fun _ _ => trivial
    · rw [ends_bind, ends_budget]
      split
      · dsimp only
        split
        · trivial
        · exact ⟨before, w, rfl, hw, rfl⟩
      · trivial
    · rw [ends_bind, ends_budget]
      split
      · dsimp only
        split
        · trivial
        · trivial
      · trivial
  · trivial

/-- What is executed is the statement as it was set up, under the limit of the window. -/
theorem run_done {result : String × Reply} (hresolve : resolve d = (.done (bindings, filled), d))
    (h : run b activity bindings filled (some window) d = (.done result, d')) :
    ∃ handle w, Poised b d handle w ∧
      b.execute handle ⟨b.limitRows handle window.maxRows w.link, w.now⟩ = (.done result.2, d'.line.world) := by
  suffices hends : ends (run b activity bindings filled (some window))
      (fun result d' => ∃ handle w, Poised b d handle w ∧
        b.execute handle ⟨b.limitRows handle window.maxRows w.link, w.now⟩ = (.done result.2, d'.line.world))
      (fun _ _ => True) (fun _ => True) d from (ends_of_done h).1 hends
  unfold run
  rw [ends_bind, statement, ends_read, ends_bind, ends_session, ends_bind, ends_ofExcept]
  split
  · next values hvalues =>
    rw [ends_bind, ends_shownParameters, ends_bind, ends_checkTime]
    split
    · trivial
    · rw [ends_bind]
      refine ends_mono (ends_self _ _) (fun handle d₁ hprepared => ?_) (fun _ _ _ => trivial) fun _ _ => trivial
      rw [ends_bind]
      refine ends_recordStart fun log => ?_
      rw [ends_bind]
      refine ends_mono (ends_self _ _) (fun reply d₂ hcalled => ?_) (fun _ _ _ => trivial) fun _ _ => trivial
      obtain ⟨before, w, hbudget, hcalls, rfl⟩ := callInTime_done hcalled
      obtain ⟨_, w₁, hlimit, hcalls⟩ := bind_eq_done.1 hcalls
      obtain ⟨_, w₂, hclear, hcalls⟩ := bind_eq_done.1 hcalls
      obtain ⟨_, w₃, hbound, hcalls⟩ := bind_eq_done.1 hcalls
      have hsetUp : setUp b handle before values d₁.line.world = (.done (), w₃) := by
        refine bind_eq_done.2 ⟨(), w₁, hlimit, bind_eq_done.2 ⟨(), w₂, hclear, hbound⟩⟩
      exact ⟨handle, w₃, ⟨bindings, filled, values, d₁, before, hresolve, hvalues, hprepared, hbudget, hsetUp⟩, hcalls⟩
    · trivial
  · trivial

/-- The execution that reading through a window begins with. -/
def executeWindow (b : Backend σ) (activity : Activity) (window : Window) : Work σ (String × Reply) := do
  checkOpen
  let (bindings, filled) ← resolve
  run b activity bindings filled (some window)

def Succeeds (b : Backend σ) (activity : Activity) (window : Window) (d : Desk σ) : Prop :=
  ∃ result d', executeWindow b activity window d = (.done result, d')

/-- Executing through a window gives a cursor that gives out what the window selects. -/
structure Opened (b : Backend σ) (activity : Activity) (window : Window) (d : Desk σ) (bindings : Bindings)
    (filled : Filled) (selected : List Row) : Prop where
  closed : d.statement.closed = false
  resolved : resolve d = (.done (bindings, filled), d)
  opened : ends (openCursor b activity bindings filled window)
    (fun c d' => c.Gives b d'.line.world selected) (fun _ _ => False) (fun _ => False) d

theorem resolve_left {r : Outcome Failure (Bindings × Filled)} (h : resolve d = (r, d')) : d' = d := by
  have hends : ends resolve (fun _ d' => d' = d) (fun _ d' => d' = d) (fun d' => d' = d) d := by
    rw [ends_resolve]
    split
    · split <;> rfl
    · rfl
    · rfl
  exact (congrArg Prod.snd h).symm.trans hends.left

theorem Succeeds.opened (h : Succeeds b activity window d)
    (hoffers : ∀ handle w, Poised b d handle w → b.Offers handle R w) :
    ∃ bindings filled, Opened b activity window d bindings filled (window.select R) := by
  obtain ⟨result, d', hexecutes⟩ := h
  obtain ⟨_, d₁, hcheck, hrest⟩ := bind_eq_done.1 hexecutes
  have hends : ends checkOpen (fun _ d' => d.statement.closed = false ∧ d' = d) (fun _ _ => True) (fun _ => True) d := by
    rw [ends_checkOpen]
    split
    · trivial
    · next hclosed => exact ⟨Bool.eq_false_iff.2 hclosed, rfl⟩
  obtain ⟨hclosed, rfl⟩ := (ends_of_done hcheck).1 hends
  obtain ⟨⟨bindings, filled⟩, d₂, hresolve, hrun⟩ := bind_eq_done.1 hrest
  obtain rfl := resolve_left hresolve
  refine ⟨bindings, filled, hclosed, hresolve, ?_⟩
  obtain ⟨handle, w, hpoised, hexecuted⟩ := run_done hresolve hrun
  have hdelivers := hoffers handle w hpoised window.maxRows result.2 d'.line.world hexecuted
  show ends (session >>= fun s => run b activity bindings filled (some window) >>= _) _ _ _ _
  rw [ends_bind, ends_session, ends_bind, ends_of_done hrun]
  obtain ⟨sql, reply⟩ := result
  cases reply with
  | rows feed => exact gives_ofFeed hdelivers _ _ _ _
  | count n => exact gives_ofFeed hdelivers _ _ _ _

/-! ### Ways to read -/

theorem returns_readOut {m : Cursor.Reading σ α} {c : Cursor} {Q : α → Prop}
    (h : ends m (fun a _ => Q a) (fun _ _ => False) (fun _ => False) (c, d.line.world)) :
    ∃ a d', readOut c m d = (.done a, d') ∧ Q a := by
  obtain ⟨a, ⟨c', w⟩, hm, ha⟩ := returns_iff.1 h
  refine ⟨a, { d with line := { d.line with world := w } }, ?_, ha⟩
  unfold readOut Cursor.use
  rw [hm]

section
variable {selected : List Row} {page : Option Page}

theorem Opened.fetchMemo (h : Opened b .retrieve window d bindings filled selected)
    (hmemo : d.statement.memo = none) : ends (fetchMemo b window page) (fun t _ => t.rows = selected)
      (fun _ _ => False) (fun _ => False) d := by
  unfold Statement.fetchMemo
  rw [ends_bind, statement, ends_read, ends_bind, ends_of_done h.resolved]
  dsimp only
  rw [ends_bind, ends_read, hmemo]
  show ends (openCursor b .retrieve bindings filled window >>= _) _ _ _ d
  refine h.opened.bind fun c d' hc => ?_
  obtain ⟨t, d'', hread, ht⟩ := returns_readOut (d := d') (ends_readAll hc)
  rw [ends_bind, ends_of_done hread]
  exact ht

theorem Opened.retrieve (h : Opened b .retrieve d.statement.window d bindings filled selected)
    (hmemo : d.statement.memo = none) : ends (retrieve b) (fun t _ => t.rows = selected)
      (fun _ _ => False) (fun _ => False) d := by
  unfold Statement.retrieve
  rw [ends_bind, ends_checkOpen, h.closed]
  exact h.fetchMemo hmemo

theorem Opened.retrieveRange {start count : UInt64} {p : Page} (hp : Page.ofStart start (some count) = .ok p)
    (h : Opened b .retrieve (.ofClient p) d bindings filled selected) (hpage : d.statement.page = none)
    (hmemo : d.statement.memo = none) : ends (retrieveRange b start count) (fun t _ => t.rows = selected)
      (fun _ _ => False) (fun _ => False) d := by
  unfold Statement.retrieveRange
  rw [ends_bind, ends_checkOpen, h.closed]
  show ends (statement >>= _) _ _ _ d
  rw [ends_bind, statement, ends_read, ends_bind, ends_require, hpage, hp]
  exact h.fetchMemo hmemo

theorem Opened.retrieveFirst (h : Opened b .retrieve d.statement.window.first d bindings filled selected) :
    ends (retrieveFirst b) (fun r _ => r.map Record.values = selected.head?)
      (fun _ _ => False) (fun _ => False) d := by
  unfold Statement.retrieveFirst
  rw [ends_bind, ends_checkOpen, h.closed]
  show ends (statement >>= _) _ _ _ d
  rw [ends_bind, statement, ends_read, ends_bind, ends_of_done h.resolved]
  refine h.opened.bind fun c d' hc => ?_
  have hfirst : ends (Cursor.nextRow b) (fun row _ => row = selected.head?) (fun _ _ => False) (fun _ => False)
      (c, d'.line.world) :=
    ends_mono (ends_nextRow hc) (fun _ _ h => h.1) (fun _ _ h => h) fun _ h => h
  obtain ⟨row, d'', hread, hrow⟩ := returns_readOut hfirst
  rw [ends_bind, ends_of_done hread, ← hrow]
  cases row with
  | none => rfl
  | some values => rfl

theorem Opened.query (h : Opened b .query d.statement.window d bindings filled selected) :
    ends (query b) (fun c d' => c.Gives b d'.line.world selected) (fun _ _ => False) (fun _ => False) d := by
  unfold Statement.query
  rw [ends_bind, ends_checkOpen, h.closed]
  show ends (statement >>= _) _ _ _ d
  rw [ends_bind, statement, ends_read, ends_bind, ends_of_done h.resolved]
  exact h.opened.bind fun c d' hc => hc

end

/-- The rows of a page. If the SQL selects the page, the database gives none of those in front of it. -/
def pageRows (vendor : Vendor) (page : Option Page) (rows : List Row) : List Row :=
  match page with
  | none => rows
  | some p => if vendor.pagesInSql then firstRows p.limit rows else firstRows p.limit (rows.drop p.offset.toNat)

/-- A new statement pages as its vendor does for its page, and so it does after every action. -/
theorem paging_kept {v : Vendor} (action : Action) :
    Obeys (.always Failure (Desk.Has (fun st => st.paging = pagingOf v st.page) (fun s => s.vendor = v) fun _ => True))
      (action.perform b) := by
  have hlaw : CallByCall b (.always Failure
      (Desk.Has (fun st => st.paging = pagingOf v st.page) (fun s => s.vendor = v) fun _ => True)) :=
    (Backend.Minds.trivially b).callByCall (fun _ _ h => h) (.of_apart fun _ _ _ h => h)
  refine hlaw.obeys_perform (fun _ _ _ _ _ hd => ⟨hd.statement, hd.line⟩) (fun handle sql shown entries => ?_) action
  exact has_callInTime sql shown ((Backend.Minds.trivially b).limitTime handle) fun _ _ =>
    ends_of_forall (fun _ _ => trivial) (fun _ _ => trivial) fun _ => trivial

theorem paging_ofTemplate (v : Vendor) (template : Template) (page : Option Page) :
    (ofTemplate v template page).paging = pagingOf v (ofTemplate v template page).page := rfl

theorem window_sound (st : Statement) : st.window.Sound := by
  unfold Statement.window
  split
  · exact Window.sound_ofSql
  · exact Window.sound_ofClient
  · exact Window.sound_all

theorem select_window {st : Statement} {vendor : Vendor} (hst : st.paging = pagingOf vendor st.page)
    (hR : R.length < twoTo 64) : st.window.select R = pageRows vendor st.page R := by
  unfold Statement.window pageRows
  rw [hst]
  rcases st.page with _ | p
  · exact Window.select_all
  · unfold pagingOf
    dsimp only
    cases vendor.pagesInSql with
    | true => exact Window.select_ofSql
    | false => exact Window.select_ofClient hR

/-- A statement without a memo, whose paging is the one with which it was created, on a database that would
produce the rows `R` for what the statement executes now. It fetches the rows of its page, it gives them out
one by one through a cursor as well, of which the first is the one that it fetches alone, and a statement
without a page fetches every range of `R`. Each of these is promised if the execution succeeds that it begins
with, which asks the database for no more rows than are needed. Rows are counted with 64 bits. -/
theorem windows_agree (b : Backend σ) {d : Desk σ} (hmemo : d.statement.memo = none)
    (hpaging : d.statement.paging = pagingOf d.line.session.vendor d.statement.page) {R : List Row}
    (hR : R.length < twoTo 64) (hoffers : ∀ handle w, Poised b d handle w → b.Offers handle R w) :
    let selected := pageRows d.line.session.vendor d.statement.page R
    (Succeeds b .retrieve d.statement.window d → ∃ t d', retrieve b d = (.done t, d') ∧ t.rows = selected) ∧
    (Succeeds b .query d.statement.window d → ∃ c d', query b d = (.done c, d') ∧
      (∃ t d'', readOut c (Cursor.readAll b) d' = (.done t, d'') ∧ t.rows = selected) ∧
      ∀ count, ∃ rows d'', readOut c (Cursor.readRows b count) d' = (.done rows, d'') ∧
        rows = selected.take count) ∧
    (Succeeds b .retrieve d.statement.window.first d →
      ∃ r d', retrieveFirst b d = (.done r, d') ∧ r.map Record.values = selected.head?) ∧
    (d.statement.page = none → ∀ start limit, 1 ≤ start → 1 ≤ limit →
      Succeeds b .retrieve (.ofClient ⟨start, some limit⟩) d →
      ∃ t d', retrieveRange b start limit d = (.done t, d') ∧
        t.rows = (R.drop (start.toNat - 1)).take limit.toNat) := by
  intro selected
  have hselect : d.statement.window.select R = selected := select_window hpaging hR
  refine ⟨fun h => ?_, fun h => ?_, fun h => ?_, fun hpage start limit hstart hlimit h => ?_⟩
  · obtain ⟨bindings, filled, hopened⟩ := h.opened hoffers
    rw [hselect] at hopened
    exact returns_iff.1 (hopened.retrieve hmemo)
  · obtain ⟨bindings, filled, hopened⟩ := h.opened hoffers
    rw [hselect] at hopened
    obtain ⟨c, d', hquery, hc⟩ := returns_iff.1 hopened.query
    refine ⟨c, d', hquery, returns_readOut (ends_readAll hc), fun count => returns_readOut ?_⟩
    exact ends_mono (ends_readRows hc count) (fun _ _ h => h.1) (fun _ _ h => h) fun _ h => h
  · obtain ⟨bindings, filled, hopened⟩ := h.opened hoffers
    rw [Window.select_first (window_sound _) hR, hselect] at hopened
    obtain ⟨r, d', hfirst, hr⟩ := returns_iff.1 hopened.retrieveFirst
    refine ⟨r, d', hfirst, hr.trans ?_⟩
    cases selected <;> rfl
  · obtain ⟨bindings, filled, hopened⟩ := h.opened hoffers
    rw [Window.select_ofClient hR] at hopened
    have hstart' : 1 ≤ start.toNat := UInt64.le_iff_toNat_le.1 hstart
    have hlimit' : 1 ≤ limit.toNat := UInt64.le_iff_toNat_le.1 hlimit
    have hp : Page.ofStart start (some limit) = .ok ⟨start, some limit⟩ := by
      have hzero : start ≠ 0 := by
        rintro rfl
        simp at hstart'
      have hpositive : 0 < limit := UInt64.lt_iff_toNat_lt.2 hlimit'
      simp [Page.ofStart, Page.normalLimit, hzero, hpositive]
    have hoffset : start.toNat - 1 = (Page.offset ⟨start, some limit⟩).toNat :=
      (UInt64.toNat_sub_of_le start 1 hstart).symm
    rw [hoffset]
    exact returns_iff.1 (hopened.retrieveRange hp hpage hmemo)

def listedRows : List Row :=
  [[.integer 1], [.integer 2], [.integer 3]]

/-- A database that waits with three rows for the execution of a statement that is prepared. -/
def listedDesk (page : Option Page) : Desk Script where
  statement :=
    { ofTemplate .mssql ⟨"SELECT k FROM t", '\\', "SELECT k FROM t".toList.map .sql⟩ page with
      handle := some (0, "SELECT k FROM t") }
  memos := []
  line :=
    { session := { Session.start "main" { Settings.default with vendor := .mssql } with
        handles := [0], nextHandle := 1 }
      world := ⟨{ Script.empty with
        cues := [⟨0, .rows ["k"] listedRows none⟩], statements := [(0, .ofBody "SELECT k FROM t")] }, .epoch⟩
      log := [] }

theorem offers_listedDesk (page : Option Page) (handle : Nat) (w : World Script)
    (h : Poised Script.streaming (listedDesk page) handle w) : Script.streaming.Offers handle listedRows w := by
  obtain ⟨bindings, filled, values, d₁, before, hresolve, hvalues, hprepared, hbudget, hsetUp⟩ := h
  obtain ⟨rfl, rfl⟩ : bindings = .empty ∧ filled = ⟨"SELECT k FROM t", []⟩ := by
    cases hresolve
    exact ⟨rfl, rfl⟩
  cases hvalues
  obtain ⟨rfl, rfl⟩ : handle = 0 ∧ d₁ = listedDesk page := by
    rcases page with _ | p <;> cases hprepared <;> exact ⟨rfl, rfl⟩
  cases hbudget
  cases hsetUp
  intro limit reply w' hexecuted
  cases limit with
  | none =>
    cases hexecuted
    exact Backend.streams_none_iff.1 (Backend.streams_streaming rfl)
  | some n =>
    cases hexecuted
    exact Backend.streams_none_iff.1 (Backend.streams_streaming rfl)

theorem windows_agree_of_three :
    (∃ t d', retrieve Script.streaming (listedDesk (some ⟨2, some 5⟩)) = (.done t, d') ∧
      t.rows = [[.integer 2], [.integer 3]]) ∧
    (∃ r d', retrieveFirst Script.streaming (listedDesk (some ⟨2, some 5⟩)) = (.done r, d') ∧
      r.map Record.values = some [.integer 2]) ∧
    ∃ t d', retrieveRange Script.streaming 2 1 (listedDesk none) = (.done t, d') ∧ t.rows = [[.integer 2]] := by
  have hlength : listedRows.length < twoTo 64 := by decide
  obtain ⟨hretrieve, -, hfirst, -⟩ := windows_agree Script.streaming (d := listedDesk (some ⟨2, some 5⟩)) rfl rfl
    hlength (offers_listedDesk _)
  obtain ⟨-, -, -, hrange⟩ := windows_agree Script.streaming (d := listedDesk none) rfl rfl hlength
    (offers_listedDesk _)
  exact ⟨hretrieve ⟨_, _, rfl⟩, hfirst ⟨_, _, rfl⟩, hrange rfl 2 1 (by decide) (by decide) ⟨_, _, rfl⟩⟩

end Statement

end NamedSql
