import NamedSql.Proofs.Delivery
import NamedSql.Proofs.Watching

/-!
# What a cursor yields and asks for

The readings of a cursor one after another, and all of its rows at once, over any feed that streams rows
(`Cursor.window_yielded`). On a watched database the rows that were asked for can be counted: they are at most
those of the window, none is asked for behind the end or the failure of the feed, and a limit of 0 asks for none.
-/

namespace NamedSql

open NamedSql.Flow

variable {σ : Type} {b : Backend σ} {ending : Option NativeFault} {rows : List Row} {feed feed' : Feed}
  {w w' : World σ} {n : Nat} {spent : Bool}

namespace Backend

/-- Where asking has led in a feed that streams rows. -/
theorem Streams.asked (h : b.Streams ending rows feed w) (hasked : b.Asked feed w n spent feed' w') :
    (spent = false → n ≤ rows.length ∧ b.Streams ending (rows.drop n) feed' w') ∧
      (spent = true → n = rows.length + 1) := by
  induction hasked with
  | start => exact ⟨fun _ => ⟨Nat.zero_le _, h⟩, nofun⟩
  | @row n row feed₁ feed₂ w₁ w₂ _ hrow ih =>
    obtain ⟨hle, hstreams⟩ := ih.1 rfl
    refine ⟨fun _ => ?_, nofun⟩
    rcases hdrop : rows.drop n with _ | ⟨row', rest⟩ <;> rw [hdrop] at hstreams
    · cases ending with
      | none =>
        obtain ⟨_, _, hend⟩ := hstreams
        rw [hrow] at hend
        cases hend
      | some fault =>
        obtain ⟨_, hfault⟩ := hstreams
        rw [hrow] at hfault
        cases hfault
    · obtain ⟨_, _, hrow', hrest⟩ := hstreams
      rw [hrow] at hrow'
      cases hrow'
      have hlength := congrArg List.length hdrop
      rw [List.length_drop, List.length_cons] at hlength
      rw [← List.tail_drop, hdrop]
      exact ⟨by omega, hrest⟩
  | @ended n feed₁ feed₂ w₁ w₂ _ hend ih =>
    obtain ⟨hle, hstreams⟩ := ih.1 rfl
    refine ⟨nofun, fun _ => ?_⟩
    rcases hdrop : rows.drop n with _ | ⟨row', rest⟩ <;> rw [hdrop] at hstreams
    · have hall := List.drop_eq_nil_iff.1 hdrop
      omega
    · obtain ⟨_, _, hrow, -⟩ := hstreams
      rw [hend] at hrow
      cases hrow
  | @failed n fault feed₁ w₁ w₂ _ hfault ih =>
    obtain ⟨hle, hstreams⟩ := ih.1 rfl
    refine ⟨nofun, fun _ => ?_⟩
    rcases hdrop : rows.drop n with _ | ⟨row', rest⟩ <;> rw [hdrop] at hstreams
    · have hall := List.drop_eq_nil_iff.1 hdrop
      omega
    · obtain ⟨_, _, hrow, -⟩ := hstreams
      rw [hfault] at hrow
      cases hrow

/-- Databases that do the same stream the same rows. -/
theorem Streams.alike {τ : Type} {r : σ → τ → Prop} {c : Backend τ} (hc : b.Alike r c)
    (h : b.Streams ending rows feed w) {v : World τ} (hv : w.Alike r v) : c.Streams ending rows feed v := by
  induction rows generalizing feed w v with
  | nil =>
    obtain ⟨hresult, -⟩ := hc.nextRow feed hv
    cases ending with
    | none =>
      obtain ⟨feed', w', hend⟩ := h
      rw [hend] at hresult
      exact ⟨feed', _, Prod.ext hresult.symm rfl⟩
    | some fault =>
      obtain ⟨w', hfault⟩ := h
      rw [hfault] at hresult
      exact ⟨_, Prod.ext hresult.symm rfl⟩
  | cons row rows ih =>
    obtain ⟨feed', w', hrow, hrest⟩ := h
    obtain ⟨hresult, hworlds⟩ := hc.nextRow feed hv
    rw [hrow] at hresult hworlds
    exact ⟨feed', _, Prod.ext hresult.symm rfl, ih hrest hworlds⟩

theorem Streams.watched {w : World (Watched σ)} (h : b.Streams ending rows feed w.unwatched) :
    b.watched.Streams ending rows feed w :=
  h.alike b.alike_watched ⟨rfl, rfl⟩

theorem Streams.asked_le (h : b.Streams ending rows feed w) (hasked : b.Asked feed w n spent feed' w') :
    n ≤ rows.length + 1 := by
  obtain ⟨hgoing, hspent⟩ := h.asked hasked
  cases spent with
  | false => exact Nat.le_succ_of_le (hgoing rfl).1
  | true => exact (hspent rfl).le

end Backend

namespace Cursor

variable {selected : List Row} {trouble : Option Failure} {c : Cursor} {start : Feed} {w₀ : World σ}

/-- What a number of readings gives: what is still to come, and nothing from then on. -/
def readings (k : Nat) (selected : List Row) (trouble : Option Failure) : List (Outcome Failure (Option Row)) :=
  (yields selected trouble ++ List.replicate k (Outcome.done none)).take k

theorem Keeps.trans {c' c'' : Cursor} {n' n'' : Nat} (h : c.Keeps c' n n') (h' : c'.Keeps c'' n' n'') :
    c.Keeps c'' n n'' := by
  intro m hm
  obtain ⟨m', hle, hm'⟩ := h m hm
  obtain ⟨m'', hle', hm''⟩ := h' m' hm'
  exact ⟨m'', Nat.le_trans hle' hle, hm''⟩

theorem tail_yields : yields selected.tail (if selected = [] then none else trouble) =
    (yields selected trouble).tail := by
  cases selected with
  | nil => cases trouble <;> rfl
  | cons row rest =>
    rw [if_neg (List.cons_ne_nil row rest)]
    rfl

/-- The first of some results that go on with the same one. -/
theorem take_succ_append_replicate {α : Type} (results : List α) (last : α) (k : Nat) :
    (results ++ List.replicate (k + 1) last).take (k + 1) =
      results.headD last :: (results.tail ++ List.replicate k last).take k := by
  cases results with
  | nil => simp [List.replicate_succ]
  | cons result rest =>
    have hmin : min (k - rest.length) (k + 1) = min (k - rest.length) k := by omega
    simp [List.take_append, List.take_replicate, hmin]

theorem readings_succ (k : Nat) : readings (k + 1) selected trouble =
    (yields selected trouble).headD (.done none) ::
      readings k selected.tail (if selected = [] then none else trouble) := by
  unfold readings
  rw [take_succ_append_replicate, tail_yields]

/-- Any number of readings gives what is still to come, and then nothing. -/
theorem history_nextRow (k : Nat) (h : c.Rests b ending w selected trouble)
    (hasked : b.Asked start w₀ n c.finished c.feed w) :
    ∃ c' w' n', history (fun _ : Unit => nextRow b) (List.replicate k ()) (c, w) =
        (readings k selected trouble, c', w') ∧
      b.Asked start w₀ n' c'.finished c'.feed w' ∧ c.Keeps c' n n' := by
  induction k generalizing c w n selected trouble with
  | zero => exact ⟨c, w, n, rfl, hasked, .refl⟩
  | succ k ih =>
    obtain ⟨c₁, w₁, n₁, hread, hrests, hasked₁, hkeeps₁⟩ := nextRow_rests h hasked
    obtain ⟨c', w', n', hreads, hasked', hkeeps'⟩ := ih hrests hasked₁
    refine ⟨c', w', n', ?_, hasked', hkeeps₁.trans hkeeps'⟩
    rw [List.replicate_succ, Flow.history, hread]
    dsimp only
    rw [hreads, readings_succ]

/-- Reading more rows than there are gives them all, or the failure behind them. -/
theorem readRows_rests {count : Nat} (hcount : selected.length < count) (h : c.Rests b ending w selected trouble)
    (hasked : b.Asked start w₀ n c.finished c.feed w) :
    ∃ c' w' n', readRows b count (c, w) = (endingWith trouble selected, c', w') ∧
      b.Asked start w₀ n' c'.finished c'.feed w' ∧ c.Keeps c' n n' := by
  induction count generalizing c w n selected trouble with
  | zero => exact absurd hcount (Nat.not_lt_zero _)
  | succ count ih =>
    obtain ⟨c₁, w₁, n₁, hread, hrests, hasked₁, hkeeps₁⟩ := nextRow_rests h hasked
    cases selected with
    | nil =>
      refine ⟨c₁, w₁, n₁, ?_, hasked₁, hkeeps₁⟩
      show (nextRow b >>= _) (c, w) = _
      cases trouble with
      | none => exact bind_done hread
      | some e => exact bind_failed hread
    | cons row rest =>
      rw [if_neg (List.cons_ne_nil row rest)] at hrests
      obtain ⟨c', w', n', hreads, hasked', hkeeps'⟩ := ih (Nat.lt_of_succ_lt_succ hcount) hrests hasked₁
      refine ⟨c', w', n', ?_, hasked', hkeeps₁.trans hkeeps'⟩
      show (nextRow b >>= _) (c, w) = _
      rw [bind_done hread]
      show (readRows b count >>= _) (c₁, w₁) = _
      cases trouble with
      | none => exact bind_done hreads
      | some e => exact bind_failed hreads

theorem readAll_rests (h : c.Rests b ending w selected trouble)
    (hasked : b.Asked start w₀ n c.finished c.feed w) :
    ∃ c' w' n', readAll b (c, w) = (endingWith trouble ⟨c.columns, selected⟩, c', w') ∧
      b.Asked start w₀ n' c'.finished c'.feed w' ∧ c.Keeps c' n n' := by
  obtain ⟨c', w', n', hreads, hasked', hkeeps'⟩ := readRows_rests (Nat.lt_succ_of_le h.length_le) h hasked
  refine ⟨c', w', n', ?_, hasked', hkeeps'⟩
  unfold readAll
  rw [cursor, read_bind]
  dsimp only
  cases trouble with
  | none => exact bind_done hreads
  | some e => exact bind_failed hreads

end Cursor

/-! ### What a watched database is asked for -/

section
variable {handle : Nat} {w₁ w₂ : World (Watched σ)}

/-- Calls that ask for a number of rows of one statement, and for nothing else. -/
def Fetches (handle n : Nat) (calls : List Watch) : Prop :=
  calls.length = n ∧ ∀ x ∈ calls, x.request = .fetch handle

/-- Reading a row through a handle asks for one. -/
theorem Backend.ends_nextRow_seen (hhandle : feed.handle = some handle) :
    ends (b.watched.nextRow feed)
      (fun result w => result.2.handle = some handle ∧
        ∃ x, w.link.seen = w₁.link.seen ++ [x] ∧ x.request = .fetch handle)
      (fun _ w => ∃ x, w.link.seen = w₁.link.seen ++ [x] ∧ x.request = .fetch handle)
      (fun _ => True) w₁ := by
  obtain ⟨_, columns, rows, ending⟩ := feed
  obtain rfl : _ = some handle := hhandle
  show ends (Watched.watch (.fetch handle) (b.fetch handle) >>= _) _ _ _ w₁
  rw [ends_bind]
  refine ends_watch _ _ (fun _ w hw => ?_) (fun _ w hw => ⟨_, hw, rfl⟩) fun _ _ => trivial
  rcases rows with _ | ⟨row, rows⟩
  · cases ending with
    | none => exact ⟨rfl, _, hw, rfl⟩
    | some fault => exact ⟨_, hw, rfl⟩
  · exact ⟨rfl, _, hw, rfl⟩

theorem Since.fetches_concat {start : List Watch} (h : Since (Fetches handle n) start w₁) {x : Watch}
    (hw : w₂.link.seen = w₁.link.seen ++ [x]) (hx : x.request = .fetch handle) :
    Since (Fetches handle (n + 1)) start w₂ := by
  refine h.concat hw fun calls hcalls => ⟨?_, asked_concat (R := (· = .fetch handle)) hcalls.2 hx⟩
  rw [List.length_append, hcalls.1]
  rfl

/-- As many rows as a feed was asked for were fetched through its handle. -/
theorem Backend.Asked.seen {w w' : World (Watched σ)} (h : b.watched.Asked feed w n spent feed' w')
    (hhandle : feed.handle = some handle) :
    feed'.handle = some handle ∧ Since (Fetches handle n) w.link.seen w' := by
  induction h with
  | start => exact ⟨hhandle, Since.refl ⟨rfl, List.forall_mem_nil _⟩⟩
  | row _ hrow ih =>
    obtain ⟨hleft, hseen⟩ := ih
    obtain ⟨hleft', x, hx, hrequest⟩ := (ends_of_done hrow).1 (ends_nextRow_seen hleft)
    exact ⟨hleft', hseen.fetches_concat hx hrequest⟩
  | ended _ hend ih =>
    obtain ⟨hleft, hseen⟩ := ih
    obtain ⟨hleft', x, hx, hrequest⟩ := (ends_of_done hend).1 (ends_nextRow_seen hleft)
    exact ⟨hleft', hseen.fetches_concat hx hrequest⟩
  | failed _ hfault ih =>
    obtain ⟨hleft, hseen⟩ := ih
    obtain ⟨x, hx, hrequest⟩ := (ends_of_failed hfault).1 (ends_nextRow_seen hleft)
    exact ⟨hleft, hseen.fetches_concat hx hrequest⟩

end

namespace Cursor

/-- A cursor has asked its feed for `n` rows: none of them again, none behind the end or the failure of the feed,
and none behind its window. -/
structure Asking (b : Backend σ) (feed : Feed) (length : Nat) (skip : UInt64) (limit : Option UInt64)
    (w : World (Watched σ)) (n : Nat) (c' : Cursor) (w' : World (Watched σ)) : Prop where
  asked : b.watched.Asked feed w n c'.finished c'.feed w'
  upToEnd : n ≤ length + 1
  inWindow : ∀ l, limit = some l → n ≤ skip.toNat + l.toNat
  idle : limit = some 0 → n = 0
  seen : ∀ handle, feed.handle = some handle → Since (Fetches handle n) w.link.seen w'

theorem asking_ofFeed {w w' : World (Watched σ)} (h : b.Streams ending rows feed w.unwatched) {vendor : Vendor}
    {sql : String} {skip : UInt64} {limit : Option UInt64} {c' : Cursor}
    (hasked : b.watched.Asked feed w n c'.finished c'.feed w')
    (hkeeps : (ofFeed feed vendor sql skip limit).Keeps c' 0 n) :
    Asking b feed rows.length skip limit w n c' w' where
  asked := hasked
  upToEnd := h.watched.asked_le hasked
  inWindow l hl := by
    obtain ⟨m, hm, -⟩ := hkeeps (skip.toNat + l.toNat) ⟨l, hl, .inr (.inr (Nat.le_refl _))⟩
    omega
  idle hl := by
    obtain ⟨m, hm, -⟩ := hkeeps 0 ⟨0, hl, .inr (.inl rfl)⟩
    omega
  seen handle hhandle := (hasked.seen hhandle).2

/-- The readings of a cursor, and all of its rows at once, over a feed that streams rows: they give the rows behind
those to skip, up to the limit, and the failure of the feed if the window reaches it, and ask for no row too many. -/
theorem window_yielded (b : Backend σ) {w : World (Watched σ)} (h : b.Streams ending rows feed w.unwatched)
    (vendor : Vendor) (sql : String) (skip : UInt64) (limit : Option UInt64) :
    (∀ k, ∃ n c' w',
      history (fun _ : Unit => nextRow b.watched) (List.replicate k ()) (ofFeed feed vendor sql skip limit, w) =
        (readings k (firstRows limit (rows.drop skip.toNat))
          (if Reaches skip limit rows then ending.map (vendor.failure sql none) else none), c', w') ∧
      Asking b feed rows.length skip limit w n c' w') ∧
    ∃ n c' w',
      readAll b.watched (ofFeed feed vendor sql skip limit, w) =
        (endingWith (if Reaches skip limit rows then ending.map (vendor.failure sql none) else none)
          ⟨.ofNames feed.columns, firstRows limit (rows.drop skip.toNat)⟩, c', w') ∧
      Asking b feed rows.length skip limit w n c' w' := by
  have hrests := Rests.going (c := ofFeed feed vendor sql skip limit) rfl h.watched
  constructor
  · intro k
    obtain ⟨c', w', n, hreads, hasked, hkeeps⟩ := history_nextRow k hrests .start
    exact ⟨n, c', w', hreads, asking_ofFeed h hasked hkeeps⟩
  · obtain ⟨c', w', n, hreads, hasked, hkeeps⟩ := readAll_rests hrests .start
    exact ⟨n, c', w', hreads, asking_ofFeed h hasked hkeeps⟩

/-- Three rows and then a timeout. -/
def brokenFeed : Feed :=
  ⟨some 0, ["n"], [[.integer 1], [.integer 2], [.integer 3]], some ⟨some "HYT00", 0, "query timeout"⟩⟩

/-- A database with one open statement of which nothing was seen. -/
def openWorld : World (Watched Script) :=
  ⟨⟨{ Script.empty with statements := [(0, .ofBody "SELECT n FROM t")] }, []⟩, .epoch⟩

theorem window_yielded_of_timeout :
    ∃ n c' w', history (fun _ : Unit => nextRow Script.streaming.watched) (List.replicate 5 ())
        (ofFeed brokenFeed .mssql "SELECT n FROM t" 1 (some 4), openWorld) =
      ([.done (some [.integer 2]), .done (some [.integer 3]),
        .failed (.timeout ⟨"SELECT n FROM t", none, some ⟨some "HYT00", 0, "query timeout"⟩⟩),
        .done none, .done none], c', w') ∧
      n ≤ 4 ∧ Since (Fetches 0 n) [] w' := by
  have hstreams : Script.streaming.Streams brokenFeed.ending brokenFeed.rows brokenFeed openWorld.unwatched :=
    Backend.streams_streaming rfl
  obtain ⟨hreads, -⟩ := window_yielded Script.streaming hstreams .mssql "SELECT n FROM t" 1 (some 4)
  obtain ⟨n, c', w', hread, hasking⟩ := hreads 5
  exact ⟨n, c', w', hread, hasking.upToEnd, hasking.seen 0 rfl⟩

end Cursor

end NamedSql
