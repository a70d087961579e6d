import NamedSql.Proofs.Positions
import NamedSql.Proofs.Yielding

/-!
# Ranges of rows

A range has the rows of the result from its start position on, in their order, and no more of them than it was asked
for, whatever the database makes of the limit that it is told (`Statement.ranges_bounded`). But zero stands for no limit
here as it does for a page: a range of no rows is one of all rows from there on (`Statement.range_of_none`).
-/

namespace NamedSql

open NamedSql.Flow NamedSql.Cursor

variable {σ : Type} {b : Backend σ} {ending : Option NativeFault} {rows : List Row} {feed : Feed} {w : World σ}
  {handle : Nat}

/-- A statement that is ready to be executed would produce these rows if they were not limited, and some of the first
of them under a limit. Reading them may fail, too. -/
def Backend.Produces (b : Backend σ) (handle : Nat) (rows : List Row) (w : World σ) : Prop :=
  ∀ limit reply w', b.execute handle ⟨b.limitRows handle limit w.link, w.now⟩ = (.done reply, w') →
    ∃ produced ending, b.Streams ending produced reply.feed w' ∧ produced <+: rows ∧ (limit = none → produced = rows)

theorem Backend.Offers.produces (h : b.Offers handle rows w) : b.Produces handle rows w := by
  intro limit reply w' hexecuted
  refine ⟨firstRows limit rows, none, streams_none_iff.2 (h limit reply w' hexecuted), ?_, fun hnone => ?_⟩
  · cases limit with
    | none => exact List.prefix_refl _
    | some n => exact List.take_prefix _ _
  · rw [hnone]
    rfl

/-- All rows of a cursor, if they are read without a failure. -/
theorem Cursor.rows_readAll {vendor : Vendor} {sql : String} {skip : UInt64} {limit : Option UInt64} {t : Table}
    {s : Cursor × World σ} (h : b.Streams ending rows feed w)
    (hread : readAll b (ofFeed feed vendor sql skip limit, w) = (.done t, s)) :
    t.rows = firstRows limit (rows.drop skip.toNat) := by
  have hrests := Rests.going (c := ofFeed feed vendor sql skip limit) rfl h
  obtain ⟨c', w', n, hreads, -, -⟩ := readAll_rests hrests .start
  rw [hreads] at hread
  cases htrouble : (ofFeed feed vendor sql skip limit).met ending rows with
  | none =>
    rw [htrouble] at hread
    cases hread
    rfl
  | some e =>
    rw [htrouble] at hread
    cases hread

namespace Statement

variable {bindings : Bindings} {filled : Filled} {window : Window} {d d' : Desk σ} {R : List Row} {t : Table}
  {start count : UInt64}

theorem readOut_done {α : Type} {c : Cursor} {m : Cursor.Reading σ α} {a : α} (h : readOut c m d = (.done a, d')) :
    ∃ s, m (c, d.line.world) = (.done a, s) := by
  unfold readOut Cursor.use at h
  rcases hm : m (c, d.line.world) with ⟨r, s⟩
  rw [hm] at h
  cases h
  exact ⟨s, rfl⟩

/-- What is fetched through a window is selected from what the database has produced. -/
theorem fetch_done (hresolve : resolve d = (.done (bindings, filled), d))
    (hproduces : ∀ handle w, Poised b d handle w → b.Produces handle R w)
    (h : fetch b bindings filled window d = (.done t, d')) :
    ∃ produced, produced <+: R ∧ (window.maxRows = none → produced = R) ∧
      t.rows = firstRows window.limit (produced.drop window.skip.toNat) := by
  obtain ⟨c, d₁, hopen, hrest⟩ := bind_eq_done.1 h
  obtain ⟨table, d₂, hread, hrest⟩ := bind_eq_done.1 hrest
  obtain ⟨_, d₃, -, hreturned⟩ := bind_eq_done.1 hrest
  cases hreturned
  obtain ⟨s, d₀, hsession, hrest⟩ := bind_eq_done.1 hopen
  cases hsession
  obtain ⟨⟨sql, reply⟩, d₄, hrun, hreturned⟩ := bind_eq_done.1 hrest
  obtain ⟨handle, w, hpoised, hexecuted⟩ := run_done hresolve hrun
  obtain ⟨produced, ending, hstreams, hfirst, hall⟩ := hproduces handle w hpoised _ _ _ hexecuted
  cases hreturned
  obtain ⟨s, hread⟩ := readOut_done hread
  refine ⟨produced, hfirst, hall, ?_⟩
  cases reply with
  | rows feed => exact rows_readAll hstreams hread
  | count n => exact rows_readAll hstreams hread

/-- A statement without a page and without a memo fetches a range through the window of a page. -/
theorem retrieveRange_done (hpage : d.statement.page = none) (hmemo : d.statement.memo = none)
    (h : retrieveRange b start count d = (.done t, d')) :
    ∃ bindings filled p, resolve d = (.done (bindings, filled), d) ∧ Page.ofStart start (some count) = .ok p ∧
      fetch b bindings filled (.ofClient p) d = (.done t, d') := by
  suffices hends : ends (retrieveRange b start count)
      (fun t d' => ∃ bindings filled p, resolve d = (.done (bindings, filled), d) ∧
        Page.ofStart start (some count) = .ok p ∧ fetch b bindings filled (.ofClient p) d = (.done t, d'))
      (fun _ _ => True) (fun _ => True) d from (ends_of_done h).1 hends
  unfold retrieveRange
  rw [ends_bind, ends_checkOpen]
  split
  · trivial
  rw [ends_bind, statement, ends_read, ends_bind, ends_require, hpage]
  show ends (Flow.ofExcept _ >>= _) _ _ _ d
  rw [ends_bind, ends_ofExcept]
  split
  · next p hp =>
    unfold fetchMemo
    rw [ends_bind, statement, ends_read, ends_bind]
    refine ends_mono (ends_self _ _) (fun resolved d₁ hresolve => ?_) (fun _ _ _ => trivial) fun _ _ => trivial
    obtain rfl := resolve_left hresolve
    rw [ends_bind, ends_read, hmemo]
    refine ends_mono (ends_self _ _) (fun t d' hfetch => ?_) (fun _ _ _ => trivial) fun _ _ => trivial
    exact ⟨resolved.1, resolved.2, p, hresolve, hp, hfetch⟩
  · trivial

/-- A range of a statement without a page and without a memo, on a database that would produce the rows `R` for what the
statement executes now. It has the rows from the start position on, as many of them as it was asked for at most, or all
of them if that is zero. -/
theorem ranges_bounded (b : Backend σ) (hpage : d.statement.page = none) (hmemo : d.statement.memo = none)
    (hproduces : ∀ handle w, Poised b d handle w → b.Produces handle R w)
    (h : retrieveRange b start count d = (.done t, d')) :
    t.rows <+: R.drop (start.toNat - 1) ∧
      if count = 0 then t.rows = R.drop (start.toNat - 1) else t.rows.length ≤ count.toNat := by
  obtain ⟨bindings, filled, p, hresolve, hp, hfetch⟩ := retrieveRange_done hpage hmemo h
  obtain ⟨produced, hfirst, hall, hrows⟩ := fetch_done hresolve hproduces hfetch
  obtain ⟨hstart, rfl⟩ := Page.ofStart_eq_ok_iff.1 hp
  have hskip : (Window.ofClient ⟨start, Page.normalLimit (some count)⟩).skip.toNat = start.toNat - 1 :=
    Page.toNat_offset hstart
  rw [hskip] at hrows
  by_cases hcount : count = 0
  · subst hcount
    obtain rfl := hall rfl
    rw [if_pos rfl, hrows]
    exact ⟨List.prefix_refl _, rfl⟩
  · have hlimit : (Window.ofClient ⟨start, Page.normalLimit (some count)⟩).limit = some count := by
      simpa [Window.ofClient, Page.normalLimit] using UInt64.pos_iff_ne_zero.2 hcount
    rw [hlimit] at hrows
    rw [if_neg hcount, hrows]
    exact ⟨(List.take_prefix _ _).trans (hfirst.drop _), List.length_take_le _ _⟩

theorem ranges_bounded_of_three :
    ∃ t d', retrieveRange Script.streaming 2 1 (listedDesk none) = (.done t, d') ∧
      t.rows <+: [[.integer 2], [.integer 3]] ∧ t.rows.length ≤ 1 := by
  have hproduces (handle : Nat) (w : World Script) (h : Poised Script.streaming (listedDesk none) handle w) :
      Script.streaming.Produces handle listedRows w :=
    (offers_listedDesk none handle w h).produces
  obtain ⟨t, d', h⟩ : ∃ t d', retrieveRange Script.streaming 2 1 (listedDesk none) = (.done t, d') := ⟨_, _, rfl⟩
  obtain ⟨hrows, hlength⟩ := ranges_bounded Script.streaming rfl rfl hproduces h
  rw [if_neg (by decide)] at hlength
  exact ⟨t, d', h, hrows, hlength⟩

/-- A range that is asked for no rows gets all rows from the start position on. -/
theorem Succeeds.range_zero (h : Succeeds b .retrieve (.ofClient ⟨start, none⟩) d) (hstart : start ≠ 0)
    (hpage : d.statement.page = none) (hmemo : d.statement.memo = none) (hR : R.length < twoTo 64)
    (hoffers : ∀ handle w, Poised b d handle w → b.Offers handle R w) :
    ∃ t d', retrieveRange b start 0 d = (.done t, d') ∧ t.rows = R.drop (start.toNat - 1) := by
  obtain ⟨bindings, filled, hopened⟩ := h.opened hoffers
  have hoffset : (Page.offset ⟨start, none⟩).toNat = start.toNat - 1 := Page.toNat_offset hstart
  rw [Window.select_ofClient hR, hoffset] at hopened
  exact returns_iff.1 (hopened.retrieveRange (Page.ofStart_eq_ok_iff.2 ⟨hstart, rfl⟩) hpage hmemo)

/-- A range that is asked for no rows has more than it was asked for. -/
theorem range_of_none :
    (listedDesk none).statement.closed = false ∧ (listedDesk none).statement.page = none ∧
      (listedDesk none).statement.memo = none ∧
      ∃ t d', retrieveRange Script.streaming 1 0 (listedDesk none) = (.done t, d') ∧
        t.rows = listedRows ∧ ¬ t.rows.length ≤ (0 : UInt64).toNat := by
  have hsucceeds : Succeeds Script.streaming .retrieve (.ofClient ⟨1, none⟩) (listedDesk none) := ⟨_, _, rfl⟩
  have hlength : listedRows.length < twoTo 64 := by decide
  obtain ⟨t, d', h, hrows⟩ := hsucceeds.range_zero (by decide) rfl rfl hlength (offers_listedDesk none)
  refine ⟨rfl, rfl, rfl, t, d', h, hrows, ?_⟩
  rw [hrows]
  decide

end Statement

end NamedSql
