import NamedSql.Backend.Script
import NamedSql.Proofs.Lawful

/-!
# Rows as they are read

A database streams rows when a feed that is read gives them in turn and then its end, or a failure; it delivers
them if there is no failure. A cursor over such a feed yields the rows of its window, then the failure if the
window reaches that far, and nothing from then on. `Cursor.Rests` says what is still to come, and each reading takes
the first of it (`Cursor.nextRow_rests`). Beside it stands what the feed was asked for: `Backend.Asked` counts the
rows, and no feed is asked behind its end or its failure. `Cursor.Gives` is what is still to come without failures.
-/

namespace NamedSql

open NamedSql.Flow

variable {σ : Type} {b : Backend σ} {ending : Option NativeFault} {rows : List Row} {feed feed' : Feed}
  {w w' : World σ} {n : Nat}

/-- The first rows up to a number, if there is one. -/
def firstRows (limit : Option UInt64) (rows : List Row) : List Row :=
  match limit with
  | none => rows
  | some n => rows.take n.toNat

/-- Reading the feed gives exactly these rows. -/
def Backend.Delivers (b : Backend σ) : List Row → Feed → World σ → Prop
  | [], feed, w => ∃ feed' w', b.nextRow feed w = (.done (none, feed'), w')
  | row :: rows, feed, w => ∃ feed' w', b.nextRow feed w = (.done (some row, feed'), w') ∧ b.Delivers rows feed' w'

/-- Reading the feed gives these rows, and then its end or a failure. -/
def Backend.Streams (b : Backend σ) (ending : Option NativeFault) : List Row → Feed → World σ → Prop
  | [], feed, w =>
    match ending with
    | none => ∃ feed' w', b.nextRow feed w = (.done (none, feed'), w')
    | some fault => ∃ w', b.nextRow feed w = (.failed fault, w')
  | row :: rows, feed, w =>
    ∃ feed' w', b.nextRow feed w = (.done (some row, feed'), w') ∧ b.Streams ending rows feed' w'

/-- What becomes of a feed that is asked for `n` rows, and whether it gave its end or a failure. It is not asked
again then. -/
inductive Backend.Asked (b : Backend σ) (feed : Feed) (w : World σ) : Nat → Bool → Feed → World σ → Prop where
  | start : Asked b feed w 0 false feed w
  | row {n : Nat} {row : Row} {feed₁ feed₂ : Feed} {w₁ w₂ : World σ} (h : Asked b feed w n false feed₁ w₁)
    (hrow : b.nextRow feed₁ w₁ = (.done (some row, feed₂), w₂)) : Asked b feed w (n + 1) false feed₂ w₂
  | ended {n : Nat} {feed₁ feed₂ : Feed} {w₁ w₂ : World σ} (h : Asked b feed w n false feed₁ w₁)
    (hend : b.nextRow feed₁ w₁ = (.done (none, feed₂), w₂)) : Asked b feed w (n + 1) true feed₂ w₂
  | failed {n : Nat} {fault : NativeFault} {feed₁ : Feed} {w₁ w₂ : World σ} (h : Asked b feed w n false feed₁ w₁)
    (hfault : b.nextRow feed₁ w₁ = (.failed fault, w₂)) : Asked b feed w (n + 1) true feed₁ w₂

namespace Backend

/-- What is read comes from the rows that are in the feed, and the end is found when there are none. -/
theorem ends_nextRow_rows : ends (b.nextRow feed)
    (fun result _ => feed.rows = result.1.toList ++ result.2.rows ∧ (result.1 = none → feed.rows = []))
    (fun _ _ => True) (fun _ => True) w := by
  have hfetch (handle : Nat) : ends (b.fetch handle) (fun _ _ => True) (fun _ _ => True) (fun _ => True) w :=
    ends_of_forall (fun _ _ => trivial) (fun _ _ => trivial) fun _ => trivial
  obtain ⟨_ | handle, columns, _ | ⟨row, rows⟩, _ | fault⟩ := feed
  · exact ⟨rfl, fun _ => rfl⟩
  · exact trivial
  · exact ⟨rfl, nofun⟩
  · exact ⟨rfl, nofun⟩
  · exact (hfetch handle).bind fun _ _ _ => ⟨rfl, fun _ => rfl⟩
  · exact (hfetch handle).bind fun _ _ _ => trivial
  · exact (hfetch handle).bind fun _ _ _ => ⟨rfl, nofun⟩
  · exact (hfetch handle).bind fun _ _ _ => ⟨rfl, nofun⟩

theorem Streams.length_le (h : b.Streams ending rows feed w) : rows.length ≤ feed.rows.length := by
  induction rows generalizing feed w with
  | nil => exact Nat.zero_le _
  | cons row rows ih =>
    obtain ⟨feed', w', hrow, hrest⟩ := h
    have hrows := ((ends_of_done hrow).1 (ends_nextRow_rows (b := b))).1
    have hle := ih hrest
    rw [hrows]
    simpa using hle

theorem streams_none_iff : b.Streams none rows feed w ↔ b.Delivers rows feed w := by
  induction rows generalizing feed w with
  | nil => exact Iff.rfl
  | cons row rows ih => exact exists₂_congr fun feed' w' => and_congr_right fun _ => ih

/-- An open statement of a scripted database streams every sequence of rows, with every ending. -/
theorem streams_streaming {handle : Nat} {columns : List String} {w : World Script}
    (hopen : w.link.statements.has handle = true) :
    Script.streaming.Streams ending rows ⟨some handle, columns, rows, ending⟩ w := by
  have hfetch : Script.streaming.fetch handle w = (.done (), w) := by
    show Flow.require (w.link.statements.has handle) _ w = _
    rw [hopen]
    rfl
  induction rows with
  | nil =>
    cases ending with
    | none => exact ⟨_, w, bind_done hfetch⟩
    | some fault => exact ⟨w, bind_done hfetch⟩
  | cons row rows ih => exact ⟨_, w, bind_done hfetch, ih⟩

end Backend

/-! ### Limits -/

theorem limit_pos {l : UInt64} (h : l ≠ 0) : 0 < l.toNat :=
  Nat.pos_of_ne_zero fun hzero => h (UInt64.toNat_inj.1 hzero)

theorem limit_pred {l : UInt64} (h : l ≠ 0) : (l - 1).toNat = l.toNat - 1 :=
  UInt64.toNat_sub_of_le l 1 (UInt64.le_iff_toNat_le.2 (limit_pos h))

theorem length_firstRows_le (limit : Option UInt64) (rows : List Row) :
    (firstRows limit rows).length ≤ rows.length := by
  cases limit with
  | none => exact Nat.le_refl _
  | some n =>
    unfold firstRows
    simp

@[simp]
theorem firstRows_nil (limit : Option UInt64) : firstRows limit [] = [] := by
  cases limit <;> simp [firstRows]

theorem firstRows_cons {limit : Option UInt64} (h : limit ≠ some 0) (row : Row) (rows : List Row) :
    firstRows limit (row :: rows) = row :: firstRows (limit.map (· - 1)) rows := by
  cases limit with
  | none => rfl
  | some n =>
    have hne : n ≠ 0 := fun hzero => h (congrArg some hzero)
    have hpos := limit_pos hne
    show (row :: rows).take n.toNat = row :: rows.take (n - 1).toNat
    rw [limit_pred hne, ← List.take_succ_cons, Nat.sub_add_cancel hpos]

namespace Cursor

variable {selected : List Row} {trouble : Option Failure} {c : Cursor}

/-! ### Rows, ends and failures -/

theorem readRow_of_done {row : Option Row} (h : b.nextRow c.feed w = (.done (row, feed), w')) :
    readRow b (c, w) = (.done row, { c with feed, finished := row.isNone }, w') := by
  have hattempt : (Flow.within worldPart (b.nextRow c.feed).attempt : Reading σ (Except NativeFault _)) (c, w) =
      (.done (.ok (row, feed)), c, w') := by
    unfold Flow.within Flow.attempt worldPart
    dsimp only
    rw [h]
  show (Flow.within worldPart (b.nextRow c.feed).attempt >>= _) (c, w) = _
  rw [bind_done hattempt]
  rfl

theorem readRow_of_failed {fault : NativeFault} (h : b.nextRow c.feed w = (.failed fault, w')) :
    readRow b (c, w) = (.failed (c.vendor.failure c.sql none fault), { c with finished := true }, w') := by
  have hattempt : (Flow.within worldPart (b.nextRow c.feed).attempt : Reading σ (Except NativeFault _)) (c, w) =
      (.done (.error fault), c, w') := by
    unfold Flow.within Flow.attempt worldPart
    dsimp only
    rw [h]
  show (Flow.within worldPart (b.nextRow c.feed).attempt >>= _) (c, w) = _
  rw [bind_done hattempt]
  rfl

/-- How work ends that gives a value, unless there is trouble. -/
def endingWith {α : Type} (trouble : Option Failure) (value : α) : Outcome Failure α :=
  match trouble with
  | none => .done value
  | some e => .failed e

/-- How work ends that meets the end of a feed or its failure. -/
def atEnd {α : Type} (c : Cursor) (ending : Option NativeFault) (value : α) : Outcome Failure α :=
  endingWith (ending.map (c.vendor.failure c.sql none)) value

/-- A cursor that has skipped its rows. -/
def skipped (c : Cursor) (feed : Feed) : Cursor :=
  { c with feed := feed, skip := 0 }

/-- A cursor that has skipped its rows and given out one more. -/
def advanced (c : Cursor) (feed : Feed) : Cursor :=
  { c.skipped feed with remaining := c.remaining.map (· - 1), finished := false }

/-- A cursor that is finished and has the limit of another one. -/
structure FinishedLike (c' c : Cursor) : Prop where
  finished : c'.finished = true
  remaining : c'.remaining = c.remaining

section
variable {start : Feed} {w₀ : World σ}

theorem readRow_end (h : b.Streams ending [] c.feed w) (hasked : b.Asked start w₀ n false c.feed w) :
    ∃ c' w', readRow b (c, w) = (c.atEnd ending none, c', w') ∧ c'.FinishedLike c ∧
      b.Asked start w₀ (n + 1) true c'.feed w' := by
  cases ending with
  | none =>
    obtain ⟨feed', w', hend⟩ := h
    exact ⟨_, w', readRow_of_done hend, ⟨rfl, rfl⟩, hasked.ended hend⟩
  | some fault =>
    obtain ⟨w', hfault⟩ := h
    exact ⟨_, w', readRow_of_failed hfault, ⟨rfl, rfl⟩, hasked.failed hfault⟩

/-- Skipping as many rows as there are to skip. -/
theorem skipRows_found (hc : c.finished = false) (h : b.Streams ending rows c.feed w)
    (hasked : b.Asked start w₀ n false c.feed w) {count : Nat} (hcount : c.skip.toNat = count)
    (hle : count ≤ rows.length) :
    ∃ feed' w', skipRows b count (c, w) = (.done true, c.skipped feed', w') ∧
      b.Streams ending (rows.drop count) feed' w' ∧ b.Asked start w₀ (n + count) false feed' w' := by
  induction count generalizing c w n rows with
  | zero =>
    have hskip : c.skip = 0 := UInt64.toNat_inj.1 hcount
    refine ⟨c.feed, w, ?_, h, hasked⟩
    unfold skipped
    rw [← hskip]
    rfl
  | succ count ih =>
    obtain ⟨row, rows, rfl⟩ := List.exists_cons_of_length_pos (Nat.zero_lt_of_lt hle)
    obtain ⟨feed', w', hrow, hrest⟩ := h
    have hne : c.skip ≠ 0 := by
      intro hzero
      rw [hzero] at hcount
      cases hcount
    have hskip : (c.skip - 1).toNat = count := by
      rw [limit_pred hne, hcount]
      rfl
    obtain ⟨feed'', w'', hskips, hstreams, hasked'⟩ :=
      ih (c := { c with feed := feed', finished := false, skip := c.skip - 1 }) rfl hrest (hasked.row hrow) hskip
        (Nat.le_of_succ_le_succ hle)
    refine ⟨feed'', w'', ?_, hstreams, ?_⟩
    · show (readRow b >>= _) (c, w) = _
      rw [bind_done (readRow_of_done hrow)]
      refine hskips.trans ?_
      unfold skipped
      rw [hc]
    · rwa [Nat.add_assoc, Nat.add_comm 1 count] at hasked'

/-- The end of the feed, or its failure, among the rows to skip. -/
theorem skipRows_end (h : b.Streams ending rows c.feed w) (hasked : b.Asked start w₀ n false c.feed w)
    {count : Nat} (hlt : rows.length < count) :
    ∃ c' w', skipRows b count (c, w) = (c.atEnd ending false, c', w') ∧ c'.FinishedLike c ∧
      b.Asked start w₀ (n + rows.length + 1) true c'.feed w' := by
  induction rows generalizing c w n count with
  | nil =>
    obtain ⟨count, rfl⟩ := Nat.exists_eq_succ_of_ne_zero (Nat.ne_zero_of_lt hlt)
    obtain ⟨c', w', hread, hfinished, hasked'⟩ := readRow_end h hasked
    refine ⟨c', w', ?_, hfinished, hasked'⟩
    show (readRow b >>= _) (c, w) = _
    cases ending with
    | none => exact bind_done hread
    | some fault => exact bind_failed hread
  | cons row rows ih =>
    obtain ⟨count, rfl⟩ := Nat.exists_eq_succ_of_ne_zero (Nat.ne_zero_of_lt hlt)
    obtain ⟨feed', w', hrow, hrest⟩ := h
    obtain ⟨c'', w'', hskips, hfinished, hasked'⟩ :=
      ih (c := { c with feed := feed', finished := false, skip := c.skip - 1 }) hrest (hasked.row hrow)
        (Nat.lt_of_succ_lt_succ hlt)
    refine ⟨c'', w'', ?_, ⟨hfinished.finished, hfinished.remaining⟩, ?_⟩
    · show (readRow b >>= _) (c, w) = _
      rw [bind_done (readRow_of_done hrow)]
      exact hskips
    · rwa [Nat.add_right_comm n 1] at hasked'

/-! ### Ways through a reading -/

theorem nextRow_idle (h : c.finished = true ∨ c.remaining = some 0) : nextRow b (c, w) = (.done none, c, w) := by
  have hidle : (c.finished || c.remaining == some 0) = true := by simpa using h
  show (cursor >>= _) (c, w) = _
  rw [cursor, read_bind]
  dsimp only
  rw [hidle]
  rfl

section
variable {c₁ c₂ : Cursor} {w₁ w₂ : World σ}

theorem nextRow_going (hc : c.finished = false) (hlimit : c.remaining ≠ some 0) {r : Outcome Failure (Option Row)}
    {s : Cursor × World σ}
    (h : (skipRows b c.skip.toNat >>= fun found => if found then do
        match ← readRow b with
        | none => pure none
        | some row => do
          modifyCursor fun c => { c with remaining := c.remaining.map (· - 1) }
          pure (some row)
      else pure none : Reading σ (Option Row)) (c, w) = (r, s)) : nextRow b (c, w) = (r, s) := by
  have hgoing : (c.finished || c.remaining == some 0) = false := by simpa [hc] using hlimit
  show (cursor >>= _) (c, w) = _
  rw [cursor, read_bind]
  dsimp only
  rw [hgoing]
  exact h

theorem nextRow_row (hc : c.finished = false) (hlimit : c.remaining ≠ some 0) {row : Row}
    (hskip : skipRows b c.skip.toNat (c, w) = (.done true, c₁, w₁))
    (hread : readRow b (c₁, w₁) = (.done (some row), c₂, w₂)) :
    nextRow b (c, w) = (.done (some row), { c₂ with remaining := c₂.remaining.map (· - 1) }, w₂) := by
  refine nextRow_going hc hlimit ?_
  rw [bind_done hskip]
  exact bind_done hread

theorem nextRow_end (hc : c.finished = false) (hlimit : c.remaining ≠ some 0)
    (hskip : skipRows b c.skip.toNat (c, w) = (.done true, c₁, w₁))
    (hread : readRow b (c₁, w₁) = (c.atEnd ending none, c₂, w₂)) :
    nextRow b (c, w) = (c.atEnd ending none, c₂, w₂) := by
  refine nextRow_going hc hlimit ?_
  rw [bind_done hskip]
  cases ending with
  | none => exact bind_done hread
  | some fault => exact bind_failed hread

theorem nextRow_end_skipping (hc : c.finished = false) (hlimit : c.remaining ≠ some 0)
    (hskip : skipRows b c.skip.toNat (c, w) = (c.atEnd ending false, c₁, w₁)) :
    nextRow b (c, w) = (c.atEnd ending none, c₁, w₁) := by
  refine nextRow_going hc hlimit ?_
  cases ending with
  | none => exact bind_done hskip
  | some fault => exact bind_failed hskip

end

/-! ### What is still to come -/

/-- Whether a window reaches behind the rows. -/
def Reaches (skip : UInt64) (limit : Option UInt64) (rows : List Row) : Prop :=
  match limit with
  | none => True
  | some l => l ≠ 0 ∧ rows.length < skip.toNat + l.toNat

instance (skip : UInt64) (limit : Option UInt64) (rows : List Row) : Decidable (Reaches skip limit rows) :=
  match limit with
  | none => isTrue trivial
  | some _ => inferInstanceAs (Decidable (_ ∧ _))

/-- The failure that a cursor meets, if its window reaches behind the rows. -/
def met (c : Cursor) (ending : Option NativeFault) (rows : List Row) : Option Failure :=
  if Reaches c.skip c.remaining rows then ending.map (c.vendor.failure c.sql none) else none

/-- What a cursor over a feed still yields: rows, and then perhaps a failure. -/
inductive Rests (b : Backend σ) (ending : Option NativeFault) (c : Cursor) (w : World σ) :
    List Row → Option Failure → Prop where
  | finished (h : c.finished = true) : Rests b ending c w [] none
  | going {rows : List Row} (h : c.finished = false) (hrows : b.Streams ending rows c.feed w) :
    Rests b ending c w (firstRows c.remaining (rows.drop c.skip.toNat)) (c.met ending rows)

/-- Whether a cursor asks for at most `m` further rows. -/
def Allows (c : Cursor) (m : Nat) : Prop :=
  ∃ l, c.remaining = some l ∧ (c.finished = true ∨ l = 0 ∨ c.skip.toNat + l.toNat ≤ m)

/-- What readings add to what was asked for stays within what the cursor allows. -/
def Keeps (c c' : Cursor) (n n' : Nat) : Prop :=
  ∀ m, c.Allows m → ∃ m', n' + m' ≤ n + m ∧ c'.Allows m'

theorem Keeps.refl : c.Keeps c n n :=
  fun m hm => ⟨m, Nat.le_refl _, hm⟩

theorem reaches_cons {skip : UInt64} {limit : Option UInt64} (hlimit : limit ≠ some 0) {row : Row} {rest : List Row}
    (hdrop : rows.drop skip.toNat = row :: rest) : Reaches skip limit rows ↔ Reaches 0 (limit.map (· - 1)) rest := by
  cases limit with
  | none => exact Iff.rfl
  | some l =>
    have hlength := congrArg List.length hdrop
    rw [List.length_drop, List.length_cons] at hlength
    have hne : l ≠ 0 := fun h => hlimit (congrArg some h)
    have hpos := limit_pos hne
    have hpred := limit_pred hne
    have hzero : l - 1 ≠ 0 ↔ l.toNat ≠ 1 := by
      rw [ne_eq, ← UInt64.toNat_inj, hpred, UInt64.toNat_zero]
      omega
    show l ≠ 0 ∧ rows.length < skip.toNat + l.toNat ↔ l - 1 ≠ 0 ∧ rest.length < 0 + (l - 1).toNat
    rw [hzero, hpred]
    constructor
    · rintro ⟨-, hlt⟩
      exact ⟨by omega, by omega⟩
    · rintro ⟨-, hlt⟩
      exact ⟨hne, by omega⟩

theorem reaches_end {skip : UInt64} {limit : Option UInt64} (hlimit : limit ≠ some 0)
    (hle : rows.length ≤ skip.toNat) : Reaches skip limit rows := by
  cases limit with
  | none => trivial
  | some l =>
    have hne : l ≠ 0 := fun h => hlimit (congrArg some h)
    have hpos := limit_pos hne
    exact ⟨hne, by omega⟩

theorem met_end (hlimit : c.remaining ≠ some 0) (hle : rows.length ≤ c.skip.toNat) :
    c.met ending rows = ending.map (c.vendor.failure c.sql none) :=
  if_pos (reaches_end hlimit hle)

/-- What a cursor yields, reading by reading: its rows, and then its failure. -/
def yields (selected : List Row) (trouble : Option Failure) : List (Outcome Failure (Option Row)) :=
  selected.map (fun row => .done (some row)) ++ trouble.toList.map .failed

theorem Allows.exists_limit {m : Nat} (h : c.Allows m) (hc : c.finished = false) (hlimit : c.remaining ≠ some 0) :
    ∃ l, c.remaining = some l ∧ l ≠ 0 ∧ c.skip.toNat + l.toNat ≤ m := by
  obtain ⟨l, hl, hallowed⟩ := h
  have hne : l ≠ 0 := fun h => hlimit (hl.trans (congrArg some h))
  rcases hallowed with hfinished | hzero | hm
  · rw [hc] at hfinished
    cases hfinished
  · exact absurd hzero hne
  · exact ⟨l, hl, hne, hm⟩

theorem FinishedLike.keeps {c' : Cursor} {n' : Nat} (h : c'.FinishedLike c) (hc : c.finished = false)
    (hlimit : c.remaining ≠ some 0) (hle : n' ≤ n + c.skip.toNat + 1) : c.Keeps c' n n' := by
  intro m hm
  obtain ⟨l, hl, hne, hallowed⟩ := Allows.exists_limit hm hc hlimit
  have hpos := limit_pos hne
  exact ⟨0, by omega, l, h.remaining.trans hl, .inl h.finished⟩

theorem keeps_advanced (hc : c.finished = false) (hlimit : c.remaining ≠ some 0) (feed : Feed) :
    c.Keeps (c.advanced feed) n (n + c.skip.toNat + 1) := by
  intro m hm
  obtain ⟨l, hl, hne, hallowed⟩ := Allows.exists_limit hm hc hlimit
  have hpos := limit_pos hne
  have hpred := limit_pred hne
  have hleft : (c.advanced feed).remaining = some (l - 1) := congrArg (Option.map (· - 1)) hl
  refine ⟨(l - 1).toNat, by omega, l - 1, hleft, .inr (.inr ?_)⟩
  show 0 + (l - 1).toNat ≤ (l - 1).toNat
  omega

theorem atEnd_eq (c : Cursor) (ending : Option NativeFault) : c.atEnd ending none =
    (yields [] (ending.map (c.vendor.failure c.sql none))).headD (.done none) := by
  cases ending <;> rfl

/-- Each reading takes the first of what is still to come. -/
theorem nextRow_rests (h : c.Rests b ending w selected trouble) (hasked : b.Asked start w₀ n c.finished c.feed w) :
    ∃ c' w' n', nextRow b (c, w) = ((yields selected trouble).headD (.done none), c', w') ∧
      c'.Rests b ending w' selected.tail (if selected = [] then none else trouble) ∧
      b.Asked start w₀ n' c'.finished c'.feed w' ∧ c.Keeps c' n n' := by
  cases h with
  | finished h => exact ⟨c, w, n, nextRow_idle (.inl h), .finished h, hasked, .refl⟩
  | @going rows hc hrows =>
    by_cases hlimit : c.remaining = some 0
    · -- nothing is asked for any more, and the cursor is left as it is
      have hnone : firstRows c.remaining (rows.drop c.skip.toNat) = [] := by simp [hlimit, firstRows]
      have hunmet : c.met ending rows = none := if_neg fun h => by
        rw [hlimit] at h
        exact h.1 rfl
      have hrests := Rests.going (c := c) hc hrows
      rw [hnone, hunmet] at hrests ⊢
      exact ⟨c, w, n, nextRow_idle (.inr hlimit), hrests, hasked, .refl⟩
    rw [hc] at hasked
    by_cases hle : c.skip.toNat ≤ rows.length
    · obtain ⟨feed₁, w₁, hskip, hstreams, hasked₁⟩ := skipRows_found hc hrows hasked rfl hle
      rcases hdrop : rows.drop c.skip.toNat with _ | ⟨row, rest⟩ <;> rw [hdrop] at hstreams
      · -- the end stands right behind the rows to skip
        have hall := List.drop_eq_nil_iff.1 hdrop
        obtain ⟨c', w', hread, hfinished, hasked'⟩ := readRow_end (c := c.skipped feed₁) hstreams hasked₁
        have hlike : c'.FinishedLike c := ⟨hfinished.finished, hfinished.remaining⟩
        rw [firstRows_nil, met_end hlimit hall, ← atEnd_eq]
        exact ⟨c', w', _, nextRow_end hc hlimit hskip hread, .finished hlike.finished, by rwa [hlike.finished],
          hlike.keeps hc hlimit (Nat.le_refl _)⟩
      · obtain ⟨feed', w', hrow, hrest⟩ := hstreams
        have hread := nextRow_row hc hlimit hskip (readRow_of_done (c := c.skipped feed₁) hrow)
        have hmet : c.met ending rows = (c.advanced feed').met ending rest :=
          if_congr (reaches_cons hlimit hdrop) rfl rfl
        have hrests : (c.advanced feed').Rests b ending w' _ _ := .going rfl hrest
        rw [firstRows_cons hlimit, hmet]
        exact ⟨c.advanced feed', w', _, hread, hrests, hasked₁.row hrow, keeps_advanced hc hlimit feed'⟩
    · -- the end stands among the rows to skip
      have hlt : rows.length < c.skip.toNat := Nat.lt_of_not_le hle
      obtain ⟨c', w', hskip, hlike, hasked'⟩ := skipRows_end hrows hasked hlt
      have hnone : rows.drop c.skip.toNat = [] := List.drop_eq_nil_of_le hlt.le
      rw [hnone, firstRows_nil, met_end hlimit hlt.le, ← atEnd_eq]
      exact ⟨c', w', _, nextRow_end_skipping hc hlimit hskip, .finished hlike.finished, by rwa [hlike.finished],
        hlike.keeps hc hlimit (by omega)⟩

end

theorem Rests.length_le (h : c.Rests b ending w selected trouble) : selected.length ≤ c.feed.rows.length := by
  cases h with
  | finished h => exact Nat.zero_le _
  | @going rows h hrows =>
    have hwindow := length_firstRows_le c.remaining (rows.drop c.skip.toNat)
    have hdrop : (rows.drop c.skip.toNat).length ≤ rows.length := by simp
    exact hwindow.trans (hdrop.trans hrows.length_le)

/-! ### Cursors without failures -/

/-- The rows that a cursor still gives out. -/
inductive Gives (b : Backend σ) (c : Cursor) (w : World σ) : List Row → Prop where
  | finished (h : c.finished = true) : Gives b c w []
  | going {rows : List Row} (h : c.finished = false) (hrows : b.Delivers rows c.feed w) :
    Gives b c w (firstRows c.remaining (rows.drop c.skip.toNat))

theorem gives_ofFeed (h : b.Delivers rows feed w) (vendor : Vendor) (sql : String) (skip : UInt64)
    (limit : Option UInt64) : (ofFeed feed vendor sql skip limit).Gives b w (firstRows limit (rows.drop skip.toNat)) :=
  .going (c := ofFeed feed vendor sql skip limit) rfl h

theorem met_none : c.met none rows = none := by
  unfold met
  split <;> rfl

theorem Gives.rests (h : c.Gives b w selected) : c.Rests b none w selected none := by
  cases h with
  | finished h => exact .finished h
  | going h hrows =>
    have hrests := Rests.going h (Backend.streams_none_iff.2 hrows)
    rwa [met_none] at hrests

theorem Rests.gives (h : c.Rests b none w selected trouble) : c.Gives b w selected := by
  cases h with
  | finished h => exact .finished h
  | going h hrows => exact .going h (Backend.streams_none_iff.1 hrows)

/-- Reading a row takes the first of those that are given out. -/
theorem ends_nextRow (h : c.Gives b w selected) :
    ends (nextRow b) (fun row s => row = selected.head? ∧ s.1.Gives b s.2 selected.tail)
      (fun _ _ => False) (fun _ => False) (c, w) := by
  have hrests := h.rests
  cases h with
  | finished h =>
    rw [ends_of_done (nextRow_idle (.inl h))]
    exact ⟨rfl, .finished h⟩
  | @going rows h hrows =>
    have hasked : b.Asked c.feed w 0 c.finished c.feed w := by
      rw [h]
      exact .start
    obtain ⟨c', w', n, hread, hleft, -, -⟩ := nextRow_rests hrests hasked
    have hfirst : ∀ selected : List Row,
        (yields selected none).headD (.done none) = Outcome.done selected.head? := fun selected => by
      cases selected <;> rfl
    rw [hfirst] at hread
    rw [ends_of_done hread]
    exact ⟨rfl, hleft.gives⟩

theorem ends_readRows (h : c.Gives b w selected) (count : Nat) :
    ends (readRows b count) (fun rows s => rows = selected.take count ∧ s.1.Gives b s.2 (selected.drop count))
      (fun _ _ => False) (fun _ => False) (c, w) := by
  induction count generalizing c w selected with
  | zero => exact ⟨rfl, h⟩
  | succ count ih =>
    show ends (nextRow b >>= _) _ _ _ (c, w)
    rw [ends_bind]
    refine ends_mono (ends_nextRow h) (fun row s hs => ?_) (fun _ _ h => h) fun _ h => h
    obtain ⟨rfl, hleft⟩ := hs
    cases selected with
    | nil => exact ⟨rfl, hleft⟩
    | cons row rest =>
      refine (ih hleft).bind fun rows s hs => ?_
      rw [hs.1]
      exact ⟨rfl, hs.2⟩

theorem ends_readAll (h : c.Gives b w selected) :
    ends (readAll b) (fun t _ => t.rows = selected) (fun _ _ => False) (fun _ => False) (c, w) := by
  unfold readAll
  rw [ends_bind, cursor, ends_read]
  refine (ends_readRows h _).bind fun rows s hs => ?_
  have hall : selected.length ≤ c.feed.rows.length + 1 := Nat.le_succ_of_le h.rests.length_le
  rw [List.take_of_length_le hall] at hs
  exact hs.1

end Cursor

end NamedSql
