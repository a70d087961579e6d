import NamedSql.Backend.Script
import NamedSql.Memo.Action
import NamedSql.Proofs.Completing
import NamedSql.Proofs.EpochMillis
import NamedSql.Proofs.Turns
import NamedSql.Proofs.Waiting

/-!
# Time limits that the calendar has

Time limits and lifetimes are accepted if they are positive. Those whose end the calendar has let a transaction begin,
and all that is done with statements in it completes (`Session.limits_complete`). A longer one is accepted as well: the
transaction is begun on the database before its span overflows, or it begins and each execution in it overflows, and so
does each table that is stored in a memo (`Session.limits_overflow`).
-/

namespace NamedSql

open NamedSql.Flow

variable {σ α : Type} {b : Backend σ} {W : World σ → Prop} {allowed : Nat → Prop}

/-! ### Hooks -/

theorem Instant.NearEpoch.inCalendar {now : Instant} (h : now.NearEpoch) :
    Instant.first.millis ≤ now.millis ∧ now.millis ≤ Instant.last.millis := by
  obtain ⟨hfrom, hto⟩ := h
  simp only [yearMillis, Instant.first, Instant.last] at *
  omega

/-- The time of an audit near the epoch is one that the calendar has. -/
theorem Hook.completing_audit (user userName stampName : String) : (audit user userName stampName).Completing := by
  intro now hnow b
  obtain ⟨t, ht⟩ := Timestamp.exists_ofMillis?_iff.2 hnow.inCalendar
  unfold audit
  dsimp only
  split
  · nofun
  · rw [ht]
    nofun

theorem Hook.completing_assign (entries : List (Key × Param)) (reason : Option String) :
    (assign entries reason).Completing := by
  intro now _ b
  cases reason <;> nofun

/-! ### Beginning -/

theorem spanOfSeconds?_eq {n : Int} (h : n * 1000 ≤ Instant.last.millis - yearMillis) :
    spanOfSeconds? n = some (n * 1000) := by
  refine if_pos ?_
  simp only [Instant.last, yearMillis, maxSpan] at *
  omega

theorem inReach_of_pos {n : Int} (hpos : 0 < n) (h : n ≤ Instant.last.millis - yearMillis) : InReach n := by
  refine ⟨?_, h⟩
  simp only [Instant.first, yearMillis]
  omega

theorem Instant.millis_of_add {t u : Instant} {millis : Int} (h : t.add? millis = some u) :
    u.millis = t.millis + millis := by
  simp only [add?] at h
  split at h
  · rw [← Option.some.inj h]
  · cases h

namespace Session

/-- The seconds that a transaction may take: those asked for, or those of the settings. -/
def granted (s : Session) (seconds : Option Int) : Option Int :=
  seconds <|> s.settings.timeout

/-- A number of seconds that the calendar has room for, and that leaves only timeouts that are `allowed`. -/
def Fits (W : World σ → Prop) (allowed : Nat → Prop) (n : Int) : Prop :=
  n * 1000 ≤ Instant.last.millis - yearMillis ∧
    ∀ w w', W w → W w' → allowed (w.now.millis + n * 1000 - w'.now.millis).toNat

theorem Fits.limited (hW : ∀ w, W w → w.now.NearEpoch) {n : Int} (hn : Fits W allowed n) (hpos : 0 < n) {w : World σ}
    (hw : W w) {s : Session} (hs : s.timeLimit = some ⟨w.now, n * 1000⟩) : s.Limited W allowed := by
  intro t ht
  obtain rfl := Option.some.inj (hs.symm.trans ht)
  have hreach : InReach (n * 1000) := inReach_of_pos (by omega) hn.1
  obtain ⟨expiry, hexpiry⟩ := hreach.exists_add (hW w hw)
  refine ⟨expiry, hexpiry, fun w' hw' => ?_⟩
  have hmillis : expiry.millis = w.now.millis + n * 1000 := Instant.millis_of_add hexpiry
  rw [Instant.since, hmillis]
  exact hn.2 w w' hw hw'

/-- A line on which a transaction began where `W` held, and may take the given seconds. -/
structure Running (W : World σ → Prop) (allowed : Nat → Prop) (seconds : Option Int) (l : Line σ) : Prop where
  line : l.Has (Limited W allowed) W
  transaction : ∃ w, W w ∧ l.session.transaction = some (seconds.map fun n => ⟨w.now, n * 1000⟩)

/-- A transaction that fits begins or fails. -/
theorem begin_completes (h : b.Completing W allowed) (hW : ∀ w, W w → w.now.NearEpoch) {l : Line σ}
    (hl : l.Has (Limited W allowed) W) {seconds : Option Int}
    (hfits : ∀ n, l.session.granted seconds = some n → 0 < n → Fits W allowed n) :
    ends (begin b seconds) (fun _ => Running W allowed (l.session.granted seconds))
      (fun _ => Line.Has (Limited W allowed) W) (fun _ => False) l := by
  unfold begin
  rw [ends_bind, ends_checkOpen]
  split
  · exact hl
  rw [ends_bind, Dialog.session, ends_read]
  extract_lets seconds enter limit ask
  change ∀ n, seconds = some n → 0 < n → Fits W allowed n at hfits
  change ends _ (fun _ => Running W allowed seconds) _ _ l
  clear_value seconds
  have hlimit (hpos : ∀ n, seconds = some n → 0 < n) (l' : Line σ) (hl' : l'.Has (Limited W allowed) W) :
      ends (limit ()) (fun _ => Running W allowed seconds) (fun _ => Line.Has (Limited W allowed) W) (fun _ => False)
        l' := by
    show ends (Dialog.now >>= _) _ _ _ l'
    rw [ends_bind, Dialog.now, ends_read]
    cases seconds with
    | none => exact ⟨⟨nofun, hl'.world⟩, l'.world, hl'.world, rfl⟩
    | some n =>
      have hn := hfits n rfl (hpos n rfl)
      dsimp only
      rw [spanOfSeconds?_eq hn.1]
      exact ⟨⟨hn.limited hW (hpos n rfl) hl'.world rfl, hl'.world⟩, l'.world, hl'.world, rfl⟩
  have hask (hpos : ∀ n, seconds = some n → 0 < n) :
      ends (ask ()) (fun _ => Running W allowed seconds) (fun _ => Line.Has (Limited W allowed) W) (fun _ => False) l := by
    show ends (Flow.require (!l.session.inTransaction) _ >>= _) _ _ _ l
    rw [ends_bind, ends_require]
    split
    · split
      · next sql _ =>
        exact ((completes_run h (limited_steady W allowed) sql).discard l hl).bind fun _ => hlimit hpos
      · exact hlimit hpos l hl
    · exact hl
  cases seconds with
  | none => exact hask nofun
  | some n =>
    rw [ends_bind, ends_ofExcept, checkTimeout]
    by_cases hn : n ≤ 0
    · rw [if_pos hn]
      exact hl
    · rw [if_neg hn]
      exact hask fun m hm => by
        obtain rfl := Option.some.inj hm
        omega

end Session

/-! ### Storing in memos -/

namespace Memo

theorem completes_change (f : Memo → Instant → Except Failure (α × Memo)) : Completes (fun _ => True) (change f) :=
  (Completes.read _).bind fun _ => (Completes.ofExcept _).bind fun _ =>
    Completes.bind (.modify fun _ _ => trivial) fun _ => .pure _

/-- A table is stored for the memo's lifetime unless the calendar ends before it does. -/
theorem putForLifetime_eq_overflow_iff {s : Timed} (hnow : s.now.NearEpoch) (hpos : 0 < s.memo.lifetime) (k : MemoKey)
    (t : Table) : (putForLifetime k t s).1 = .overflow ↔ Instant.last.millis < s.now.millis + s.memo.lifetime := by
  have hput : putForLifetime k t s = (Flow.ofCalendar (s.now.add? s.memo.lifetime) >>= fun expires =>
      change fun m _ => (m.put k t expires).map ((), ·)) s := rfl
  rw [hput]
  by_cases hlate : Instant.last.millis < s.now.millis + s.memo.lifetime
  · have hnone : s.now.add? s.memo.lifetime = none := if_neg fun h => by omega
    rw [hnone, Flow.ofCalendar_none]
    exact ⟨fun _ => hlate, fun _ => rfl⟩
  · have hsome : s.now.add? s.memo.lifetime = some ⟨s.now.millis + s.memo.lifetime⟩ := by
      refine if_pos ⟨?_, by omega⟩
      have hfrom := hnow.1
      simp only [Instant.first, yearMillis] at *
      omega
    rw [hsome, Flow.ofCalendar_some]
    exact iff_of_false ((completes_change _).ne_overflow trivial).1 hlate

end Memo

namespace Session

open Statement

/-- Where the database completes its calls, a transaction begins or fails that may take a time which the calendar has.
Once it began, statements can be created, and each action on a statement gives a result or fails, whatever happens in
between, as long as the limit stays one that fits. A table is stored for the lifetime of its memo exactly if the
calendar does not end before. -/
theorem limits_complete (h : b.Completing W allowed) (hW : ∀ w, W w → w.now.NearEpoch) {d : Desk σ}
    (hd : d.Ready W allowed) {seconds : Option Int}
    (hfits : ∀ n, d.line.session.granted seconds = some n → 0 < n → Fits W allowed n)
    {turns : List (Turn (Desk σ) Action)}
    (hmeanwhile : ∀ change, .meanwhile change ∈ turns → ∀ d, d.Ready W allowed → (change d).Ready W allowed) :
    ends (begin b seconds)
      (fun _ l => Running W allowed (d.line.session.granted seconds) l ∧
        (∀ template page, (Statement.create b template page l).1 ≠ .overflow) ∧
        ∀ played last, play (Action.perform b) turns { d with line := l } = (played, last) →
          ∀ p ∈ played, p.outcome ≠ .overflow)
      (fun _ l => l.Has (Limited W allowed) W) (fun _ => False) d.line ∧
    ∀ (s : Memo.Timed) k t, s.now.NearEpoch → 0 < s.memo.lifetime →
      ((Memo.putForLifetime k t s).1 = .overflow ↔ Instant.last.millis < s.now.millis + s.memo.lifetime) := by
  refine ⟨?_, fun s k t hnow hpos => Memo.putForLifetime_eq_overflow_iff hnow hpos k t⟩
  refine ends_mono (begin_completes h hW hd.line hfits) (fun _ l hl => ⟨hl, fun template page => ?_, ?_⟩)
    (fun _ _ hl => hl) fun _ hl => hl
  · exact ((completes_create h template page).ne_overflow hl.line).1
  · intro played last hplay p hp
    have hready : Desk.Ready W allowed { d with line := l } := { hd with line := hl.line }
    have hstep (p : Played Failure (Desk σ) Action Result) (hhonest : p.Honest (Action.perform b))
        (hfound : p.found.Ready W allowed) : p.outcome ≠ .overflow ∧ p.left.Ready W allowed := by
      have hends := (completes_perform h hW p.action).ne_overflow hfound
      rwa [hhonest] at hends
    have hkept := play_keeps (fun p _ hhonest _ hfound => (hstep p hhonest hfound).2) hmeanwhile hready hplay
    exact (hstep p (honest_of_play hplay p hp).1 (hkept.1 p hp).1).1

/-- A statement with a hook and a memo, on a table with one row. -/
def hookedDesk : Desk KeyDatabase where
  statement :=
    { ofTemplate .sqlite ⟨"SELECT v FROM kv WHERE k = :k", '\\', "SELECT v FROM kv WHERE k = ".toList.map .sql ++
        [.marker ⟨"k", false, false, none⟩]⟩ none with
      hooks := [Hook.audit "me" "by" "at"], memo := some ⟨0, some 1000⟩ }
  memos := [⟨4, Memo.defaultLifetime, [], [], false⟩]
  line := ⟨.start "main" .default, ⟨⟨{ KeyStore.empty with table := [(1, .text "a")] }, []⟩, .epoch⟩, []⟩

def setClock (now : Instant) (d : Desk σ) : Desk σ :=
  { d with line := { d.line with world := { d.line.world with now } } }

/-- The statement is executed in time, then again in time, and then after the expiry. -/
def hookedTurns : List (Turn (Desk KeyDatabase) Action) :=
  [.act (.bind (.name "k") (.value (.integer 1))), .act .retrieve, .meanwhile (setClock ⟨4000⟩), .act .retrieve,
    .meanwhile (setClock ⟨6000⟩), .act .retrieve, .act .close]

theorem limits_complete_of_five_seconds : ∃ l played last,
    begin KeyDatabase.backend (some 5) hookedDesk.line = (.done (), l) ∧
    l.session.transaction = some (some ⟨.epoch, 5000⟩) ∧
    play (Action.perform KeyDatabase.backend) hookedTurns { hookedDesk with line := l } = (played, last) ∧
    played.length = 5 ∧ (∀ p ∈ played, p.outcome ≠ .overflow) ∧
    (Memo.putForLifetime ⟨"q", .empty, 1, none⟩ ⟨.ofNames [], []⟩ ⟨⟨4, 60000, [], [], false⟩, .epoch⟩).1 ≠ .overflow := by
  obtain ⟨l, played, last, hbegin, htransaction, hplay, hlength⟩ : ∃ l played last,
      begin KeyDatabase.backend (some 5) hookedDesk.line = (.done (), l) ∧
      l.session.transaction = some (some ⟨.epoch, 5000⟩) ∧
      play (Action.perform KeyDatabase.backend) hookedTurns { hookedDesk with line := l } = (played, last) ∧
      played.length = 5 :=
    ⟨_, _, _, rfl, rfl, rfl, rfl⟩
  let C : Instant → Prop := fun now => 0 ≤ now.millis ∧ now.millis ≤ 10000
  let W : World KeyDatabase → Prop := Embedded.Patient (fun w => C w.now) KeyStore.longestWait
  have hW : ∀ w, W w → w.now.NearEpoch := by
    intro w hw
    have hclock : 0 ≤ w.now.millis ∧ w.now.millis ≤ 10000 := hw.data
    simp only [Instant.NearEpoch, yearMillis]
    omega
  have hready : hookedDesk.Ready W (· ≤ KeyStore.longestWait) := by
    refine ⟨?_, ?_, ?_, nofun, by decide, List.forall_mem_nil _⟩
    · exact List.forall_mem_singleton.2 (Hook.completing_audit _ _ _)
    · rintro use ⟨⟩ millis ⟨⟩
      decide
    · exact List.forall_mem_singleton.2 (by decide)
  have hfits : ∀ n, hookedDesk.line.session.granted (some 5) = some n → 0 < n → Fits W (· ≤ KeyStore.longestWait) n := by
    rintro n ⟨⟩ -
    refine ⟨by decide, fun w w' hw hw' => ?_⟩
    have hclock : 0 ≤ w.now.millis ∧ w.now.millis ≤ 10000 := hw.data
    have hclock' : 0 ≤ w'.now.millis ∧ w'.now.millis ≤ 10000 := hw'.data
    simp only [KeyStore.longestWait]
    omega
  have hmeanwhile : ∀ change, .meanwhile change ∈ hookedTurns → ∀ d, d.Ready W (· ≤ KeyStore.longestWait) →
      (change d).Ready W (· ≤ KeyStore.longestWait) := by
    intro change hchange d hd
    have hclock (now : Instant) (hnow : C now) : (setClock now d).Ready W (· ≤ KeyStore.longestWait) :=
      hd.withWorld ⟨hnow, hd.line.world.statements⟩
    simp only [hookedTurns, List.mem_cons, reduceCtorEq, Turn.meanwhile.injEq, List.not_mem_nil, or_false,
      false_or] at hchange
    rcases hchange with rfl | rfl
    · exact hclock ⟨4000⟩ (by decide)
    · exact hclock ⟨6000⟩ (by decide)
  obtain ⟨hends, hstores⟩ := limits_complete (KeyDatabase.completing C) hW hready hfits hmeanwhile
  unfold ends at hends
  rw [hbegin] at hends
  refine ⟨l, played, last, hbegin, htransaction, hplay, hlength, hends.2.2 played last hplay, ?_⟩
  rw [ne_eq, hstores _ _ _ (by decide) (by decide)]
  decide

/-- A time limit of the settings, and a line with these settings on a database of the test. -/
def lateLine (timeout : Option Int) : Line Script :=
  ⟨.start "main" { Settings.default with timeout }, ⟨.empty, .epoch⟩, []⟩

def oneStatement : Statement :=
  ofTemplate .sqlite ⟨"SELECT 1", '\\', "SELECT 1".toList.map .sql⟩ none

/-- All of these limits are accepted. One begins a transaction in which each execution overflows, one overflows when
the transaction was begun on the database; with the third one a table cannot be stored, and the last one is longer than
the database of one table can wait. -/
theorem limits_overflow :
    ((lateLine (some 9000000000000)).session.settings.validate = .ok (lateLine (some 9000000000000)).session.settings ∧
      ∃ l, begin Script.streaming none (lateLine (some 9000000000000)) = (.done (), l) ∧
        (Action.retrieve.perform Script.streaming ⟨oneStatement, [], l⟩).1 = .overflow) ∧
    (checkTimeout 9223372036854776 = .ok () ∧
      ∃ l, begin Script.streaming (some 9223372036854776) (lateLine none) = (.overflow, l) ∧
        l.world.link.executed.map Execution.sql = ["BEGIN"]) ∧
    (∃ memo, Memo.create 1 9223372036854775807 = .ok memo ∧
      (Memo.putForLifetime ⟨"q", .empty, 1, none⟩ ⟨.ofNames [], []⟩ ⟨memo, .epoch⟩).1 = .overflow) ∧
    (checkTimeout 2147484 = .ok () ∧
      ∃ l, begin KeyDatabase.backend (some 2147484) hookedDesk.line = (.done (), l) ∧
        (Action.retrieve.perform KeyDatabase.backend ⟨oneStatement, [], l⟩).1 = .overflow) :=
  ⟨⟨rfl, _, rfl, by decide +kernel⟩, ⟨rfl, _, rfl, rfl⟩, ⟨_, rfl, by decide +kernel⟩,
    ⟨rfl, _, rfl, by decide +kernel⟩⟩

end Session

end NamedSql
