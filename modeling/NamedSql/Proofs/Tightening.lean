import NamedSql.Proofs.Timeouts

/-!
# Timeouts and deadlines

Under a deadline every execution of a statement stands right behind a limit that was set for its handle: the deadline is
still ahead then, and the timeout is no longer than the time up to it (`Statement.LimitedBy`). All that is done with a
session only ever shortens timeouts (`TimeNote.Tightens`), so a handle is never executed with a longer one than it was
given or than it was executed with before (`Session.timeouts_tightened`).
-/

namespace NamedSql

open NamedSql.Flow

variable {σ : Type} {b : Backend σ} {times : σ → Nat → Option (Option Nat)}

/-! ### Timeouts that get shorter -/

namespace TimeNote

/-- A timeout is there if there is another one, and it is no longer than that. -/
def NoLonger (t u : Option Nat) : Prop :=
  ∀ n ∈ u, ∃ m ∈ t, m ≤ n

variable {t u v : Option Nat} {handle millis : Nat} {notes before rest : List TimeNote}

theorem NoLonger.refl : NoLonger t t :=
  fun n hn => ⟨n, hn, Nat.le_refl n⟩

theorem NoLonger.trans (h : NoLonger t u) (h' : NoLonger u v) : NoLonger t v := by
  intro n hn
  obtain ⟨m, hm, hle⟩ := h' n hn
  obtain ⟨k, hk, hle'⟩ := h m hm
  exact ⟨k, hk, hle'.trans hle⟩

theorem tighten_le (t : Option Nat) (left : Nat) : TimeLimit.tighten t left ≤ left := by
  cases t with
  | none => exact Nat.le_refl left
  | some n =>
    unfold TimeLimit.tighten
    dsimp only
    split <;> omega

theorem noLonger_tighten (t : Option Nat) (left : Nat) : NoLonger (some (TimeLimit.tighten t left)) t := by
  rintro n rfl
  refine ⟨_, rfl, ?_⟩
  unfold TimeLimit.tighten
  dsimp only
  split <;> omega

/-- Notes in the order in which a session makes them: a timeout that is set is no longer than the one before, and an
execution has the one that was noted last. -/
inductive Tightens : List TimeNote → Prop
  | none : Tightens []
  | given {notes : List TimeNote} (handle : Nat) (t : Option Nat) (h : Tightens notes) :
    Tightens (notes ++ [.given handle t])
  | limited {notes : List TimeNote} {handle : Nat} {t u : Option Nat} (now : Instant) (h : Tightens notes)
      (hlast : last handle notes = some u) (hle : NoLonger t u) : Tightens (notes ++ [.limited handle t now])
  | executed {notes : List TimeNote} {handle : Nat} {t : Option Nat} (h : Tightens notes)
      (hlast : last handle notes = some t) : Tightens (notes ++ [.executed handle t])

/-- The timeout is no longer than the one that the handle was given when it was prepared, and than those of all
executions of the handle since then. -/
def Shortest (handle : Nat) (t : Option Nat) (notes : List TimeNote) : Prop :=
  ∃ before g since, notes = before ++ .given handle g :: since ∧ (∀ u, .given handle u ∉ since) ∧
    NoLonger t g ∧ ∀ u, .executed handle u ∈ since → NoLonger t u

theorem shortest_given (handle : Nat) (t : Option Nat) (notes : List TimeNote) :
    Shortest handle t (notes ++ [.given handle t]) :=
  ⟨notes, t, [], rfl, fun _ => List.not_mem_nil, .refl, fun _ h => absurd h List.not_mem_nil⟩

theorem Shortest.mono (h : Shortest handle u notes) (hle : NoLonger t u) : Shortest handle t notes := by
  obtain ⟨before, g, since, hnotes, hnone, hg, hexecuted⟩ := h
  exact ⟨before, g, since, hnotes, hnone, hle.trans hg, fun v hv => hle.trans (hexecuted v hv)⟩

theorem Shortest.concat (h : Shortest handle t notes) {x : TimeNote} (hgiven : ∀ u, x ≠ .given handle u)
    (hexecuted : ∀ u, x = .executed handle u → NoLonger t u) : Shortest handle t (notes ++ [x]) := by
  obtain ⟨before, g, since, rfl, hnone, hg, hbefore⟩ := h
  refine ⟨before, g, since ++ [x], by rw [List.append_assoc, List.cons_append], fun u hu => ?_, hg, fun u hu => ?_⟩
  · rcases List.mem_append.1 hu with hu | hu
    · exact hnone u hu
    · exact hgiven u (List.mem_singleton.1 hu).symm
  · rcases List.mem_append.1 hu with hu | hu
    · exact hbefore u hu
    · exact hexecuted u (List.mem_singleton.1 hu).symm

theorem notable_tightens : Notable Tightens where
  given _ handle t h := h.given handle t
  limited _ _ t millis now h hlast := h.limited now hlast (noLonger_tighten t millis)
  executed _ _ _ h hlast := h.executed hlast

/-- What was noted before an execution, and the timeout that was noted last then. -/
theorem Tightens.executed_of_split (h : Tightens notes) (hnotes : notes = before ++ .executed handle t :: rest) :
    Tightens before ∧ last handle before = some t := by
  induction h generalizing rest with
  | none => exact absurd hnotes.symm (List.append_ne_nil_of_right_ne_nil _ (List.cons_ne_nil _ _))
  | given n u h ih | limited now h hlast hle ih =>
    obtain ⟨-, heq⟩ | ⟨rest, hsplit⟩ := Statement.eq_or_split_of_concat hnotes
    · cases heq
    · exact ih hsplit
  | executed h hlast ih =>
    obtain ⟨rfl, heq⟩ | ⟨rest, hsplit⟩ := Statement.eq_or_split_of_concat hnotes
    · cases heq
      exact ⟨h, hlast⟩
    · exact ih hsplit

theorem Tightens.shortest (h : Tightens notes) (hlast : last handle notes = some t) : Shortest handle t notes := by
  induction h generalizing t with
  | none => cases hlast
  | @given notes n u h ih =>
    by_cases hn : n = handle
    · subst hn
      rw [last_given] at hlast
      obtain rfl := Option.some.inj hlast
      exact shortest_given n u notes
    · rw [last_given_of_ne (Ne.symm hn)] at hlast
      exact (ih hlast).concat (fun v hv => hn (TimeNote.given.inj hv).1) fun v hv => nomatch hv
  | @limited notes n u v now h hbefore hle ih =>
    rw [last_limited] at hlast
    have hlimit (hshortest : Shortest handle t notes) : Shortest handle t (notes ++ [.limited n u now]) :=
      hshortest.concat (fun _ hv => nomatch hv) fun _ hv => nomatch hv
    split at hlast
    · next hn =>
      subst hn
      obtain rfl := Option.some.inj hlast
      exact hlimit ((ih hbefore).mono hle)
    · exact hlimit (ih hlast)
  | @executed notes n u h hbefore ih =>
    rw [last_executed] at hlast
    refine (ih hlast).concat (fun _ hv => nomatch hv) fun v hv => ?_
    obtain ⟨rfl, rfl⟩ := TimeNote.executed.inj hv
    obtain rfl := Option.some.inj (hlast.symm.trans hbefore)
    exact .refl

end TimeNote

/-! ### Executions under a deadline -/

namespace Statement

open TimeNote

/-- What was noted last limits the handle to the timeout, which is there and no longer than the time from then on to the
deadline. -/
def LimitedBy (limit : TimeLimit) (handle : Nat) (timeout : Option Nat) (notes : List TimeNote) : Prop :=
  ∃ before millis now expiry, notes = before ++ [.limited handle (some millis) now] ∧ timeout = some millis ∧
    limit.expiry? = some expiry ∧ now.millis < expiry.millis ∧ (millis : Int) ≤ expiry.since now

/-- Each execution stands right behind a limit. -/
def Bounded (limit : TimeLimit) (notes : List TimeNote) : Prop :=
  ∀ front handle t rest, notes = front ++ .executed handle t :: rest → LimitedBy limit handle t front

/-- What was noted after `start` is bounded. -/
def BoundedSince (limit : TimeLimit) (start notes : List TimeNote) : Prop :=
  ∃ more, notes = start ++ more ∧ Bounded limit more

/-- And the handle was limited just now. -/
def LimitedSince (limit : TimeLimit) (start : List TimeNote) (handle : Nat) (notes : List TimeNote) : Prop :=
  ∃ more, notes = start ++ more ∧ Bounded limit more ∧ ∃ t, LimitedBy limit handle t more

section
variable {limit : TimeLimit} {start notes : List TimeNote} {handle millis : Nat} {t u : Option Nat}
  {expiry now : Instant}

theorem limitedBy_limited (hexpiry : limit.expiry? = some expiry) (hnow : now.millis < expiry.millis)
    (hle : millis ≤ (expiry.since now).toNat) :
    LimitedBy limit handle (some millis) (notes ++ [.limited handle (some millis) now]) := by
  have hpositive : 0 < expiry.since now := Int.sub_pos_of_lt hnow
  exact ⟨notes, millis, now, expiry, rfl, rfl, hexpiry, hnow, by omega⟩

theorem LimitedBy.eq_of_last (h : LimitedBy limit handle u notes) (hlast : last handle (start ++ notes) = some t) :
    t = u := by
  obtain ⟨before, millis, now, expiry, rfl, rfl, -⟩ := h
  rw [← List.append_assoc, last_limited, if_pos rfl] at hlast
  exact (Option.some.inj hlast).symm

theorem bounded_nil : Bounded limit [] :=
  fun _ _ _ _ h => absurd h.symm (List.append_ne_nil_of_right_ne_nil _ (List.cons_ne_nil _ _))

theorem Bounded.concat (h : Bounded limit notes) {x : TimeNote}
    (hx : ∀ n u, x = .executed n u → LimitedBy limit n u notes) : Bounded limit (notes ++ [x]) := by
  intro front n u rest hsplit
  obtain ⟨rfl, heq⟩ | ⟨rest, hsplit⟩ := eq_or_split_of_concat hsplit
  · exact hx n u heq
  · exact h front n u rest hsplit

/-- A handle is limited to what is left of its time right before it is executed. -/
theorem follows_bounded : Follows (some limit) (BoundedSince limit start) (LimitedSince limit start) where
  given notes handle t h := by
    obtain ⟨more, rfl, hmore⟩ := h
    exact ⟨_, List.append_assoc .., hmore.concat nofun⟩
  unlimited hnone := nomatch hnone
  limited notes handle t expiry now h _ hexpiry hnow := by
    obtain ⟨more, rfl, hmore⟩ := h
    exact ⟨_, List.append_assoc .., hmore.concat nofun, _, limitedBy_limited hexpiry hnow (tighten_le t _)⟩
  ready notes handle h := by
    obtain ⟨more, hnotes, hmore, -⟩ := h
    exact ⟨more, hnotes, hmore⟩
  executed notes handle t h hlast := by
    obtain ⟨more, rfl, hmore, u, hlimited⟩ := h
    obtain rfl := hlimited.eq_of_last hlast
    refine ⟨_, List.append_assoc .., hmore.concat fun n v hv => ?_⟩
    obtain ⟨rfl, rfl⟩ := TimeNote.executed.inj hv
    exact hlimited

end

end Statement

/-! ### Deeds under a deadline -/

namespace Session

open Statement TimeNote

/-- What an action on a statement notes in a transaction with a deadline. -/
theorem Deed.act_bounded (hb : b.KeepsTime times) {l : Line (Clocked σ)} {limit : TimeLimit}
    (hlimit : l.session.timeLimit = some limit) (hl : Timely times (fun _ => True) (fun _ => True) l) (st : Statement)
    (memos : List Memo) (action : Action) :
    BoundedSince limit l.world.link.notes ((Deed.act st memos action).perform b.clocked l).2.world.link.notes := by
  have hstart : Timely times (·.timeLimit = some limit) (BoundedSince limit l.world.link.notes) l :=
    ⟨hl.given, hlimit, hl.world.clock, hl.world.kept, [], (List.append_nil _).symm, bounded_nil⟩
  exact (obeys_atDesk (timely_perform hb follows_bounded action) st memos l hstart).left.world.notes

/-- A session is started on a database that keeps timeouts, and anything is done with it and with statements on it.
Timeouts are noted, which changes nothing; time passes as it likes during calls and in between. In a transaction with a
deadline, what an action on a statement executes runs with a timeout. When that was set, right before, the deadline was
still ahead, and it is no longer than the time up to it. And it is no longer than the timeout that the handle was given
when it was prepared, nor than that of any execution of the handle since then. -/
theorem timeouts_tightened (hb : b.KeepsTime times) {name : String} {settings : Settings}
    {fresh last : Line (Clocked σ)} (hfresh : fresh.session = .start name settings)
    (hclock : fresh.world.link.clock = fresh.world.now) (hnotes : fresh.world.link.notes = [])
    {turns : List (Turn (Line (Clocked σ)) Deed)}
    (hturns : ∀ change, .meanwhile change ∈ turns → ∀ l, Meantime times l (change l))
    {played : List (Played Failure (Line (Clocked σ)) Deed Unit)}
    (h : play (Deed.perform b.clocked) turns fresh = (played, last)) :
    ∀ p ∈ played, p.action.perform b (p.found.onto Clocked.link) = (p.outcome, p.left.onto Clocked.link) ∧
      ∀ st memos action limit, p.action = .act st memos action → p.found.session.timeLimit = some limit →
        ∃ more, p.left.world.link.notes = p.found.world.link.notes ++ more ∧
          ∀ front handle timeout rest, more = front ++ .executed handle timeout :: rest →
            LimitedBy limit handle timeout front ∧
            Shortest handle timeout (p.found.world.link.notes ++ front) := by
  have hstart : Timely times (fun _ => True) Tightens fresh := by
    refine ⟨hfresh ▸ given_start name settings, trivial, hclock, ?_, hnotes ▸ .none⟩
    rw [hfresh]
    exact List.forall_mem_nil _
  have hkept := (play_keeps (I := Timely times (fun _ => True) Tightens) (fun p _ hhonest _ hfound =>
    hhonest.left_eq ▸ (timely_deed_of hb notable_tightens p.action p.found hfound).left)
    (fun change hchange l hl => (hturns change hchange l).timely hl) hstart h).1
  intro p hp
  have hhonest := (honest_of_play h p hp).1
  obtain ⟨hfound, hleft⟩ := hkept p hp
  refine ⟨(p.action.alike_perform b.alike_clocked).image Line.alike_onto_iff hhonest, ?_⟩
  intro st memos action limit haction hlimit
  have hbounded := Deed.act_bounded hb hlimit (hfound.mono (fun _ h => h) fun _ _ => trivial) st memos action
  rw [← haction, hhonest.left_eq] at hbounded
  obtain ⟨more, hmore, hbounded⟩ := hbounded
  refine ⟨more, hmore, fun front handle timeout rest hsplit => ⟨hbounded front handle timeout rest hsplit, ?_⟩⟩
  have hwhole : p.left.world.link.notes =
      (p.found.world.link.notes ++ front) ++ .executed handle timeout :: rest := by
    rw [hmore, hsplit, List.append_assoc]
  obtain ⟨hbefore, hlast⟩ := hleft.world.notes.executed_of_split hwhole
  exact hbefore.shortest hlast

def passTime (now : Instant) (l : Line (Clocked Script)) : Line (Clocked Script) :=
  { l with world := { link := { l.world.link with clock := now }, now } }

/-- The statement of the handle that is prepared next. -/
def preparedSelect : Statement :=
  { ofTemplate timedLine.session.vendor timedTemplate none with handle := some (1, "SELECT 1") }

/-- A transaction that has ten seconds at first and then three. -/
def shrinkingTurns : List (Turn (Line (Clocked Script)) Deed) :=
  [.act (.begin (some 10)), .act (.create timedTemplate none), .act (.act preparedSelect [] .retrieve),
    .meanwhile (passTime ⟨7000⟩), .act (.act preparedSelect [] .retrieve), .act .commit]

theorem timeouts_tightened_of_two : ∃ played last,
    play (Deed.perform Script.streaming.clocked) shrinkingTurns timedLine = (played, last) ∧
    last.world.link.notes = [.given 0 (some 5000), .executed 0 (some 5000), .given 1 (some 5000),
      .limited 1 (some 5000) .epoch, .executed 1 (some 5000), .limited 1 (some 3000) ⟨7000⟩, .executed 1 (some 3000),
      .given 2 (some 5000), .executed 2 (some 5000)] ∧
    ∀ p ∈ played, ∀ st memos action limit, p.action = .act st memos action →
      p.found.session.timeLimit = some limit → ∃ more, p.left.world.link.notes = p.found.world.link.notes ++ more ∧
        ∀ front handle timeout rest, more = front ++ .executed handle timeout :: rest →
          LimitedBy limit handle timeout front ∧
          Shortest handle timeout (p.found.world.link.notes ++ front) := by
  obtain ⟨played, last, hplay, hnotes⟩ : ∃ played last,
      play (Deed.perform Script.streaming.clocked) shrinkingTurns timedLine = (played, last) ∧
      last.world.link.notes = [.given 0 (some 5000), .executed 0 (some 5000), .given 1 (some 5000),
        .limited 1 (some 5000) .epoch, .executed 1 (some 5000), .limited 1 (some 3000) ⟨7000⟩, .executed 1 (some 3000),
        .given 2 (some 5000), .executed 2 (some 5000)] :=
    ⟨_, _, rfl, by decide +kernel⟩
  have hturns : ∀ change, .meanwhile change ∈ shrinkingTurns → ∀ l, Meantime Script.times l (change l) := by
    intro change hchange l
    simp only [shrinkingTurns, List.mem_cons, reduceCtorEq, Turn.meanwhile.injEq, List.not_mem_nil, or_false,
      false_or] at hchange
    subst hchange
    exact ⟨rfl, rfl, rfl, rfl⟩
  refine ⟨played, last, hplay, hnotes, fun p hp => ?_⟩
  exact (timeouts_tightened Script.keepsTime_streaming rfl rfl rfl hturns hplay p hp).2

end Session

end NamedSql
