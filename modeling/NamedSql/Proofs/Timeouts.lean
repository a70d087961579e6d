import NamedSql.Proofs.Clocked
import NamedSql.Proofs.Fresh
import NamedSql.Proofs.Scripted

/-!
# Timeouts of executions

What happens to the timeout of a handle in the course of transactions. An action limits the time of a handle only in
a transaction with a deadline, to what is left of it, and only ever shortens it (`Fair`). So each execution runs with
the timeout that the database gave to the handle as long as no execution on it ran under a deadline
(`timeouts_followed`). A timeout that was shortened stays so when the transaction is over (`timeout_stays_short`).
-/

namespace NamedSql

open NamedSql.Flow

variable {σ α : Type} {b : Backend σ}

/-! ### Scripted databases -/

namespace Script

def times (s : Script) (handle : Nat) : Option (Option Nat) :=
  (s.statements.get? handle).map Prepared.timeout

theorem times_modifyStatement {handle : Nat} {f : Prepared String → Prepared String} {g : Option Nat → Option Nat}
    (h : ∀ p, (f p).timeout = g p.timeout) (s : Script) :
    times (modifyStatement handle f s) = Function.update (times s) handle ((times s handle).map g) :=
  Shelf.view_update h

theorem times_modifyStatement_same {handle : Nat} {f : Prepared String → Prepared String}
    (h : ∀ p, (f p).timeout = p.timeout) (s : Script) : times (modifyStatement handle f s) = times s := by
  rw [times_modifyStatement (g := id) h, Option.map_id, id, Function.update_eq_self]

/-- What is on a shelf has its timeouts. -/
theorem times_of_onShelf {shelf : Shelf String} {w : World Script} (h : OnShelf shelf w) :
    times w.link = fun handle => (shelf.get? handle).map Prepared.timeout :=
  congrArg (fun shelf handle => (Shelf.get? shelf handle).map Prepared.timeout) h

theorem untimed_of_onShelf {c : Call Script α} (h : ∀ shelf, Obeys (.always NativeFault (OnShelf shelf)) c) :
    Untimed times c := by
  intro kept w hw
  have htimes (v : World Script) (hv : OnShelf w.link.statements v) : times v.link = kept :=
    (times_of_onShelf hv).trans hw
  exact ends_mono (h _ w rfl) (fun _ => htimes) (fun _ => htimes) htimes

theorem keepsTime_streaming : streaming.KeepsTime times where
  timeout handle s := by
    show (s.statements.get? handle).bind Prepared.timeout = ((s.statements.get? handle).map Prepared.timeout).join
    cases s.statements.get? handle <;> rfl
  prepare handle sql w := by
    have hput (v : World Script) (hv : OnShelf (w.link.statements.put handle
        { Prepared.ofBody sql with timeout := w.link.defaultTimeout }) v) :
        times v.link = Function.update (times w.link) handle (some w.link.defaultTimeout) :=
      (times_of_onShelf hv).trans (Shelf.view_put _)
    have hspared (v : World Script) (hv : OnShelf (w.link.statements.put handle
        { Prepared.ofBody sql with timeout := w.link.defaultTimeout }) v) :
        SparesTimes times handle w.link v.link := fun other hother => by
      rw [hput v hv, Function.update_of_ne hother]
    refine ends_mono (ends_prepare handle sql w) (fun _ v hv => ⟨_, hput v hv⟩) (fun _ v hv => ?_) hspared
    rcases hv with hv | hv
    · exact fun other _ => congrFun (times_of_onShelf hv) other
    · exact hspared v hv
  bind handle position v kept := by
    show Obeys _ (bind handle position v)
    have hbound : Obeys (.always NativeFault fun w => times w.link = kept)
        (Call.modifyLink (modifyStatement handle (·.bind position v))) :=
      .modify fun w hw => (times_modifyStatement_same (f := (·.bind position v)) (fun _ => rfl) w.link).trans hw
    refine (Obeys.require _ _).bind fun _ => (Obeys.read _).bind fun fault => ?_
    split
    · exact (Obeys.require _ _).bind fun _ => hbound
    · exact hbound
  clearBindings handle s := times_modifyStatement_same (f := (·.clear)) (fun _ => rfl) s
  limitRows handle n s := times_modifyStatement_same (f := fun p => { p with maxRows := n }) (fun _ => rfl) s
  limitTime handle t s := times_modifyStatement (fun _ => rfl) s
  execute handle := untimed_of_onShelf fun _ => onShelf_execute (fun p feed =>
    { feed with handle := some handle, rows := cutRows p.maxRows feed.rows }) handle
  executeBatch handle entries := untimed_of_onShelf fun _ => onShelf_executeBatch handle entries
  fetch handle := untimed_of_onShelf fun _ => (Obeys.read _).bind fun _ => .require _ _
  close handle w := by
    refine ends_mono (ends_close handle w) (fun _ v hv other hother => ?_) (fun _ v hv other _ => ?_) fun _ => False.elim
    · refine (congrFun (times_of_onShelf hv) other).trans ?_
      exact congrArg (Option.map Prepared.timeout) (Shelf.get?_erase_of_ne hother)
    · exact congrFun (times_of_onShelf hv) other

theorem keepsTime_buffered : buffered.KeepsTime times := by
  have hbase : Backend.KeepsTime times { streaming with execute := execute fun _ feed => feed } :=
    { keepsTime_streaming with
      execute handle := untimed_of_onShelf fun _ => onShelf_execute (fun _ feed => feed) handle }
  exact { hbase with
    executeBatch handle entries kept := Backend.obeys_executeEach
      (b := { streaming with execute := execute fun _ feed => feed })
      (.modify fun w hw => (hbase.clearBindings handle w.link).trans hw)
      (fun position v => hbase.bind handle position v kept) (hbase.execute handle kept) entries }

end Script

variable {times : σ → Nat → Option (Option Nat)}

/-! ### What is fair -/

namespace Statement

/-- What an action may add to the notes under a time limit. A handle is limited before the expiry, to the time that is
left unless its timeout is shorter. It is executed with the timeout that was noted last, and under a limit only when
it was limited. -/
inductive Fair (limit : Option TimeLimit) (start : List TimeNote) : List TimeNote → Prop
  | none : Fair limit start []
  | given {more} (handle : Nat) (timeout : Option Nat) (h : Fair limit start more) :
    Fair limit start (more ++ [.given handle timeout])
  | limited {more} (handle : Nat) {expiry now : Instant} (h : Fair limit start more)
      (hexpiry : limit.bind TimeLimit.expiry? = some expiry) (hnow : now.millis < expiry.millis) :
    Fair limit start (more ++ [.limited handle
      (some (TimeLimit.tighten (TimeNote.last handle (start ++ more)).join (expiry.since now).toNat)) now])
  | executed {more} {handle : Nat} {timeout : Option Nat} (h : Fair limit start more)
      (htimeout : TimeNote.last handle (start ++ more) = some timeout)
      (hlimited : limit ≠ .none → ∃ t now, .limited handle t now ∈ more) :
    Fair limit start (more ++ [.executed handle timeout])

/-- Only what is fair was noted after `start`. -/
def FairSince (limit : Option TimeLimit) (start notes : List TimeNote) : Prop :=
  ∃ more, notes = start ++ more ∧ Fair limit start more

/-- And the handle may be executed. -/
def ReadySince (limit : Option TimeLimit) (start : List TimeNote) (handle : Nat) (notes : List TimeNote) : Prop :=
  ∃ more, notes = start ++ more ∧ Fair limit start more ∧ (limit ≠ none → ∃ t now, .limited handle t now ∈ more)

section
variable {limit : Option TimeLimit} {start notes more before rest : List TimeNote} {handle : Nat} {t : Option Nat}

/-- A list and one more element, split at an element: this is the last one, or the list is split at it. -/
theorem eq_or_split_of_concat {x y : TimeNote} (h : more ++ [x] = before ++ y :: rest) :
    (more = before ∧ x = y) ∨ ∃ rest, more = before ++ y :: rest := by
  rcases List.eq_nil_or_concat' rest with rfl | ⟨rest, z, rfl⟩
  · obtain ⟨hmore, hlast⟩ := List.append_inj' h rfl
    exact .inl ⟨hmore, (List.cons.inj hlast).1⟩
  · rw [← List.cons_append, ← List.append_assoc] at h
    exact .inr ⟨rest, (List.append_inj' h rfl).1⟩

theorem Fair.executed_of_split (h : Fair limit start more) (hmore : more = before ++ .executed handle t :: rest) :
    TimeNote.last handle (start ++ before) = some t := by
  induction h generalizing rest with
  | none => exact absurd hmore.symm (List.append_ne_nil_of_right_ne_nil _ (List.cons_ne_nil _ _))
  | given n t' h ih | limited n h hexpiry hnow ih =>
    obtain ⟨-, heq⟩ | ⟨rest, hsplit⟩ := eq_or_split_of_concat hmore
    · cases heq
    · exact ih hsplit
  | executed h htimeout hlimited ih =>
    obtain ⟨rfl, heq⟩ | ⟨rest, hsplit⟩ := eq_or_split_of_concat hmore
    · cases heq
      exact htimeout
    · exact ih hsplit

theorem FairSince.refl : FairSince limit start start :=
  ⟨[], (List.append_nil _).symm, .none⟩

theorem FairSince.given (h : FairSince limit start notes) (handle : Nat) (t : Option Nat) :
    FairSince limit start (notes ++ [.given handle t]) := by
  obtain ⟨more, rfl, hmore⟩ := h
  exact ⟨more ++ [.given handle t], List.append_assoc .., hmore.given handle t⟩

theorem ReadySince.fair (h : ReadySince limit start handle notes) : FairSince limit start notes := by
  obtain ⟨more, hnotes, hmore, -⟩ := h
  exact ⟨more, hnotes, hmore⟩

/-- Without a time limit a handle is ready as it is. -/
theorem FairSince.ready (h : FairSince none start notes) (handle : Nat) : ReadySince none start handle notes := by
  obtain ⟨more, hnotes, hmore⟩ := h
  exact ⟨more, hnotes, hmore, fun hne => absurd rfl hne⟩

theorem FairSince.limited {expiry now : Instant} (h : FairSince limit start notes)
    (hexpiry : limit.bind TimeLimit.expiry? = some expiry) (hnow : now.millis < expiry.millis) :
    ReadySince limit start handle (notes ++ [.limited handle
      (some (TimeLimit.tighten (TimeNote.last handle notes).join (expiry.since now).toNat)) now]) := by
  obtain ⟨more, rfl, hmore⟩ := h
  exact ⟨_, List.append_assoc .., hmore.limited handle hexpiry hnow,
    fun _ => ⟨_, now, List.mem_append_right _ List.mem_cons_self⟩⟩

theorem ReadySince.executed (h : ReadySince limit start handle notes) (hlast : TimeNote.last handle notes = some t) :
    FairSince limit start (notes ++ [.executed handle t]) := by
  obtain ⟨more, rfl, hmore, hlimited⟩ := h
  exact ⟨_, List.append_assoc .., hmore.executed hlast hlimited⟩

end

/-! ### Actions -/

/-- A line whose transaction has the time limit and where what was noted after `start` is fair. -/
abbrev TimelyUnder (times : σ → Nat → Option (Option Nat)) (limit : Option TimeLimit) (start : List TimeNote) :
    Line (Clocked σ) → Prop :=
  Timely times (·.timeLimit = limit) (FairSince limit start)

section
variable {limit : Option TimeLimit} {start : List TimeNote} {handle : Nat} {handles : List Nat}

/-- What is kept of notes under a time limit, and what they have between limiting a handle and executing it. -/
structure Follows (limit : Option TimeLimit) (K : List TimeNote → Prop) (Ready : Nat → List TimeNote → Prop) :
    Prop where
  given : ∀ notes handle t, K notes → K (notes ++ [.given handle t])
  unlimited : limit = none → ∀ notes handle, K notes → Ready handle notes
  limited : ∀ notes handle t expiry now, K notes → TimeNote.last handle notes = some t →
    limit.bind TimeLimit.expiry? = some expiry → now.millis < expiry.millis →
    Ready handle (notes ++ [.limited handle (some (TimeLimit.tighten t (expiry.since now).toNat)) now])
  ready : ∀ notes handle, Ready handle notes → K notes
  executed : ∀ notes handle t, Ready handle notes → TimeNote.last handle notes = some t →
    K (notes ++ [.executed handle t])

theorem follows_fair : Follows limit (FairSince limit start) (ReadySince limit start) where
  given _ handle t h := h.given handle t
  unlimited hnone _ handle h := by
    subst hnone
    exact h.ready handle
  limited notes handle t expiry now h hlast hexpiry hnow := by
    have hlimited : ReadySince limit start handle _ := h.limited hexpiry hnow
    rw [hlast] at hlimited
    exact hlimited
  ready _ _ h := h.fair
  executed _ _ _ h hlast := h.executed hlast

theorem follows_notable {K : List TimeNote → Prop} (hK : Notable K) : Follows limit K fun _ => K where
  given := hK.given
  unlimited _ _ _ h := h
  limited _ _ _ _ _ h hlast _ _ := hK.limited _ _ _ _ _ h hlast
  ready _ _ h := h
  executed := hK.executed

variable {K : List TimeNote → Prop} {Ready : Nat → List TimeNote → Prop}

/-- A call that executes a handle once it is ready. -/
def Runs (times : σ → Nat → Option (Option Nat)) (K : List TimeNote → Prop) (Ready : Nat → List TimeNote → Prop)
    (handle : Nat) (c : Call (Clocked σ) α) : Prop :=
  ∀ handles w, handle ∈ handles → Agrees times handles (Ready handle) w →
    ends c (fun _ => Agrees times handles K) (fun _ => Agrees times handles K) (Agrees times handles K) w

theorem Runs.after {β : Type} {c : Call (Clocked σ) β} {f : β → Call (Clocked σ) α} (hF : Follows limit K Ready)
    (hc : ∀ handles K, Obeys (.always NativeFault (Agrees times handles K)) c)
    (hf : ∀ x, Runs times K Ready handle (f x)) : Runs times K Ready handle (c >>= f) := by
  intro handles w hhandle hw
  exact (hc handles _).thenEnds hw (fun _ _ h => h.mono fun _ => hF.ready _ _)
    (fun _ h => h.mono fun _ => hF.ready _ _) fun x w hw => hf x handles w hhandle hw

variable (hb : b.KeepsTime times)
include hb

/-- An execution runs with the timeout that was noted last for its handle. -/
theorem runs_executed (hF : Follows limit K Ready) {c : Call σ α} (hc : Untimed times c) :
    Runs times K Ready handle (Call.modifyLink (fun r => r.note (.executed handle (b.timeout handle r.link))) >>=
      fun _ => Flow.within Clocked.worldPart c) := by
  intro handles w hhandle hw
  obtain ⟨t, htime, hlast⟩ := hw.kept handle hhandle
  refine agrees_executed hc hw ?_
  rw [hb.timeout, htime]
  exact hF.executed _ _ _ hw.notes hlast

theorem runs_execute (hF : Follows limit K Ready) (values : List Value) (maxRows : Option UInt64) :
    Runs times K Ready handle (Statement.execute b.clocked handle values maxRows) :=
  .after hF (fun _ _ => agrees_lift (hb.clearBindings handle)) fun _ =>
    .after hF (fun _ _ => agrees_bindFrom hb handle 1 values) fun _ =>
      .after hF (fun _ _ => agrees_lift (hb.limitRows handle maxRows)) fun _ => runs_executed hb hF (hb.execute handle)

theorem runs_executeBound (hF : Follows limit K Ready) (values : List Value) :
    Runs times K Ready handle (b.clocked.bindFrom handle 1 values >>= fun _ => b.clocked.execute handle) :=
  .after hF (fun _ _ => agrees_bindFrom hb handle 1 values) fun _ => runs_executed hb hF (hb.execute handle)

/-- A call in time limits its handle first if the time is limited. -/
theorem timely_callInTime (hF : Follows limit K Ready) {c : Call (Clocked σ) α} (hc : Runs times K Ready handle c)
    (sql : String) (parameters : Option String) :
    Obeys (keepingLine (Timely times (·.timeLimit = limit) K)) (callInTime b.clocked handle sql parameters c) := by
  intro d hd
  refine ends_callInTime sql parameters (fun _ => hd) hd fun before hbefore hopen => ?_
  have hhandle : handle ∈ d.line.session.handles := List.contains_iff_mem.1 hopen
  have hleft (w : World (Clocked σ)) (hw : Agrees times d.line.session.handles K w) :
      Timely times (·.timeLimit = limit) K { d.line with world := w } := ⟨hd.given, hd.session, hw⟩
  obtain ⟨hbudget, hsome⟩ := hbefore
  rw [show d.line.session.timeLimit = limit from hd.session] at hbudget
  -- under a deadline, which is still ahead, the handle is limited before the call
  have hready : ends (limitTime b.clocked handle before)
      (fun _ => Agrees times d.line.session.handles (Ready handle))
      (fun _ => Agrees times d.line.session.handles (Ready handle))
      (Agrees times d.line.session.handles (Ready handle)) d.line.world := by
    rcases limit with _ | limit
    · obtain rfl : .unlimited = before := Option.some.inj hbudget
      exact hd.world.mono fun _ => hF.unlimited rfl _ handle
    · obtain ⟨left, hremaining, rfl⟩ := Option.map_eq_some_iff.1 hbudget
      obtain ⟨expiry, hexpiry, rfl⟩ := Option.map_eq_some_iff.1 hremaining
      split
      · next hpositive =>
        have hnow : d.line.world.now.millis < expiry.millis := by
          change 0 < expiry.millis - d.line.world.now.millis at hpositive
          omega
        obtain ⟨t, -, hlast⟩ := hd.world.kept handle hhandle
        have hlimited := hF.limited _ _ _ _ _ hd.world.notes hlast hexpiry hnow
        refine agrees_limitTime hb hhandle hd.world ?_
        rw [hlast]
        exact hlimited
      · next hover => exact absurd (if_neg hover) hsome
  rw [ends_bind]
  refine ends_mono hready (fun _ w hw => ?_) (fun _ w hw => hleft w (hw.mono fun _ => hF.ready _ _))
    fun w hw => hleft w (hw.mono fun _ => hF.ready _ _)
  refine ends_mono (hc d.line.session.handles w hhandle hw) (fun _ w hw => ?_) (fun _ w hw => hleft w hw)
    fun w hw => hleft w hw
  split
  · exact hleft w hw
  · exact hleft w hw

theorem timely_readOut {T : Session → Prop} {m : Cursor.Reading (Clocked σ) α}
    (hm : ∀ {W}, (∀ feed, Obeys (.always NativeFault W) (b.clocked.nextRow feed)) → Cursor.Minds W m) (c : Cursor) :
    Obeys (keepingLine (Timely times T K)) (readOut c m) := by
  intro d hd
  have hleft (s : Cursor × World (Clocked σ)) (hs : Agrees times d.line.session.handles K s.2) :
      Timely times T K { d.line with world := s.2 } := ⟨hd.given, hd.session, hs⟩
  have hread := hm (agrees_nextRow hb) (c, d.line.world) hd.world
  exact (ends_readOut c m).2 (ends_mono hread (fun _ => hleft) (fun _ => hleft) hleft)

theorem timely_handling {T : Session → Prop} {K : List TimeNote → Prop} (hT : Session.Steady T)
    (hK : ∀ notes handle t, K notes → K (notes ++ [.given handle t])) :
    Handling b.clocked (keepingLine (Timely times T K)) where
  setHandle _ := .modify fun _ hd => hd
  setMemo _ _ := .within fun _ hd => hd
  record e := obeys_onLine (Session.timely_record e)
  openHandle sql := obeys_onLine (Session.obeys_checkOpen.bind fun _ => Session.timely_prepareHandle hb hT hK sql)
  release handle sql := obeys_onLine (Session.timely_release hb hT.released handle sql)
  readAll := timely_readOut hb fun h => Cursor.minds_readAll h
  nextRow := timely_readOut hb fun h => Cursor.minds_nextRow h

theorem timely_callByCall (hF : Follows limit K Ready) :
    CallByCall b.clocked (keepingLine (Timely times (·.timeLimit = limit) K)) where
  toHandling := timely_handling hb (.of_apart fun _ _ _ h => h) hF.given
  execute _ sql parameters values maxRows := timely_callInTime hb hF (runs_execute hb hF values maxRows) sql parameters
  executeBound _ sql parameters values := timely_callInTime hb hF (runs_executeBound hb hF values) sql parameters
  recordFailed _ _ _ hd := ⟨hd.given, hd.session, hd.world⟩
  releaseFailed _ handle sql d hd :=
    obeys_onLine (Session.timely_release hb (fun _ _ h => h) handle sql) d hd

theorem timely_perform (hF : Follows limit K Ready) (action : Action) :
    Obeys (keepingLine (Timely times (·.timeLimit = limit) K)) (action.perform b.clocked) :=
  (timely_callByCall hb hF).obeys_perform (fun _ _ _ _ _ hd => hd)
    (fun handle sql shown entries =>
      timely_callInTime hb hF (runs_executed hb hF (hb.executeBatch handle entries)) sql shown) action

/-- What an action does on a session whose notes are kept. -/
theorem timely_own {d : Desk (Clocked σ)} (hd : Timely times (fun _ => True) (fun _ => True) d.line)
    (action : Action) :
    TimelyUnder times d.line.session.timeLimit d.line.world.link.notes
      ((Doing.own action).perform b.clocked d).2.line :=
  ((timely_perform hb follows_fair action).discard d ⟨hd.given, rfl, hd.world.clock, hd.world.kept, .refl⟩).left

end

end Statement

/-! ### Deeds -/

section
variable (hb : b.KeepsTime times)
include hb

/-- Whatever is done with a session, what may be noted is kept, and open handles have the timeouts that were noted
last. -/
theorem Session.timely_deed_of {K : List TimeNote → Prop} (hK : Notable K) (deed : Deed) :
    Obeys (.always Failure (Timely times (fun _ => True) K)) (deed.perform b.clocked) := by
  refine (upholds_timely hb hK).deed (fun l transaction hl => ?_) (fun template page => ?_)
    (fun st memos action => ?_) fun hcloses => ?_
  · exact ⟨⟨hl.given.nodup, hl.given.given⟩, trivial, hl.world⟩
  · exact Statement.obeys_create (Statement.timely_handling hb (.of_apart fun _ _ _ h => h) hK.given) template page
  · refine Statement.obeys_atDesk (fun d hd => ?_) st memos
    have hends := Statement.timely_perform hb (Statement.follows_notable hK) action d ⟨hd.given, rfl, hd.world⟩
    have hleft (d' : Desk (Clocked σ)) (h : Timely times (·.timeLimit = d.line.session.timeLimit) K d'.line) :
        Timely times (fun _ => True) K d'.line := h.mono (fun _ _ => trivial) fun _ h => h
    exact ends_mono hends (fun _ => hleft) (fun _ => hleft) hleft
  · cases deed with
    | terminate => exact (upholds_timely hb hK).terminate abandons_timely
    | drop => exact (upholds_timely hb hK).drop abandons_timely
    | _ => cases hcloses

theorem Session.timely_deed (deed : Deed) :
    Obeys (.always Failure (Timely times (fun _ => True) fun _ => True)) (deed.perform b.clocked) :=
  timely_deed_of hb notable_true deed

theorem Statement.timely_doing {d : Desk (Clocked σ)} (hd : Timely times (fun _ => True) (fun _ => True) d.line)
    (doing : Doing) : Timely times (fun _ => True) (fun _ => True) (doing.perform b.clocked d).2.line := by
  cases doing with
  | own action => exact (timely_own hb hd action).mono (fun _ _ => trivial) fun _ _ => trivial
  | other deed => exact (obeys_onLine (Session.timely_deed hb deed) d hd).left

end

namespace Statement

/-- What happens beside leaves the session, the timeouts and the notes. Time may pass, and the database may change
in any other way. -/
structure Meantime (times : σ → Nat → Option (Option Nat)) (l l' : Line (Clocked σ)) : Prop where
  session : l'.session = l.session
  times : times l'.world.link.link = times l.world.link.link
  notes : l'.world.link.notes = l.world.link.notes
  clock : l'.world.link.clock = l'.world.now

theorem Meantime.timely {T : Session → Prop} {K : List TimeNote → Prop} {l l' : Line (Clocked σ)}
    (h : Meantime times l l') (hl : Timely times T K l) : Timely times T K l' := by
  obtain ⟨hsession, htimes, hnotes, hclock⟩ := h
  refine ⟨hsession ▸ hl.given, hsession ▸ hl.session, hclock, ?_, hnotes ▸ hl.world.notes⟩
  rw [hsession, htimes, hnotes]
  exact hl.world.kept

/-- A session is started on a database that keeps timeouts, anything is done with it before a statement is created,
and then with the statement and, in between, with the session and other statements, transactions with and without
deadlines included. Timeouts are noted, which changes nothing. What each action on the statement adds to the notes is
fair under the time limit that its transaction has. So it executes handles with the timeouts that were noted last for
them, and as long as a handle was not limited that is the timeout that it was given when it was prepared. -/
theorem timeouts_followed (hb : b.KeepsTime times) {name : String} {settings : Settings} {fresh l l' : Line (Clocked σ)}
    (hfresh : fresh.session = .start name settings) (hclock : fresh.world.link.clock = fresh.world.now)
    {earlier : List (NamedSql.Turn (Line (Clocked σ)) Session.Deed)}
    (hearlier : ∀ change, .meanwhile change ∈ earlier → ∀ l, Meantime times l (change l))
    {before : List (NamedSql.Played Failure (Line (Clocked σ)) Session.Deed Unit)}
    (hbefore : play (Session.Deed.perform b.clocked) earlier fresh = (before, l)) {t : Template} {page : Option Page}
    {st : Statement} (hcreate : create b.clocked t page l = (.done st, l'))
    {turns : List (NamedSql.Turn (Desk (Clocked σ)) Doing)}
    (hturns : ∀ change, .meanwhile change ∈ turns → ∀ d, Meantime times d.line (change d).line) {memos : List Memo}
    {last : Desk (Clocked σ)} {played : List (NamedSql.Played Failure (Desk (Clocked σ)) Doing Unit)}
    (h : play (Doing.perform b.clocked) turns ⟨st, memos, l'⟩ = (played, last)) :
    ∀ p ∈ played, p.action.perform b (p.found.onto Clocked.link) = (p.outcome, p.left.onto Clocked.link) ∧
      ∀ action, p.action = .own action → ∃ more,
        p.left.line.world.link.notes = p.found.line.world.link.notes ++ more ∧
        Fair p.found.line.session.timeLimit p.found.line.world.link.notes more ∧
        ∀ front handle timeout rest, more = front ++ .executed handle timeout :: rest →
          TimeNote.last handle (p.found.line.world.link.notes ++ front) = some timeout ∧
          ((∀ t now, .limited handle t now ∉ p.found.line.world.link.notes ++ front) →
            .given handle timeout ∈ p.found.line.world.link.notes ++ front) := by
  have hstart : Timely times (fun _ => True) (fun _ => True) fresh := by
    refine ⟨hfresh ▸ Session.given_start name settings, trivial, hclock, ?_, trivial⟩
    rw [hfresh]
    exact List.forall_mem_nil _
  have hcreated (hl : Timely times (fun _ => True) (fun _ => True) l) :
      Timely times (fun _ => True) (fun _ => True) l' := by
    have hends := obeys_create (timely_handling hb (.of_apart fun _ _ _ h => h) fun _ _ _ h => h) t page l hl
    unfold ends at hends
    rw [hcreate] at hends
    exact hends
  intro p hp
  obtain ⟨hhonest, hfound, -⟩ := Doing.keeps_play
    (J := fun d : Desk (Clocked σ) => Timely times (fun _ => True) (fun _ => True) d.line) hstart
    (fun deed l hl => (Session.timely_deed hb deed l hl).left)
    (fun change hchange l hl => (hearlier change hchange l).timely hl) hbefore hcreated
    (fun doing d hd => timely_doing hb hd doing) (fun change hchange d hd => (hturns change hchange d).timely hd) h p hp
  refine ⟨(p.action.alike_perform b.alike_clocked).image Desk.alike_onto_iff hhonest, fun action haction => ?_⟩
  have hleft := timely_own hb hfound action
  rw [← haction, hhonest.left_eq] at hleft
  obtain ⟨more, hnotes, hfair⟩ := hleft.world.notes
  refine ⟨more, hnotes, hfair, fun front handle timeout rest hmore => ?_⟩
  have hlast := hfair.executed_of_split hmore
  exact ⟨hlast, TimeNote.given_of_last hlast⟩

def timedTemplate : Template :=
  ⟨"SELECT 1", '\\', "SELECT 1".toList.map .sql⟩

/-- Every handle is given five seconds. -/
def timedLine : Line (Clocked Script) :=
  ⟨.start "main" .default, ⟨⟨{ Script.empty with defaultTimeout := some 5000 }, .epoch, []⟩, .epoch⟩, []⟩

def passTime (now : Instant) (d : Desk (Clocked Script)) : Desk (Clocked Script) :=
  { d with line := { d.line with world := { link := { d.line.world.link with clock := now }, now } } }

/-- A transaction without a deadline, and one that has more than five seconds left at first and then less. -/
def timedTurns : List (NamedSql.Turn (Desk (Clocked Script)) Doing) :=
  [.act (.other (.begin none)), .act (.own .retrieve), .act (.other .commit), .meanwhile (passTime ⟨1000⟩),
    .act (.other (.begin (some 10))), .act (.own .retrieve), .meanwhile (passTime ⟨8000⟩), .act (.own .retrieve),
    .act (.other .rollback)]

/-- The notes of the handle that the statement holds. -/
def heldNotes (d : Desk (Clocked Script)) : List TimeNote :=
  d.line.world.link.notes.filter fun
    | .given n _ | .limited n _ _ | .executed n _ => some n = d.statement.handle.map Prod.fst

theorem timeouts_followed_of_two : ∃ before l st l' played last,
    play (Session.Deed.perform Script.streaming.clocked) [.act .ping] timedLine = (before, l) ∧
    create Script.streaming.clocked timedTemplate none l = (.done st, l') ∧
    play (Doing.perform Script.streaming.clocked) timedTurns ⟨st, [], l'⟩ = (played, last) ∧
    heldNotes last = [.given 1 (some 5000), .executed 1 (some 5000), .limited 1 (some 5000) ⟨1000⟩,
      .executed 1 (some 5000), .limited 1 (some 3000) ⟨8000⟩, .executed 1 (some 3000)] ∧
    ∀ p ∈ played, ∀ action, p.action = .own action → ∃ more,
      p.left.line.world.link.notes = p.found.line.world.link.notes ++ more ∧
      Fair p.found.line.session.timeLimit p.found.line.world.link.notes more := by
  obtain ⟨before, l, st, l', played, last, hbefore, hcreate, hplay, hnotes⟩ : ∃ before l st l' played last,
      play (Session.Deed.perform Script.streaming.clocked) [.act .ping] timedLine = (before, l) ∧
      create Script.streaming.clocked timedTemplate none l = (.done st, l') ∧
      play (Doing.perform Script.streaming.clocked) timedTurns ⟨st, [], l'⟩ = (played, last) ∧
      heldNotes last = [.given 1 (some 5000), .executed 1 (some 5000), .limited 1 (some 5000) ⟨1000⟩,
        .executed 1 (some 5000), .limited 1 (some 3000) ⟨8000⟩, .executed 1 (some 3000)] :=
    ⟨_, _, _, _, _, _, rfl, rfl, rfl, by decide +kernel⟩
  refine ⟨before, l, st, l', played, last, hbefore, hcreate, hplay, hnotes, fun p hp action haction => ?_⟩
  have hearlier : ∀ change, .meanwhile change ∈ [NamedSql.Turn.act Session.Deed.ping] →
      ∀ l : Line (Clocked Script), Meantime Script.times l (change l) := by
    intro change hchange
    cases List.mem_singleton.1 hchange
  have hturns : ∀ change, .meanwhile change ∈ timedTurns → ∀ d, Meantime Script.times d.line (change d).line := by
    intro change hchange d
    simp only [timedTurns, List.mem_cons, reduceCtorEq, Turn.meanwhile.injEq, List.not_mem_nil, or_false,
      false_or] at hchange
    rcases hchange with rfl | rfl
    · exact ⟨rfl, rfl, rfl, rfl⟩
    · exact ⟨rfl, rfl, rfl, rfl⟩
  obtain ⟨more, hmore, hfair, -⟩ :=
    (timeouts_followed Script.keepsTime_streaming rfl rfl hearlier hbefore hcreate hturns hplay p hp).2 action haction
  exact ⟨more, hmore, hfair⟩

/-- The handle is limited to three seconds in a transaction. It also runs with three seconds, and not with the five that
it was given, when the transaction is committed and there is none. -/
theorem timeout_stays_short : ∃ st l' played last,
    create Script.streaming.clocked timedTemplate none timedLine = (.done st, l') ∧
    play (Doing.perform Script.streaming.clocked)
      [.act (.other (.begin (some 3))), .act (.own .retrieve), .act (.other .commit), .act (.own .retrieve)]
      ⟨st, [], l'⟩ = (played, last) ∧
    last.line.session.transaction = none ∧
    heldNotes last = [.given 0 (some 5000), .limited 0 (some 3000) .epoch, .executed 0 (some 3000),
      .executed 0 (some 3000)] :=
  ⟨_, _, _, _, rfl, rfl, by decide +kernel, by decide +kernel⟩

end Statement

end NamedSql
