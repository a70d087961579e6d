import NamedSql.Backend.Script
import NamedSql.Proofs.Direct
import NamedSql.Proofs.Steady
import NamedSql.Proofs.Turns

/-!
# Transactions

A transaction that began with success is one that the session knows of until it tries to end it, so
between two of them there is an attempt to end the first one (`begins_paired`). Beginning is not all or
nothing, however: it may fail after its statement was executed, and then nobody will end the transaction
(`begin_half_done`).
-/

namespace NamedSql

open NamedSql.Flow

variable {σ α : Type} {b : Backend σ}

namespace Session

/-! ### What beginning does -/

/-- The calls of beginning that gets as far as executing its statement, if the vendor has one. -/
def Begins (s : Session) (calls : List Watch) : Prop :=
  match s.vendor.beginSql? with
  | some sql => Runs sql s.nextHandle calls ∧ Executed calls
  | none => calls = []

/-- The calls of beginning, however far it gets. -/
def Tries (s : Session) (calls : List Watch) : Prop :=
  calls = [] ∨ (s.inTransaction = false ∧ ∃ sql ∈ s.vendor.beginSql?, Runs sql s.nextHandle calls)

theorem Begins.tries {s : Session} {calls : List Watch} (h : Begins s calls) (hs : s.inTransaction = false) :
    Tries s calls := by
  unfold Begins at h
  split at h
  · next sql hsql => exact .inr ⟨hs, sql, hsql, h.1⟩
  · exact .inl h

/-- What beginning leaves when it succeeds. -/
structure Began (l l' : Line (Watched σ)) : Prop where
  before : l.session.inTransaction = false
  after : l'.session.inTransaction = true
  terminated : l'.session.terminated = false
  calls : Since (Begins l.session) l.world.link.seen l'.world

/-- What beginning leaves when it fails. If the statement was executed, it was an error of the database. -/
abbrev Gave (l : Line (Watched σ)) (e : Failure) : Line (Watched σ) → Prop :=
  After (fun calls => Tries l.session calls ∧
    (Executed calls → ∃ sql fault, e = l.session.vendor.failure sql none fault)) l.session l.world.link.seen

theorem not_executed_nil : ¬ Executed [] := fun ⟨_, _, h⟩ => absurd h List.not_mem_nil

theorem ends_begin (seconds : Option Int) (l : Line (Watched σ)) :
    ends (begin b.watched seconds) (fun _ => Began l) (Gave l) (After (Tries l.session) l.session l.world.link.seen)
      l := by
  have hrefl : SameTransaction l.session l.session := .refl _
  have hearly (e : Failure) : Gave l e l :=
    ⟨hrefl, Since.refl ⟨.inl rfl, fun h => absurd h not_executed_nil⟩⟩
  unfold begin
  rw [ends_bind, ends_checkOpen]
  split
  · exact hearly _
  next hover =>
  rw [ends_bind, Dialog.session, ends_read]
  extract_lets seconds enter limit ask
  clear_value seconds
  -- the expiry is computed when the statement has been executed
  have hlimit (hbefore : l.session.inTransaction = false) (l' : Line (Watched σ))
      (hl' : After (Begins l.session) l.session l.world.link.seen l') :
      ends (limit ()) (fun _ => Began l) (Gave l) (After (Tries l.session) l.session l.world.link.seen) l' := by
    have henter (t : Option TimeLimit) : ends (enter t) (fun _ => Began l) (Gave l)
        (After (Tries l.session) l.session l.world.link.seen) l' :=
      ⟨hbefore, rfl, hl'.session.terminated.trans (Bool.eq_false_iff.2 hover), hl'.world⟩
    show ends (Dialog.now >>= _) _ _ _ l'
    rw [ends_bind, Dialog.now, ends_read]
    cases seconds with
    | none => exact henter none
    | some n =>
      rw [ends_bind, ends_ofCalendar]
      split
      · exact henter _
      · exact ⟨hl'.session, hl'.world.mono fun _ hcalls => hcalls.tries hbefore⟩
  have hask : ends (ask ()) (fun _ => Began l) (Gave l) (After (Tries l.session) l.session l.world.link.seen) l := by
    show ends (Flow.require (!l.session.inTransaction) _ >>= _) _ _ _ l
    rw [ends_bind, ends_require]
    split
    · next hopen =>
      have hbefore : l.session.inTransaction = false := Bool.not_eq_true' _ ▸ hopen
      split
      · next sql hsql =>
        have htries {calls : List Watch} (hcalls : Runs sql l.session.nextHandle calls) : Tries l.session calls :=
          .inr ⟨hbefore, sql, hsql, hcalls⟩
        rw [ends_bind]
        refine (ends_map _ _).2 ((ends_run (Bool.eq_false_iff.2 hover)).2 ?_)
        refine ends_mono (ends_runUnchecked sql l) (fun _ l' hl' => hlimit hbefore l' ?_) (fun e l' hl' => ?_)
          fun l' hl' => ⟨hl'.session, hl'.world.mono fun _ => htries⟩
        · refine ⟨hl'.session, hl'.world.mono fun calls hcalls => ?_⟩
          unfold Begins
          rw [hsql]
          exact hcalls
        · refine ⟨hl'.session, hl'.world.mono fun calls hcalls => ⟨htries hcalls.1, fun hexecuted => ?_⟩⟩
          exact ⟨sql, hcalls.2 hexecuted⟩
      · next hsql =>
        have hnone : Begins l.session [] := by
          unfold Begins
          rw [hsql]
        exact hlimit hbefore l ⟨hrefl, Since.refl hnone⟩
    · exact hearly _
  cases seconds with
  | none => exact hask
  | some n =>
    rw [ends_bind, ends_ofExcept]
    split
    · exact hask
    · exact hearly _

/-! ### What ends a transaction -/

/-- A session that is over has no transaction. -/
def Settled (s : Session) : Prop :=
  s.terminated = true → s.inTransaction = false

theorem settled_start (name : String) (settings : Settings) : Settled (start name settings) := fun _ => rfl

def AsksEnd (calls : List Watch) : Prop :=
  ∃ x ∈ calls, ∃ handle, x.request = .prepare handle "COMMIT" ∨ x.request = .prepare handle "ROLLBACK"

/-- A transaction that runs goes on, or this is meant to end it and its end is asked for. -/
structure Minds (ending : Bool) (l l' : Line (Watched σ)) : Prop where
  settled : Settled l.session → Settled l'.session
  going : Settled l.session → l.session.inTransaction = true →
    l'.session.inTransaction = true ∨ (ending = true ∧ Since AsksEnd l.world.link.seen l'.world)

theorem SameTransaction.minds {ending : Bool} {l l' : Line (Watched σ)}
    (h : SameTransaction l.session l'.session) : Minds ending l l' := by
  have hsame : l'.session.inTransaction = l.session.inTransaction := congrArg Option.isSome h.transaction
  refine ⟨fun hl hterminated => ?_, fun _ hgoing => .inl (hsame.trans hgoing)⟩
  rw [hsame]
  exact hl (h.terminated.symm.trans hterminated)

theorem Began.minds {ending : Bool} {l l' : Line (Watched σ)} (h : Began l l') : Minds ending l l' := by
  refine ⟨fun _ hterminated => ?_, fun _ hgoing => ?_⟩
  · rw [h.terminated] at hterminated
    cases hterminated
  · rw [h.before] at hgoing
    cases hgoing

theorem asksEnd_of_runs {sql : String} (hsql : sql = "COMMIT" ∨ sql = "ROLLBACK") {handle : Nat}
    {calls : List Watch} (h : Runs sql handle calls) : AsksEnd calls := by
  obtain ⟨x, hx, hasked⟩ := h.asked
  refine ⟨x, hx, handle, ?_⟩
  rcases hsql with rfl | rfl
  · exact .inl hasked
  · exact .inr hasked

theorem Minds.of_over {l l' : Line (Watched σ)} (hover : l'.session.transaction = none)
    (hasks : Settled l.session → l.session.inTransaction = true → Since AsksEnd l.world.link.seen l'.world) :
    Minds true l l' :=
  ⟨fun _ _ => congrArg Option.isSome hover, fun hl hgoing => .inr ⟨rfl, hasks hl hgoing⟩⟩

theorem minds_finish {sql : String} (hsql : sql = "COMMIT" ∨ sql = "ROLLBACK") (l : Line (Watched σ)) :
    ends (finish b.watched sql) (fun _ => Minds true l) (fun _ => Minds true l) (Minds true l) l := by
  unfold finish
  rw [ends_bind, Dialog.session, ends_read, ends_bind, ends_require]
  split
  · next hgoing =>
    rw [ends_bind, Dialog.modifySession, ends_modify, ends_bind, Dialog.record, ends_modify]
    refine (ends_map _ _).2 ?_
    by_cases hover : l.session.terminated = true
    · -- the session says nothing to the database any more, but then it had no transaction
      unfold run
      rw [ends_bind, ends_checkOpen]
      refine (if_pos hover).mpr (.of_over rfl fun hl _ => ?_)
      exact absurd (hl hover) (Bool.eq_false_iff.1 · hgoing)
    · have hran {K : List Watch → Prop} (hK : ∀ calls, K calls → Runs sql l.session.nextHandle calls)
          {l₁ : Line (Watched σ)} (hl₁ : l₁.session.transaction = none) (l' : Line (Watched σ))
          (hl' : After K l₁.session l.world.link.seen l') : Minds true l l' :=
        .of_over (hl'.session.transaction.trans hl₁) fun _ _ =>
          hl'.world.mono fun calls hcalls => asksEnd_of_runs hsql (hK calls hcalls)
      refine (ends_run (by exact Bool.eq_false_iff.2 hover)).2 ?_
      refine ends_mono (ends_runUnchecked sql _) (fun _ l' hl' => ?_) (fun _ l' hl' => ?_) fun l' hl' => ?_
      · exact hran (fun _ => And.left) rfl l' hl'
      · exact hran (fun _ => And.left) rfl l' hl'
      · exact hran (fun _ h => h) rfl l' hl'
  · exact (SameTransaction.refl _).minds

theorem AsksEnd.append {calls : List Watch} (h : AsksEnd calls) (more : List Watch) : AsksEnd (calls ++ more) := by
  obtain ⟨x, hx, hasked⟩ := h
  exact ⟨x, List.mem_append_left more hx, hasked⟩

theorem minds_terminate (l : Line (Watched σ)) :
    ends (terminate b.watched) (fun _ => Minds true l) (fun _ => Minds true l) (Minds true l) l := by
  unfold terminate
  rw [ends_bind, Dialog.session, ends_read]
  split
  · next hopen =>
    rw [ends_bind, Dialog.modifySession, ends_modify]
    extract_lets finish
    -- whatever holds of the calls so far also holds after handles are closed
    have hfinish {W : World (Watched σ) → Prop}
        (hW : ∀ handle, Obeys (.always NativeFault W) (b.watched.close handle))
        (r : Except Failure (Option (List Value))) :
        Obeys (.always Failure (Line.Has (fun s => s.transaction = none) W)) (finish r) := by
      refine (Obeys.read _).bind fun s => ?_
      extract_lets handles
      refine (Dialog.has_modifySession (f := fun s => { s with handles := [] }) fun s hs => hs).bind fun _ => ?_
      refine (Dialog.has_record _).bind fun _ => (has_closeAll hW _ _).bind fun first => ?_
      cases first with
      | none => exact .pure _
      | some e => exact .fail _
    have hclose {K : List Watch → Prop} (hK : ∀ calls more, K calls → K (calls ++ more)) (handle : Nat) :
        Obeys (.always NativeFault (Since K l.world.link.seen)) (b.watched.close handle) :=
      (asks_close (R := fun _ => True) trivial).keeps (fun calls more h _ => hK calls more h) l.world.link.seen
    split
    · have hleft (l' : Line (Watched σ))
          (hl' : Line.Has (fun s => s.transaction = none) (Since AsksEnd l.world.link.seen) l') : Minds true l l' :=
        .of_over hl'.session fun _ _ => hl'.world
      have hasked {K : List Watch → Prop} (hK : ∀ calls, K calls → Runs "ROLLBACK" l.session.nextHandle calls)
          {s : Session} (hs : s.transaction = none) (r : Except Failure (Option (List Value)))
          (l' : Line (Watched σ)) (hl' : After K s l.world.link.seen l') :
          ends (finish r) (fun _ => Minds true l) (fun _ => Minds true l) (Minds true l) l' := by
        have hasks : Since AsksEnd l.world.link.seen l'.world :=
          hl'.world.mono fun calls hcalls => asksEnd_of_runs (.inr rfl) (hK calls hcalls)
        exact ends_mono (hfinish (hclose fun _ more h => h.append more) r l'
          ⟨hl'.session.transaction.trans hs, hasks⟩) (fun _ => hleft) (fun _ => hleft) hleft
      rw [ends_bind, ends_attempt]
      refine ends_mono (ends_runUnchecked "ROLLBACK" _) (fun row l' hl' => ?_) (fun e l' hl' => ?_) fun l' hl' => ?_
      · exact hasked (fun _ => And.left) rfl (.ok row) l' hl'
      · exact hasked (fun _ => And.left) rfl (.error e) l' hl'
      · exact .of_over (hl'.session.transaction.trans rfl) fun _ _ =>
          hl'.world.mono fun calls hcalls => asksEnd_of_runs (.inr rfl) hcalls
    · next hnone =>
      have hleft (l' : Line (Watched σ))
          (hl' : Line.Has (fun s => s.transaction = none) (Since (fun _ => True) l.world.link.seen) l') :
          Minds true l l' :=
        .of_over hl'.session fun _ hgoing => absurd hgoing hnone
      rw [ends_bind, ends_pure]
      exact ends_mono (hfinish (hclose fun _ _ _ => trivial) (.ok none) _ ⟨rfl, Since.refl trivial⟩)
        (fun _ => hleft) (fun _ => hleft) hleft
  · exact (SameTransaction.refl _).minds

theorem minds_drop (l : Line (Watched σ)) :
    ends (drop b.watched) (fun _ => Minds true l) (fun _ => Minds true l) (Minds true l) l := by
  have hrecorded (e : Event) (l' : Line (Watched σ)) (hl' : Minds true l l') :
      Minds true l { l' with log := l'.log ++ [e] } :=
    ⟨hl'.settled, hl'.going⟩
  unfold drop
  rw [ends_bind, ends_attempt]
  exact ends_mono (minds_terminate l) (fun _ _ h => h) (fun e l' hl' => hrecorded _ l' hl') fun _ h => h

theorem steady_sameTransaction (s : Session) : Steady (SameTransaction s) :=
  .of_apart fun _ _ _ h => ⟨h.transaction, h.terminated, h.settings⟩

/-! ### Deeds -/

/-- What can be done with a session, statements on it included. -/
inductive Deed where
  | begin (seconds : Option Int)
  | commit
  | rollback
  | terminate
  | drop
  | ping
  | nextValue (sequence : String)
  | create (template : Template) (page : Option Page)
  | act (st : Statement) (memos : List Memo) (action : Statement.Action)

namespace Deed

def perform (b : Backend σ) : Deed → Dialog σ Unit
  | begin seconds => Session.begin b seconds
  | commit => Session.commit b
  | rollback => Session.rollback b
  | terminate => Session.terminate b
  | drop => Session.drop b
  | ping => Session.ping b
  | nextValue sequence => discard <| Session.nextValue b sequence
  | create template page => discard <| Statement.create b template page
  | act st memos action => fun l =>
    match action.perform b ⟨st, memos, l⟩ with
    | (r, d) => (r.map fun _ => (), d.line)

def ends : Deed → Bool
  | commit | rollback | terminate | drop => true
  | _ => false

/-- Whether it closes the session. -/
def closes : Deed → Bool
  | terminate | drop => true
  | _ => false

end Deed

/-- What the parts of deeds keep is kept by all of them, those apart that close the session. -/
theorem Upholds.deed {I : Line σ → Prop} (h : Upholds b I)
    (htransaction : ∀ (l : Line σ) transaction, I l → I { l with session := { l.session with transaction } })
    (hcreate : ∀ template page, Obeys (.always Failure I) (Statement.create b template page))
    (hact : ∀ st memos action, Obeys (.always Failure I) ((Deed.act st memos action).perform b)) {deed : Deed}
    (hcloses : deed.closes = true → Obeys (.always Failure I) (deed.perform b)) :
    Obeys (.always Failure I) (deed.perform b) := by
  cases deed with
  | begin seconds => exact h.begin htransaction seconds
  | commit => exact h.finish htransaction _
  | rollback => exact h.finish htransaction _
  | terminate | drop => exact hcloses rfl
  | ping => exact h.ping
  | nextValue sequence => exact (h.nextValue sequence).discard
  | create template page => exact (hcreate template page).discard
  | act st memos action => exact hact st memos action

theorem minds_perform (deed : Deed) (l : Line (Watched σ)) :
    Flow.ends (deed.perform b.watched) (fun _ => Minds deed.ends l) (fun _ => Minds deed.ends l) (Minds deed.ends l)
      l := by
  have hstart : Line.Has (SameTransaction l.session) (fun _ => True) l := ⟨.refl _, trivial⟩
  have hsteady : Steady (SameTransaction l.session) := steady_sameTransaction l.session
  have hupheld : Upholds b.watched (Line.Has (SameTransaction l.session) fun _ => True) :=
    .has hsteady (.trivially _)
  have hkept (m : Dialog (Watched σ) Unit)
      (hm : Obeys (.always Failure (Line.Has (SameTransaction l.session) fun _ => True)) m) :
      Flow.ends m (fun _ => Minds false l) (fun _ => Minds false l) (Minds false l) l :=
    ends_mono (hm l hstart) (fun _ _ h => h.session.minds) (fun _ _ h => h.session.minds) fun _ h => h.session.minds
  cases deed with
  | begin seconds =>
    exact ends_mono (ends_begin seconds l) (fun _ _ h => h.minds) (fun _ _ h => h.session.minds)
      fun _ h => h.session.minds
  | commit => exact minds_finish (.inl rfl) l
  | rollback => exact minds_finish (.inr rfl) l
  | terminate => exact minds_terminate l
  | drop => exact minds_drop l
  | ping => exact hkept _ hupheld.ping
  | nextValue sequence => exact hkept _ (hupheld.nextValue sequence).discard
  | create template page => exact hkept _ (Statement.has_create hsteady _ template page).discard
  | act st memos action =>
    exact hkept _ (Statement.has_atDesk (Statement.has_perform hsteady _ action) st memos)

/-! ### Histories -/

abbrev Done (σ : Type) := Played Failure (Line σ) Deed Unit

def calls (p : Done (Watched σ)) : List Watch :=
  p.left.world.link.seen.drop p.found.world.link.seen.length

/-- The deed began a transaction on the database, whatever the session made of it. -/
def BeginsThere (p : Done (Watched σ)) : Prop :=
  (∃ seconds, p.action = .begin seconds) ∧ Executed (calls p)

/-- The deed tried to end the transaction. -/
def TriesToEnd (p : Done (Watched σ)) : Prop :=
  p.action.ends = true ∧ AsksEnd (calls p)

theorem calls_of_since {p : Done (Watched σ)} {K : List Watch → Prop}
    (h : Since K p.found.world.link.seen p.left.world) : K (calls p) := by
  obtain ⟨calls, hseen, hcalls⟩ := h
  unfold Session.calls
  rw [hseen, List.drop_left]
  exact hcalls

theorem Tries.not_asksEnd {s : Session} {calls : List Watch} (h : Tries s calls) : ¬ AsksEnd calls := by
  rintro ⟨x, hx, handle, hasked⟩
  obtain rfl | ⟨-, sql, hsql, hruns⟩ := h
  · exact absurd hx List.not_mem_nil
  · have hbegin : sql ≠ "COMMIT" ∧ sql ≠ "ROLLBACK" := by
      cases hv : s.vendor <;> rw [hv] at hsql <;> cases hsql <;> decide
    have hdirect := hruns.only x hx
    rcases hasked with hasked | hasked <;> rw [hasked] at hdirect
    · exact hbegin.1 hdirect.2.symm
    · exact hbegin.2 hdirect.2.symm

section
variable {p : Done (Watched σ)} {l last : Line (Watched σ)} {turns : List (Turn (Line (Watched σ)) Deed)}
  {played : List (Done (Watched σ))}

theorem minds_of_honest (h : p.Honest (Deed.perform b.watched)) : Minds p.action.ends p.found p.left := by
  have hleft := (minds_perform (b := b) p.action p.found).left
  rwa [h.left_eq] at hleft

theorem begin_of_honest (h : p.Honest (Deed.perform b.watched)) {seconds : Option Int}
    (haction : p.action = .begin seconds) :
    match p.outcome with
    | .done _ => Began p.found p.left
    | .failed e => Gave p.found e p.left
    | .overflow => After (Tries p.found.session) p.found.session p.found.world.link.seen p.left := by
  have hends := ends_begin (b := b) seconds p.found
  have hperform : begin b.watched seconds p.found = (p.outcome, p.left) := by
    unfold Played.Honest at h
    rw [haction] at h
    exact h
  unfold Flow.ends at hends
  rw [hperform] at hends
  rcases hr : p.outcome with _ | _ | _ <;> rw [hr] at hends <;> exact hends

/-- No transaction is begun while another one runs. -/
theorem BeginsThere.found (hp : BeginsThere p) (h : p.Honest (Deed.perform b.watched)) :
    p.found.session.inTransaction = false := by
  obtain ⟨⟨seconds, haction⟩, hexecuted⟩ := hp
  have hbegin := begin_of_honest h haction
  have htried (hcalls : Tries p.found.session (calls p)) : p.found.session.inTransaction = false := by
    obtain hnone | ⟨hfound, -⟩ := hcalls
    · rw [hnone] at hexecuted
      exact absurd hexecuted not_executed_nil
    · exact hfound
  split at hbegin
  · exact hbegin.before
  · exact htried (calls_of_since hbegin.world).1
  · exact htried (calls_of_since hbegin.world)

/-- A transaction goes on as long as nobody tries to end it. -/
theorem going_of_play (hturns : ∀ change, .meanwhile change ∈ turns → ∀ l, (change l).session = l.session)
    (h : play (Deed.perform b.watched) turns l = (played, last)) (hl : Settled l.session)
    (hgoing : l.session.inTransaction = true) (hnone : ∀ e ∈ played, ¬ TriesToEnd e) :
    last.session.inTransaction = true := by
  have hkept := play_keeps (I := fun l => Settled l.session ∧ l.session.inTransaction = true)
    (fun p hp hhonest _ hfound => ?_) (fun change hchange l hl => ?_) ⟨hl, hgoing⟩ h
  · exact hkept.2.2
  · have hminds := minds_of_honest hhonest
    refine ⟨hminds.settled hfound.1, ?_⟩
    obtain hleft | ⟨hending, hasks⟩ := hminds.going hfound.1 hfound.2
    · exact hleft
    · exact absurd ⟨hending, calls_of_since hasks⟩ (hnone p hp)
  · show Settled (change l).session ∧ (change l).session.inTransaction = true
    rw [hturns change hchange l]
    exact hl

theorem settled_of_play (hturns : ∀ change, .meanwhile change ∈ turns → ∀ l, (change l).session = l.session)
    (h : play (Deed.perform b.watched) turns l = (played, last)) (hl : Settled l.session) :
    ∀ p ∈ played, Settled p.left.session := by
  have hkept := play_keeps (I := fun l => Settled l.session)
    (fun p _ hhonest _ => (minds_of_honest hhonest).settled) (fun change hchange l hl => ?_) hl h
  · exact fun p hp => (hkept.1 p hp).2
  · show Settled (change l).session
    rw [hturns change hchange l]
    exact hl

end

theorem Deed.alike_perform {τ : Type} {r : σ → τ → Prop} {c : Backend τ} (h : b.Alike r c) (deed : Deed) :
    Flow.Alike (Line.Alike r) (deed.perform b) (deed.perform c) := by
  cases deed with
  | begin seconds => exact alike_begin h seconds
  | commit => exact alike_finish h _
  | rollback => exact alike_finish h _
  | terminate => exact alike_terminate h
  | drop => exact alike_drop h
  | ping => exact alike_ping h
  | nextValue sequence => exact (alike_nextValue h sequence).discard
  | create template page => exact (Statement.alike_create h template page).discard
  | act st memos action =>
    intro l v hlv
    have hdesk : Desk.Alike r ⟨st, memos, l⟩ ⟨st, memos, v⟩ := ⟨rfl, rfl, hlv⟩
    obtain ⟨hr, hd⟩ := Statement.alike_perform h action hdesk
    exact ⟨congrArg (Outcome.map fun _ => ()) hr, hd.line⟩

theorem Deed.perform_unwatched (deed : Deed) {l l' : Line (Watched σ)} {r : Outcome Failure Unit}
    (h : deed.perform b.watched l = (r, l')) : deed.perform b l.unwatched = (r, l'.unwatched) :=
  (deed.alike_perform b.alike_watched).image Line.alike_unwatched_iff h

/-- A session is watched, which changes nothing, and what happens beside its deeds leaves the session alone.
Beginning that returns has executed its statement, if the vendor has one, and the session is in a
transaction. Beginning that does not return leaves the session as it was, and no end is asked for, even if
its statement was executed; what fails then is an error of the database. In a history where no transaction
was begun by such failures there is an attempt to end between any two transactions that were begun, and a
session is in the transaction that was begun until someone tries to end it. -/
theorem begins_paired (b : Backend σ) {l last : Line (Watched σ)} (hl : Settled l.session)
    {turns : List (Turn (Line (Watched σ)) Deed)}
    (hturns : ∀ change, .meanwhile change ∈ turns → ∀ l, (change l).session = l.session)
    {played : List (Done (Watched σ))} (h : play (Deed.perform b.watched) turns l = (played, last)) :
    (∀ p ∈ played, p.action.perform b p.found.unwatched = (p.outcome, p.left.unwatched) ∧
      ∀ seconds, p.action = .begin seconds →
        (p.outcome = .done () → p.left.session.inTransaction = true ∧ Begins p.found.session (calls p)) ∧
        (p.outcome ≠ .done () → p.left.session.transaction = p.found.session.transaction ∧
          ¬ AsksEnd (calls p) ∧ ∀ e, p.outcome = .failed e → Executed (calls p) →
            ∃ sql fault, e = p.found.session.vendor.failure sql none fault)) ∧
    ((∀ p ∈ played, BeginsThere p → p.outcome = .done ()) →
      (∀ front p middle q back, played = front ++ p :: (middle ++ q :: back) → BeginsThere p → BeginsThere q →
        ∃ e ∈ middle, TriesToEnd e) ∧
      ∀ front p rest, played = front ++ p :: rest → BeginsThere p → (∀ e ∈ rest, ¬ TriesToEnd e) →
        last.session.inTransaction = true) := by
  have hsettled : ∀ p ∈ played, Settled p.left.session := settled_of_play hturns h hl
  refine ⟨fun p hp => ?_, fun hdone => ?_⟩
  · have hhonest : p.Honest (Deed.perform b.watched) := (honest_of_play h p hp).1
    refine ⟨Deed.perform_unwatched p.action hhonest, fun seconds haction => ?_⟩
    have hbegin := begin_of_honest hhonest haction
    rcases hr : p.outcome with _ | e | _ <;> rw [hr] at hbegin <;> dsimp only at hbegin
    · exact ⟨fun _ => ⟨hbegin.after, calls_of_since hbegin.calls⟩, fun hne => absurd rfl hne⟩
    · have hcalls := calls_of_since hbegin.world
      refine ⟨nofun, fun _ => ⟨hbegin.session.transaction, hcalls.1.not_asksEnd, ?_⟩⟩
      rintro _ ⟨⟩ hexecuted
      exact hcalls.2 hexecuted
    · refine ⟨nofun, fun _ => ⟨hbegin.session.transaction, (calls_of_since hbegin.world).not_asksEnd, ?_⟩⟩
      rintro _ ⟨⟩
  -- a transaction that was begun goes on from where the deed left it
  have hbegun {p : Done (Watched σ)} (hp : p ∈ played) (hbegins : BeginsThere p) :
      p.left.session.inTransaction = true := by
    obtain ⟨seconds, haction⟩ := hbegins.1
    have hbegin := begin_of_honest (honest_of_play h p hp).1 haction
    rw [hdone p hp hbegins] at hbegin
    exact hbegin.after
  constructor
  · rintro front p middle q back hplayed hp hq
    by_contra hnone
    have hmem : p ∈ played := hplayed ▸ List.mem_append_right front List.mem_cons_self
    obtain ⟨_, later, hsplit, -, -, hafter⟩ := play_split (hplayed ▸ h)
    obtain ⟨between, _, hsplit', hmiddle, hhonest, -⟩ := play_split hafter
    have hbetween : ∀ change, .meanwhile change ∈ between → ∀ l, (change l).session = l.session := by
      intro change hchange
      refine hturns change ?_
      rw [hsplit, hsplit']
      simp [hchange]
    have hgoing : q.found.session.inTransaction = true :=
      going_of_play hbetween hmiddle (hsettled p hmem) (hbegun hmem hp) fun e he hends => hnone ⟨e, he, hends⟩
    exact absurd (hq.found hhonest) (Bool.not_eq_false _ ▸ hgoing)
  · rintro front p rest hplayed hp hnone
    have hmem : p ∈ played := hplayed ▸ List.mem_append_right front List.mem_cons_self
    obtain ⟨_, later, hsplit, -, -, hafter⟩ := play_split (hplayed ▸ h)
    have hlater : ∀ change, .meanwhile change ∈ later → ∀ l, (change l).session = l.session := by
      intro change hchange
      refine hturns change ?_
      rw [hsplit]
      simp [hchange]
    exact going_of_play hlater hafter (hsettled p hmem) (hbegun hmem hp) hnone

/-- A transaction is committed before the next one begins. -/
def committedTurns : List (Turn (Line (Watched Script)) Deed) :=
  [.act (.begin none), .meanwhile fun l => { l with world := { l.world with now := ⟨1000⟩ } }, .act .commit,
    .act (.begin (some 5))]

theorem begins_paired_of_commit : ∃ p q r last,
    play (Deed.perform Script.streaming.watched) committedTurns (freshLine .default .empty) = ([p, q, r], last) ∧
    BeginsThere p ∧ BeginsThere r ∧ TriesToEnd q ∧ last.session.inTransaction = true := by
  obtain ⟨p, q, r, last, hplay, hp, hr, hexecuted, hexecuted', hdone⟩ : ∃ p q r last,
      play (Deed.perform Script.streaming.watched) committedTurns (freshLine .default .empty) = ([p, q, r], last) ∧
      p.action = .begin none ∧ r.action = .begin (some 5) ∧
      (calls p)[1]? = some (.called (.execute 0) (.done ()) .epoch) ∧
      (calls r)[1]? = some (.called (.execute 2) (.done ()) ⟨1000⟩) ∧
      p.outcome = .done () ∧ q.outcome = .done () ∧ r.outcome = .done () :=
    ⟨_, _, _, _, rfl, rfl, rfl, rfl, rfl, rfl, rfl, rfl⟩
  have hbegins : BeginsThere p := ⟨⟨none, hp⟩, 0, .epoch, List.mem_of_getElem? hexecuted⟩
  have hbegins' : BeginsThere r := ⟨⟨some 5, hr⟩, 2, ⟨1000⟩, List.mem_of_getElem? hexecuted'⟩
  have hturns : ∀ change, .meanwhile change ∈ committedTurns → ∀ l, (change l).session = l.session := by
    intro change hchange l
    simp only [committedTurns, List.mem_cons, reduceCtorEq, Turn.meanwhile.injEq, List.not_mem_nil, or_false,
      false_or] at hchange
    subst hchange
    rfl
  have hall : ∀ x ∈ [p, q, r], BeginsThere x → x.outcome = .done () :=
    List.forall_mem_cons.2 ⟨fun _ => hdone.1, List.forall_mem_cons.2 ⟨fun _ => hdone.2.1,
      List.forall_mem_singleton.2 fun _ => hdone.2.2⟩⟩
  have hstart : Settled (freshLine .default .empty).session := settled_start _ _
  obtain ⟨hbetween, hlast⟩ := (begins_paired Script.streaming hstart hturns hplay).2 hall
  obtain ⟨e, he, hends⟩ := hbetween [] p [q] r [] rfl hbegins hbegins'
  obtain rfl : e = q := List.mem_singleton.1 he
  exact ⟨p, e, r, last, hplay, hbegins, hbegins', hends, hlast [p, e] r [] rfl hbegins' (List.forall_mem_nil _)⟩

/-- The statement is executed but closing its handle fails. The session is in no transaction, and
terminating it asks for no end. -/
theorem begin_half_done : ∃ p q last,
    play (Deed.perform Script.streaming.watched) [.act (.begin none), .act .terminate]
      (freshLine { Settings.default with vendor := .postgres }
        { Script.empty with closeFault := some ⟨some "08006", 0, "gone"⟩ }) = ([p, q], last) ∧
    BeginsThere p ∧ p.outcome ≠ .done () ∧ p.left.session.inTransaction = false ∧ ¬ TriesToEnd q := by
  obtain ⟨p, q, last, hplay, hp, hexecuted, hfailed, hleft, hquiet⟩ : ∃ p q last,
      play (Deed.perform Script.streaming.watched) [.act (.begin none), .act .terminate]
        (freshLine { Settings.default with vendor := .postgres }
          { Script.empty with closeFault := some ⟨some "08006", 0, "gone"⟩ }) = ([p, q], last) ∧
      p.action = .begin none ∧ (calls p)[1]? = some (.called (.execute 0) (.done ()) .epoch) ∧
      (∃ e, p.outcome = .failed e) ∧ p.left.session.inTransaction = false ∧ calls q = [] :=
    ⟨_, _, _, rfl, rfl, rfl, ⟨_, rfl⟩, rfl, rfl⟩
  refine ⟨p, q, last, hplay, ⟨⟨none, hp⟩, 0, .epoch, List.mem_of_getElem? hexecuted⟩, ?_, hleft, ?_⟩
  · obtain ⟨e, he⟩ := hfailed
    rw [he]
    nofun
  · rintro ⟨-, x, hx, -⟩
    rw [hquiet] at hx
    exact absurd hx List.not_mem_nil

end Session

end NamedSql
