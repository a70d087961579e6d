import NamedSql.Proofs.Lawful

/-!
# What sessions keep

What the parts of dialogs keep is kept by all that a session does short of transactions and termination
(`Session.Upholds`), and by transactions as well if it does not depend on them. What opening and releasing a
handle keeps of a session is such a thing, and all that statements do keeps it too (`Statement.has_perform`).
The settings of a session are never changed (`Dialog.Settled`).
-/

namespace NamedSql

open NamedSql.Flow

variable {σ α : Type} {b : Backend σ} {T : Session → Prop} {W : World σ → Prop}

namespace Session

/-- The open handles are among those that were given, each of them once. -/
structure Given (s : Session) : Prop where
  nodup : s.handles.Nodup
  given : ∀ handle ∈ s.handles, handle < s.nextHandle

theorem given_start (name : String) (settings : Settings) : Given (start name settings) :=
  ⟨List.nodup_nil, List.forall_mem_nil _⟩

theorem steady_given : Steady Given where
  opened s hs := by
    refine ⟨List.nodup_append'.2 ⟨hs.nodup, List.nodup_singleton _, ?_⟩, fun handle hmem => ?_⟩
    · exact List.disjoint_singleton.2 fun hmem => lt_irrefl _ (hs.given _ hmem)
    · rcases List.mem_append.1 hmem with hmem | hmem
      · exact (hs.given handle hmem).trans (Nat.lt_succ_self _)
      · obtain rfl := List.mem_singleton.1 hmem
        exact Nat.lt_succ_self _
  released s handle hs := ⟨hs.nodup.erase handle, fun other hmem => hs.given other (List.mem_of_mem_erase hmem)⟩

/-- What recording, opening and releasing a handle, and executing an open one for the first row keep. -/
structure Upholds (b : Backend σ) (I : Line σ → Prop) : Prop where
  record : ∀ e, Obeys (.always Failure I) (Dialog.record e)
  prepareHandle : ∀ sql, Obeys (.always Failure I) (prepareHandle b sql)
  executeFirst : ∀ handle, Obeys (.always Failure I) (withHandle handle (executeFirst b handle))
  release : ∀ handle sql, Obeys (.always Failure I) (release b handle sql)

/-- What a session keeps that is over and gives up its handles. -/
structure Abandons (b : Backend σ) (I : Line σ → Prop) : Prop where
  ended : ∀ l, I l → I { l with session := { l.session with terminated := true, transaction := none } }
  free : ∀ l, I l → I { l with session := { l.session with handles := [] } }
  closeAll : ∀ first handles l, I l → l.session.handles = [] →
    ends (closeAll b first handles) (fun _ => I) (fun _ => I) I l

theorem obeys_withHandle {L : Law Failure (Line σ)} {c : Call σ α} (hc : Obeys L (Dialog.call c)) (handle : Nat) :
    Obeys L (withHandle handle c) :=
  (Obeys.read _).bind fun _ => (Obeys.require _ _).bind fun _ => hc

theorem Upholds.has (hT : Steady T) (hW : b.Minds W) : Upholds b (Line.Has T W) where
  record := Dialog.has_record
  prepareHandle := has_prepareHandle hT hW.prepare
  executeFirst handle := obeys_withHandle (Dialog.has_call (hW.executeFirst handle)) handle
  release := has_release hT.released hW.close

namespace Upholds

variable {I : Line σ → Prop} (h : Upholds b I)
include h

/-! ### Statements without parameters -/

theorem runUnchecked (sql : String) : Obeys (.always Failure I) (runUnchecked b sql) := by
  refine (h.prepareHandle sql).bind fun handle => (Obeys.read _).bind fun s => ?_
  refine (h.executeFirst handle).bind fun row => ?_
  exact (h.release handle sql).attempt.bind fun closed => obeys_settle h.record _ _ _

theorem run (sql : String) : Obeys (.always Failure I) (run b sql) :=
  obeys_checkOpen.bind fun _ => h.runUnchecked sql

theorem ping : Obeys (.always Failure I) (ping b) :=
  (Obeys.read _).bind fun _ => (h.run _).discard

theorem nextValue (sequence : String) : Obeys (.always Failure I) (nextValue b sequence) := by
  refine (Obeys.read _).bind fun _ => ?_
  split
  · exact .fail _
  · refine (h.run _).bind fun row => ?_
    split
    · exact .fail _
    · refine (Obeys.ofExcept _).bind fun v => ?_
      split
      · exact .pure _
      · exact .fail _

/-! ### Transactions -/

section
variable (htransaction : ∀ (l : Line σ) transaction, I l → I { l with session := { l.session with transaction } })
include htransaction

theorem begin (seconds : Option Int) : Obeys (.always Failure I) (begin b seconds) := by
  unfold Session.begin
  refine obeys_checkOpen.bind fun _ => (Obeys.read _).bind fun s => ?_
  extract_lets seconds enter limit ask
  clear_value seconds
  have henter (t : Option TimeLimit) : Obeys (.always Failure I) (enter t) :=
    (h.record _).bind fun _ => .modify fun l hl => htransaction l (some t) hl
  have hlimit (u : Unit) : Obeys (.always Failure I) (limit u) := by
    refine (Obeys.read _).bind fun start => ?_
    split
    · exact (Obeys.ofCalendar _).bind fun span => (Obeys.pure _).bind henter
    · exact (Obeys.pure _).bind henter
  have hask (u : Unit) : Obeys (.always Failure I) (ask u) := by
    refine (Obeys.require _ _).bind fun _ => ?_
    split
    · exact (h.run _).discard.bind hlimit
    · exact hlimit ()
  split
  · exact (Obeys.ofExcept _).bind hask
  · exact hask ()

theorem finish (sql : String) : Obeys (.always Failure I) (finish b sql) :=
  (Obeys.read _).bind fun _ => (Obeys.require _ _).bind fun _ =>
    Obeys.bind (.modify fun l hl => htransaction l none hl) fun _ => (h.record _).bind fun _ => (h.run _).discard

end

/-! ### Termination -/

section
variable (hend : Abandons b I)
include hend

theorem terminate : Obeys (.always Failure I) (terminate b) := by
  unfold Session.terminate
  refine (Obeys.read _).bind fun s => ?_
  split
  · refine Obeys.bind (.modify hend.ended) fun _ => ?_
    extract_lets finish
    have hfinish (rolledBack : Except Failure (Option (List Value))) : Obeys (.always Failure I) (finish rolledBack) := by
      refine (Obeys.read _).bind fun s' l hl => ?_
      rw [ends_bind, Dialog.modifySession, ends_modify, ends_bind, Dialog.record, ends_modify]
      refine (hend.closeAll _ _ _ (h.record _ _ (hend.free l hl)) rfl).bind fun first l' hl' => ?_
      cases first with
      | none => exact hl'
      | some e => exact hl'
    split
    · exact (h.runUnchecked _).attempt.bind hfinish
    · exact (Obeys.pure _).bind hfinish
  · exact .pure _

theorem drop : Obeys (.always Failure I) (drop b) := by
  refine (h.terminate hend).attempt.bind fun result => ?_
  cases result with
  | ok u => exact .pure _
  | error e => exact (Obeys.read _).bind fun _ => h.record _

end

end Upholds

end Session

/-! ### Statements -/

namespace Statement

/-- What holds of the line of a desk. -/
abbrev keepingLine (I : Line σ → Prop) : Law Failure (Desk σ) :=
  .always Failure fun d => I d.line

/-- Work at a desk that is set up on the line, its result forgotten. -/
theorem obeys_atDesk {I : Line σ → Prop} {m : Work σ α} (hm : Obeys (keepingLine I) m) (st : Statement)
    (memos : List Memo) : Obeys (.always Failure I) fun l =>
      match m ⟨st, memos, l⟩ with
      | (r, d) => (r.map fun _ => (), d.line) := by
  intro l hl
  have hends := hm ⟨st, memos, l⟩ hl
  unfold ends at hends ⊢
  dsimp only
  rcases hd : m ⟨st, memos, l⟩ with ⟨_ | _ | _, d⟩ <;> rw [hd] at hends <;> exact hends

theorem has_atDesk {m : Work σ α} (hm : Obeys (.always Failure (Desk.Has (fun _ => True) T W)) m) (st : Statement)
    (memos : List Memo) : Obeys (.always Failure (Line.Has T W)) fun l =>
      match m ⟨st, memos, l⟩ with
      | (r, d) => (r.map fun _ => (), d.line) :=
  obeys_atDesk (fun d hd => ends_mono (hm d ⟨trivial, hd⟩) (fun _ _ h => h.line) (fun _ _ h => h.line)
    fun _ h => h.line) st memos

theorem obeys_create {I : Line σ → Prop} (h : Handling b (keepingLine I)) (template : Template) (page : Option Page) :
    Obeys (.always Failure I) (create b template page) := fun l hl =>
  ends_create (fun _ => hl) (h.prepareNew ⟨ofTemplate l.session.vendor template page, [], l⟩ hl)

/-- What holds of the session of a desk. -/
abbrev keepingSession (σ : Type) (T : Session → Prop) : Law Failure (Desk σ) :=
  .always Failure (Desk.Has (fun _ => True) T fun _ => True)

variable (hT : Session.Steady T)
include hT

theorem has_perform (b : Backend σ) (action : Action) : Obeys (keepingSession σ T) (action.perform b) := by
  have hlaw : CallByCall b (keepingSession σ T) := (Backend.Minds.trivially b).callByCall (fun _ _ h => h) hT
  refine hlaw.obeys_perform (fun _ _ _ _ _ hd => ⟨trivial, hd.line⟩) (fun handle sql shown entries => ?_) action
  exact has_callInTime sql shown ((Backend.Minds.trivially b).limitTime handle) fun _ _ =>
    ends_of_forall (fun _ _ => trivial) (fun _ _ => trivial) fun _ => trivial

theorem has_create (b : Backend σ) (template : Template) (page : Option Page) :
    Obeys (.always Failure (Line.Has T fun _ => True)) (create b template page) := by
  have hlaw : CallByCall b (keepingSession σ T) := (Backend.Minds.trivially b).callByCall (fun _ _ h => h) hT
  exact fun l hl => ends_create (fun _ => hl) (ends_mono (hlaw.prepareNew _ ⟨trivial, hl⟩)
    (fun _ _ hd => hd.line) (fun _ _ hd => hd.line) fun _ hd => hd.line)

end Statement

/-! ### Settings -/

/-- The settings of the session stay as they are. -/
def Dialog.Settled (m : Dialog σ α) : Prop :=
  ∀ l, (m l).2.session.settings = l.session.settings

namespace Dialog.Settled

variable {settings : Settings}

theorem of_has {m : Dialog σ α}
    (h : ∀ settings, Obeys (.always Failure (Line.Has (·.settings = settings) fun _ => True)) m) : Settled m :=
  fun l => (h l.session.settings l ⟨rfl, trivial⟩).left.session

theorem read (f : Line σ → α) : Settled (Flow.read f) := fun _ => rfl

theorem record (e : Event) : Settled (Dialog.record (σ := σ) e) := fun _ => rfl

theorem call (c : Call σ α) : Settled (Dialog.call c) := fun _ => rfl

theorem discard {m : Dialog σ α} (hm : Settled m) : Settled (Functor.discard m) := by
  intro l
  rw [← hm l]
  show (Flow.bind m _ l).2.session.settings = _
  unfold Flow.bind
  rcases m l with ⟨_ | _ | _, l'⟩ <;> rfl

end Dialog.Settled

namespace Session

open Dialog

theorem steady_settings (settings : Settings) : Steady (·.settings = settings) :=
  .of_apart fun _ _ _ hs => hs

theorem upholds_settings (b : Backend σ) (settings : Settings) :
    Upholds b (Line.Has (·.settings = settings) fun _ => True) :=
  .has (steady_settings settings) (.trivially b)

theorem settled_withHandle (handle : Nat) (c : Call σ α) : Settled (withHandle handle c) := by
  refine .of_has fun settings => obeys_withHandle ?_ handle
  exact has_call fun _ _ => ends_of_forall (fun _ _ => trivial) (fun _ _ => trivial) fun _ => trivial

theorem settled_settle (result : Except Failure α) (closed : Except Failure Unit) (note : Failure → Event) :
    Settled (settle (σ := σ) result closed note) :=
  .of_has fun _ => obeys_settle has_record result closed note

theorem obeys_expiry {L : Law Failure (Line σ)} : Obeys L expiry := by
  refine (Obeys.read _).bind fun s => ?_
  split
  · exact .pure _
  · exact (Obeys.ofCalendar _).map _

theorem settled_expiry : Settled (expiry (σ := σ)) :=
  .of_has fun _ => obeys_expiry

variable (b)

theorem settled_openHandle (sql : String) : Settled (openHandle b sql) :=
  .of_has fun settings => has_openHandle (steady_settings settings) (Backend.Minds.trivially b).prepare sql

theorem settled_release (handle : Nat) (sql : String) : Settled (release b handle sql) :=
  .of_has fun settings => (upholds_settings b settings).release handle sql

theorem settled_ping : Settled (ping b) := .of_has fun settings => (upholds_settings b settings).ping

theorem settled_nextValue (sequence : String) : Settled (nextValue b sequence) :=
  .of_has fun settings => (upholds_settings b settings).nextValue sequence

theorem settled_begin (seconds : Option Int) : Settled (begin b seconds) :=
  .of_has fun settings => (upholds_settings b settings).begin (fun _ _ hl => ⟨hl.session, trivial⟩) seconds

theorem settled_finish (sql : String) : Settled (finish b sql) :=
  .of_has fun settings => (upholds_settings b settings).finish (fun _ _ hl => ⟨hl.session, trivial⟩) sql

theorem abandons_settings (settings : Settings) : Abandons b (Line.Has (·.settings = settings) fun _ => True) where
  ended _ hl := ⟨hl.session, trivial⟩
  free _ hl := ⟨hl.session, trivial⟩
  closeAll first handles l hl _ := has_closeAll (Backend.Minds.trivially b).close first handles l hl

theorem settled_terminate : Settled (terminate b) :=
  .of_has fun settings => (upholds_settings b settings).terminate (abandons_settings b settings)

theorem settled_drop : Settled (drop b) :=
  .of_has fun settings => (upholds_settings b settings).drop (abandons_settings b settings)

end Session

theorem Statement.settled_create (b : Backend σ) (template : Template) (page : Option Page) :
    Dialog.Settled (create b template page) :=
  .of_has fun settings => has_create (Session.steady_settings settings) b template page

end NamedSql
