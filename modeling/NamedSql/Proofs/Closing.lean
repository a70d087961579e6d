import NamedSql.Backend.Script
import NamedSql.Proofs.Bodies
import NamedSql.Proofs.Transactions

/-!
# Transactions that are closed

Work in a transaction leaves no transaction behind, whatever its body does with the one that was begun for it. The
main theorem (`Workbench.inTransaction_closes`) says in addition how such work ends, and what is asked for at its
end when the body has left a transaction running.
-/

namespace NamedSql

open NamedSql.Flow

variable {σ α : Type} {b : Backend σ}

/-- What work on one of two related states leaves is what the other work leaves. -/
theorem Flow.Alike.ends_image {ε τ : Type} {R : σ → τ → Prop} {f : τ → σ} {m : Flow ε σ α} {n : Flow ε τ α}
    {Q : α → σ → Prop} {E : ε → σ → Prop} {O : σ → Prop} (hR : ∀ {s t}, R s t ↔ s = f t) (h : Flow.Alike R m n)
    {t : τ} (hn : ends n (fun a t => Q a (f t)) (fun e t => E e (f t)) (fun t => O (f t)) t) :
    ends m Q E O (f t) := by
  unfold ends at hn ⊢
  rcases hnt : n t with ⟨r, t'⟩
  have hmt : m (f t) = (r, f t') := h.image @hR hnt
  rw [hnt] at hn
  rw [hmt]
  cases r <;> exact hn

namespace Session

/-! ### A session that is over has no transaction -/

theorem ends_begin_open (seconds : Option Int) (l : Line σ) :
    ends (begin b seconds) (fun _ l' => l'.session.terminated = false)
      (fun _ l' => SameTransaction l.session l'.session) (fun l' => SameTransaction l.session l'.session) l := by
  let v : Line (Watched σ) := ⟨l.session, ⟨⟨l.world.link, []⟩, l.world.now⟩, l.log⟩
  refine (alike_begin b.alike_watched seconds).ends_image Line.alike_unwatched_iff (t := v) ?_
  exact ends_mono (ends_begin seconds v) (fun _ _ h => h.terminated) (fun _ _ h => h.session) fun _ h => h.session

/-- Without a transaction nothing is done. Otherwise it is over, and the statement that ends it is run. -/
theorem ends_finish {Q : Unit → Line σ → Prop} {E : Failure → Line σ → Prop} {O : Line σ → Prop} {sql : String}
    {l : Line σ} (hnone : l.session.inTransaction = false → ∀ e, E e l)
    (hrun : l.session.inTransaction = true → ∀ log, ends (run b sql) (fun _ => Q ()) E O
      { l with session := { l.session with transaction := none }, log }) :
    ends (finish b sql) Q E O l := by
  unfold finish
  rw [ends_bind, Dialog.session, ends_read, ends_bind, ends_require]
  split
  · next hgoing =>
    rw [ends_bind, Dialog.modifySession, ends_modify, ends_bind, Dialog.record, ends_modify]
    exact (ends_map _ _).2 (hrun hgoing _)
  · next hgoing => exact hnone (Bool.eq_false_iff.2 hgoing) _

theorem ends_finish_over (sql : String) (l : Line σ) :
    ends (finish b sql) (fun _ l' => l'.session.transaction = none) (fun _ l' => l'.session.transaction = none)
      (fun l' => l'.session.transaction = none) l := by
  have hupheld : Upholds b (Line.Has (·.transaction = none) fun _ => True) :=
    .has (.of_apart fun _ _ _ h => h) (.trivially b)
  refine ends_finish (fun hnone _ => Option.isNone_iff_eq_none.1 ?_) fun _ log => ?_
  · exact Option.isSome_eq_false_iff.1 hnone
  · exact ends_mono (hupheld.run sql _ ⟨rfl, trivial⟩) (fun _ _ h => h.session) (fun _ _ h => h.session)
      fun _ h => h.session

theorem settled_of_over {s : Session} (h : s.transaction = none) : Settled s :=
  fun _ => congrArg Option.isSome h

theorem settled_of_open {s : Session} (h : s.terminated = false) : Settled s :=
  fun hover => absurd (h.symm.trans hover) Bool.false_ne_true

theorem SameTransaction.settled {s s' : Session} (h : SameTransaction s s') (hs : Settled s) : Settled s' :=
  fun hover => (congrArg Option.isSome h.transaction).trans (hs (h.terminated.symm.trans hover))

theorem lasting_settled (b : Backend σ) : Lasting b Settled where
  steady := .of_apart fun _ _ _ h => h
  begin seconds l hl := ends_mono (ends_begin_open seconds l) (fun _ _ h => ⟨settled_of_open h, trivial⟩)
    (fun _ _ h => ⟨h.settled hl.session, trivial⟩) fun _ h => ⟨h.settled hl.session, trivial⟩
  finish sql l _ := ends_mono (ends_finish_over sql l) (fun _ _ h => ⟨settled_of_over h, trivial⟩)
    (fun _ _ h => ⟨settled_of_over h, trivial⟩) fun _ h => ⟨settled_of_over h, trivial⟩
  terminate :=
    have hupheld : Upholds b (Line.Has Settled fun _ => True) := .has (.of_apart fun _ _ _ h => h) (.trivially b)
    hupheld.terminate
      { ended := fun _ _ => ⟨settled_of_over rfl, trivial⟩
        free := fun _ hl => ⟨hl.session, trivial⟩
        closeAll := fun first handles l hl _ => has_closeAll (Backend.Minds.trivially b).close first handles l hl }

/-! ### Statements that end a transaction -/

/-- What the database does for a statement without parameters: it is prepared, it is executed, with the first row
read if it gives rows, and it is closed. -/
def direct (b : Backend σ) (handle : Nat) (sql : String) : Call σ Unit := do
  b.prepare handle sql
  let _ ← executeFirst b handle
  b.close handle

/-- Every step of the database succeeds. -/
def Completes (b : Backend σ) (handle : Nat) (sql : String) (w : World σ) : Prop :=
  ∃ w', direct b handle sql w = (.done (), w')

section
variable {l : Line σ}

theorem ends_release_open {Q : Unit → Line σ → Prop} {E : Failure → Line σ → Prop} {O : Line σ → Prop}
    {handle : Nat} {sql : String} (hopen : l.session.handles.contains handle = true) :
    ends (release b handle sql) Q E O l ↔
      ends (b.close handle) (fun _ w => Q () (l.without handle w))
        (fun fault w => E (l.session.vendor.failure sql none fault) (l.without handle w))
        (fun w => O (l.without handle w)) l.world := by
  show ends (if l.session.handles.contains handle then _ else Pure.pure ()) Q E O l ↔ _
  rw [if_pos hopen, ends_bind, Dialog.modifySession, ends_modify, ends_bind, Dialog.call, ends_within, ends_attempt]
  rfl

/-- A run gives a result if and only if every step of the database succeeds. -/
theorem ends_runUnchecked_completes (sql : String) (l : Line σ) :
    ends (runUnchecked b sql) (fun _ _ => Completes b l.session.nextHandle sql l.world)
      (fun _ _ => ¬ Completes b l.session.nextHandle sql l.world)
      (fun _ => ¬ Completes b l.session.nextHandle sql l.world) l := by
  unfold runUnchecked
  rw [ends_bind]
  unfold Completes direct
  refine ends_prepareHandle (ends_mono (ends_self _ l.world) (fun _ prepared hprepare log => ?_)
    (fun fault w hprepare => ?_) fun w hprepare => ?_)
  rotate_left
  · rw [bind_failed hprepare]
    nofun
  · rw [bind_overflow hprepare]
    nofun
  -- the statement is prepared under a handle that is open
  have hopen : (l.withNext prepared log).session.handles.contains l.session.nextHandle = true := by
    rw [List.contains_iff_mem]
    exact List.mem_append_right _ (List.mem_singleton_self _)
  rw [bind_done hprepare, ends_bind, Dialog.session, ends_read, ends_bind]
  show ends (Flow.require ((l.withNext prepared log).session.handles.contains l.session.nextHandle) _ >>= fun _ =>
    Dialog.call (executeFirst b l.session.nextHandle)) _ _ _ _
  rw [ends_bind, ends_require, if_pos hopen, Dialog.call, ends_within, ends_attempt]
  refine ends_mono (ends_self _ prepared) (fun row executed hexecute => ?_) (fun fault w hexecute => ?_)
    fun w hexecute => ?_
  · rw [bind_done hexecute, ends_bind, ends_attempt]
    refine (ends_release_open (by exact hopen)).2 (ends_mono (ends_self _ executed) (fun _ closed hclose => ?_)
      (fun fault w hclose => ?_) fun w hclose => ?_)
    · exact ⟨closed, hclose⟩
    · rintro ⟨_, h⟩
      cases hclose.symm.trans h
    · rintro ⟨_, h⟩
      cases hclose.symm.trans h
  · -- the failure of the execution stands, however the closing ends
    rw [bind_failed hexecute, ends_bind, ends_attempt]
    exact ends_of_forall (fun _ _ => nofun) (fun _ _ => nofun) fun _ => nofun
  · rw [bind_overflow hexecute]
    nofun

/-- A transaction runs, and every step of the database succeeds in the statement that ends it. -/
def Finishes (b : Backend σ) (sql : String) (l : Line σ) : Prop :=
  l.session.inTransaction = true ∧ l.session.terminated = false ∧ Completes b l.session.nextHandle sql l.world

theorem ends_finish_finishes (sql : String) (l : Line σ) :
    ends (finish b sql) (fun _ _ => Finishes b sql l) (fun _ _ => ¬ Finishes b sql l) (fun _ => True) l := by
  refine ends_finish (fun hnone _ h => Bool.false_ne_true (hnone.symm.trans h.1)) fun hgoing log => ?_
  by_cases hover : l.session.terminated = true
  · unfold run
    rw [ends_bind, ends_checkOpen]
    exact (if_pos hover).mpr fun h => Bool.false_ne_true (h.2.1.symm.trans hover)
  · have hopen : l.session.terminated = false := Bool.eq_false_iff.2 hover
    refine (ends_run (by exact hopen)).2 (ends_mono (ends_runUnchecked_completes sql _) ?_ ?_ fun _ _ => trivial)
    · exact fun _ _ h => ⟨hgoing, hopen, h⟩
    · exact fun _ _ h h' => h h'.2.2

end

end Session

/-! ### What is asked for -/

/-- The SQL of a request to prepare a statement. -/
def Request.text? : Request → Option String
  | .prepare _ sql => some sql
  | _ => none

namespace Recorded

/-- The SQL of all that was asked to be prepared, in order. -/
def prepared (r : Recorded σ) : List String :=
  r.entries.filterMap (·.request.text?)

theorem prepared_enter (e : Entry) (r : Recorded σ) :
    (r.enter e).prepared = r.prepared ++ e.request.text?.toList := by
  unfold prepared enter
  rw [List.filterMap_append, List.filterMap_cons]
  cases e.request.text? <;> rfl

variable {request : Request} {texts : List String} {w : World (Recorded σ)}

theorem ends_entered_prepared (c : Call σ α) (hw : w.link.prepared = texts) :
    ends (entered request c) (fun _ w => w.link.prepared = texts ++ request.text?.toList)
      (fun _ w => w.link.prepared = texts ++ request.text?.toList) (fun w => w.link.prepared = texts) w := by
  have hentered (r : Except NativeFault α) (v : World (Recorded σ)) (hv : v.link.prepared = texts) :
      (v.link.enter ⟨request, fault? r⟩).prepared = texts ++ request.text?.toList := by
    rw [prepared_enter, hv]
  unfold entered
  rw [ends_bind, ends_within, ends_attempt]
  exact ends_of_forall (fun a v => hentered (.ok a) (worldPart.set v w) hw)
    (fun e v => hentered (.error e) (worldPart.set v w) hw) fun _ => hw

/-- Other requests prepare nothing. -/
theorem obeys_entered (h : request.text? = none) (c : Call σ α) :
    Obeys (.always NativeFault fun w => w.link.prepared = texts) (entered request c) := by
  intro w hw
  have hsame : texts ++ request.text?.toList = texts := by rw [h]; exact List.append_nil _
  exact ends_mono (ends_entered_prepared c hw) (fun _ _ h => h.trans hsame) (fun _ _ h => h.trans hsame) fun _ h => h

end Recorded

namespace Session

variable {l : Line (Recorded σ)}

theorem ends_runUnchecked_prepared (sql : String) (l : Line (Recorded σ)) :
    ends (runUnchecked b.recorded sql) (fun _ l' => l'.world.link.prepared = l.world.link.prepared ++ [sql])
      (fun _ l' => l'.world.link.prepared = l.world.link.prepared ++ [sql]) (fun _ => True) l := by
  unfold runUnchecked
  rw [ends_bind]
  refine ends_prepareHandle (ends_mono (Recorded.ends_entered_prepared _ rfl) (fun _ w hw log => ?_)
    (fun _ _ hw => hw) fun _ _ => trivial)
  -- all that comes after it prepares nothing
  let W (w : World (Recorded σ)) : Prop := w.link.prepared = l.world.link.prepared ++ [sql]
  have hexecute (handle : Nat) : Obeys (.always NativeFault W) (executeFirst b.recorded handle) := by
    refine (Recorded.obeys_entered rfl _).bind fun reply => ?_
    cases reply with
    | rows feed =>
      exact (b.recorded.obeys_nextRow (fun _ => Recorded.obeys_entered rfl _) feed).bind fun _ => .pure _
    | count n => exact .pure _
  let L : Law Failure (Line (Recorded σ)) := .always Failure (Line.Has (fun _ => True) W)
  have hcalled (handle : Nat) : Obeys L (withHandle handle (executeFirst b.recorded handle)) :=
    (Obeys.read _).bind fun _ => (Obeys.require _ _).bind fun _ => Dialog.has_call (hexecute handle)
  have hreleased (handle : Nat) : Obeys L (release b.recorded handle sql).attempt :=
    (has_release (fun _ _ h => h) (fun _ => Recorded.obeys_entered rfl _) handle sql).attempt
  refine ends_mono (Obeys.bind (L := L) (.read _) (fun s => (hcalled _).bind fun row => (hreleased _).bind fun closed =>
    obeys_settle Dialog.has_record _ _ _) _ ⟨trivial, hw⟩) ?_ ?_ fun _ _ => trivial
  · exact fun _ _ h => h.world
  · exact fun _ _ h => h.world

/-- The end of a transaction that runs is asked for, and nothing else is. -/
theorem ends_finish_prepared (sql : String) (hgoing : l.session.inTransaction = true)
    (hopen : l.session.terminated = false) :
    ends (finish b.recorded sql) (fun _ l' => l'.world.link.prepared = l.world.link.prepared ++ [sql])
      (fun _ l' => l'.world.link.prepared = l.world.link.prepared ++ [sql]) (fun _ => True) l := by
  refine ends_finish (fun hnone => absurd (hnone.symm.trans hgoing) Bool.false_ne_true) fun _ log => ?_
  exact (ends_run (by exact hopen)).2 (ends_runUnchecked_prepared sql _)

end Session

namespace Workbench

/-! ### The end of a transaction -/

theorem ends_begin_open (seconds : Option Int) (w : Workbench σ) :
    ends (within linePart (Session.begin b seconds)) (fun _ w' => w'.line.session.terminated = false)
      (fun _ w' => Session.SameTransaction w.line.session w'.line.session)
      (fun w' => Session.SameTransaction w.line.session w'.line.session) w :=
  (ends_within _ _).2 (Session.ends_begin_open seconds w.line)

section
variable {seconds : Option Int} {m : Job σ α} {w begun ended : Workbench σ}
  (hbegin : within linePart (Session.begin b seconds) w = (.done (), begun))
include hbegin

theorem ends_inTransaction_done {a : α} (hm : m begun = (.done a, ended)) {Q : α → Workbench σ → Prop}
    {E : Failure → Workbench σ → Prop} {O : Workbench σ → Prop} : ends (inTransaction b seconds m) Q E O w ↔
      ends (Session.commit b) (fun _ l => Q a { ended with line := l }) (fun e l => E e { ended with line := l })
        (fun l => O { ended with line := l }) ended.line := by
  unfold inTransaction Session.withTransaction
  rw [ends_bind, ends_of_done hbegin, ends_bind, ends_attempt, ends_of_done hm, ends_bind, ends_within]
  rfl

theorem ends_inTransaction_failed {e : Failure} (hm : m begun = (.failed e, ended)) {I : Line σ → Prop}
    (hlog : ∀ l e, I l → I { l with log := l.log ++ [e] })
    (hrollback : ends (Session.rollback b) (fun _ => I) (fun _ => I) (fun _ => True) ended.line) :
    ends (inTransaction b seconds m) (fun _ _ => False) (fun e' w' => e' = e ∧ I w'.line) (fun _ => True) w := by
  unfold inTransaction Session.withTransaction
  rw [ends_bind, ends_of_done hbegin, ends_bind, ends_attempt, ends_of_failed hm, ends_bind, ends_attempt,
    ends_within]
  exact ends_mono hrollback (fun _ l hl => ⟨rfl, hl⟩) (fun e' l hl => ⟨rfl, hlog l _ hl⟩) fun _ _ => trivial

theorem inTransaction_overflow (hm : m begun = (.overflow, ended)) :
    inTransaction b seconds m w = (.overflow, ended) := by
  have hattempt : (m.attempt : Job σ (Except Failure α)) begun = (.overflow, ended) := by simp only [attempt, hm]
  exact (bind_done hbegin).trans (bind_overflow hattempt)

theorem closed_of_done {a : α} (hm : m begun = (.done a, ended)) {r : Outcome Failure α} {w' : Workbench σ}
    (h : inTransaction b seconds m w = (r, w')) (hr : r ≠ .overflow) :
    w'.line.session.transaction = none ∧ (∀ a', r = .done a' → a' = a) ∧
      (r = .done a ↔ Session.Finishes b "COMMIT" ended.line) := by
  have hends : ends (inTransaction b seconds m)
      (fun a' w' => a' = a ∧ w'.line.session.transaction = none ∧ Session.Finishes b "COMMIT" ended.line)
      (fun _ w' => w'.line.session.transaction = none ∧ ¬ Session.Finishes b "COMMIT" ended.line)
      (fun _ => True) w :=
    (ends_inTransaction_done hbegin hm).2 (ends_mono
      ((Session.ends_finish_over "COMMIT" ended.line).and (Session.ends_finish_finishes "COMMIT" ended.line))
      (fun _ _ hl => ⟨rfl, hl⟩) (fun _ _ hl => hl) fun _ _ => trivial)
  unfold ends at hends
  rw [h] at hends
  cases r with
  | done a' =>
    obtain ⟨rfl, hover, hfinishes⟩ := hends
    exact ⟨hover, fun _ h => (Outcome.done.inj h).symm, fun _ => hfinishes, fun _ => rfl⟩
  | failed e => exact ⟨hends.1, nofun, nofun, fun h => absurd h hends.2⟩
  | overflow => exact absurd rfl hr

theorem closed_of_failed {e : Failure} (hm : m begun = (.failed e, ended)) {r : Outcome Failure α} {w' : Workbench σ}
    (h : inTransaction b seconds m w = (r, w')) (hr : r ≠ .overflow) :
    w'.line.session.transaction = none ∧ r = .failed e := by
  have hends := ends_inTransaction_failed hbegin hm (I := fun l => l.session.transaction = none) (fun _ _ hl => hl)
    (ends_mono (Session.ends_finish_over "ROLLBACK" ended.line) (fun _ _ hl => hl) (fun _ _ hl => hl)
      fun _ _ => trivial)
  unfold ends at hends
  rw [h] at hends
  cases r with
  | done a => exact hends.elim
  | failed e' => exact ⟨hends.2, congrArg Outcome.failed hends.1⟩
  | overflow => exact absurd rfl hr

end

section
variable {seconds : Option Int} {m : Job (Recorded σ) α} {w begun ended w' : Workbench (Recorded σ)}
  {r : Outcome Failure α} (hbegin : within linePart (Session.begin b.recorded seconds) w = (.done (), begun))
  (hgoing : ended.line.session.inTransaction = true) (hopen : ended.line.session.terminated = false)
  (h : inTransaction b.recorded seconds m w = (r, w')) (hr : r ≠ .overflow)
include hbegin hgoing hopen h hr

theorem prepared_of_done {a : α} (hm : m begun = (.done a, ended)) :
    w'.line.world.link.prepared = ended.line.world.link.prepared ++ ["COMMIT"] := by
  have hends : ends (inTransaction b.recorded seconds m)
      (fun _ w' => w'.line.world.link.prepared = ended.line.world.link.prepared ++ ["COMMIT"])
      (fun _ w' => w'.line.world.link.prepared = ended.line.world.link.prepared ++ ["COMMIT"]) (fun _ => True) w :=
    (ends_inTransaction_done hbegin hm).2 (Session.ends_finish_prepared "COMMIT" hgoing hopen)
  unfold ends at hends
  rw [h] at hends
  cases r with
  | done a => exact hends
  | failed e => exact hends
  | overflow => exact absurd rfl hr

theorem prepared_of_failed {e : Failure} (hm : m begun = (.failed e, ended)) :
    w'.line.world.link.prepared = ended.line.world.link.prepared ++ ["ROLLBACK"] := by
  have hends := ends_inTransaction_failed hbegin hm
    (I := fun l => l.world.link.prepared = ended.line.world.link.prepared ++ ["ROLLBACK"]) (fun _ _ hl => hl)
    (Session.ends_finish_prepared "ROLLBACK" hgoing hopen)
  unfold ends at hends
  rw [h] at hends
  cases r with
  | done a => exact hends.elim
  | failed e' => exact hends.2
  | overflow => exact absurd rfl hr

end

theorem settled_of_begun {seconds : Option Int} {w begun ended : Workbench σ}
    (hbegin : within linePart (Session.begin b seconds) w = (.done (), begun)) {body : Body σ α}
    {x : Outcome Failure α} (hbody : body.perform b begun = (x, ended)) : Session.Settled ended.line.session := by
  have hopen : begun.line.session.terminated = false := (ends_of_done hbegin).1 (ends_begin_open seconds w)
  have hkept := body.obeys_perform (Session.lasting_settled b) begun ⟨Session.settled_of_open hopen, trivial⟩
  have hended : (body.perform b begun).2.line.Has Session.Settled fun _ => True := hkept.left
  rw [hbody] at hended
  exact hended.session

/-- Work in a transaction fails as the begin does, and then nothing else is done, or it leaves no transaction behind.
A failure of the body is the failure of the work. What the body gives is what the work gives if a transaction still
runs when the body is done, the session is not over, and every step of the database succeeds in the statement that
commits; otherwise the work fails. If a transaction runs when the body has ended, it is committed or rolled back
according to how that was, and nothing else is asked to be prepared: this is told by the record of the database,
on which all ends in the same way. -/
theorem inTransaction_closes (b : Backend σ) (seconds : Option Int) (body : Body σ α) {w w' : Workbench σ}
    {r : Outcome Failure α} (h : inTransaction b seconds (body.perform b) w = (r, w')) (hr : r ≠ .overflow) :
    (∀ e left, onLine (Session.begin b seconds) w = (.failed e, left) →
      r = .failed e ∧ w' = left ∧ w'.line.session.inTransaction = w.line.session.inTransaction) ∧
    (∀ begun, onLine (Session.begin b seconds) w = (.done (), begun) →
      w'.line.session.inTransaction = false ∧
      (∀ e ended, body.perform b begun = (.failed e, ended) → r = .failed e) ∧
      ∀ a ended, body.perform b begun = (.done a, ended) → (∀ a', r = .done a' → a' = a) ∧
        (r = .done a ↔ ended.line.session.inTransaction = true ∧ ended.line.session.terminated = false ∧
          Session.Completes b ended.line.session.nextHandle "COMMIT" ended.line.world)) ∧
    ∃ v', inTransaction b.recorded seconds (body.recorded.perform b.recorded) w.toRecorded = (r, v') ∧
      v'.plain = w' ∧
      ∀ begun x ended, onLine (Session.begin b.recorded seconds) w.toRecorded = (.done (), begun) →
        body.recorded.perform b.recorded begun = (x, ended) →
        onLine (Session.begin b seconds) w = (.done (), begun.plain) ∧
        body.perform b begun.plain = (x, ended.plain) ∧
        (ended.line.session.inTransaction = true →
          (∀ a, x = .done a → v'.line.world.link.prepared = ended.line.world.link.prepared ++ ["COMMIT"]) ∧
          ∀ e, x = .failed e → v'.line.world.link.prepared = ended.line.world.link.prepared ++ ["ROLLBACK"]) := by
  refine ⟨fun e left hbegin => ?_, fun begun hbegin => ?_, ?_⟩
  · have hfailed : inTransaction b seconds (body.perform b) w = (.failed e, left) := bind_failed hbegin
    obtain ⟨rfl, rfl⟩ := Prod.mk.inj (h.symm.trans hfailed)
    have hsame : Session.SameTransaction w.line.session w'.line.session :=
      (ends_of_failed hbegin).1 (ends_begin_open seconds w)
    exact ⟨rfl, rfl, congrArg Option.isSome hsame.transaction⟩
  · refine ⟨?_, fun e ended hbody => (closed_of_failed hbegin hbody h hr).2, fun a ended hbody =>
      (closed_of_done hbegin hbody h hr).2⟩
    rcases hbody : body.perform b begun with ⟨a | e | _, ended⟩
    · exact congrArg Option.isSome (closed_of_done hbegin hbody h hr).1
    · exact congrArg Option.isSome (closed_of_failed hbegin hbody h hr).1
    · exact absurd (congrArg Prod.fst (h.symm.trans (inTransaction_overflow hbegin hbody))) hr
  · rcases hv : inTransaction b.recorded seconds (body.recorded.perform b.recorded) w.toRecorded with ⟨x, v'⟩
    have hplain : inTransaction b seconds (body.perform b) w = (x, v'.plain) :=
      (Session.alike_withTransaction b.alike_recorded alike_onLine seconds body.alike_perform).image
        alike_under_iff hv
    obtain ⟨rfl, rfl⟩ := Prod.mk.inj (h.symm.trans hplain)
    refine ⟨v', rfl, rfl, fun begun x ended hbegin hbody => ⟨?_, ?_, fun hgoing => ?_⟩⟩
    · exact (alike_onLine (Session.alike_begin b.alike_recorded seconds)).image alike_under_iff hbegin
    · exact body.alike_perform.image alike_under_iff hbody
    have hopen : ended.line.session.terminated = false := by
      refine Bool.eq_false_iff.2 fun hover => ?_
      exact Bool.false_ne_true ((settled_of_begun hbegin hbody hover).symm.trans hgoing)
    constructor
    · rintro a rfl
      exact prepared_of_done hbegin hgoing hopen hv hr hbody
    · rintro e rfl
      exact prepared_of_failed hbegin hgoing hopen hv hr hbody

/-- A body that ends the transaction that was begun for it and begins one of its own. A further one within that is
refused, which it does not mind. -/
def restless : Body Script Nat :=
  .act .commit fun _ => .act (.begin (some 5)) fun _ => .transaction none (.give 0 : Body Script Nat) fun
    | .ok n => .give n
    | .error _ => .give 7

/-- A workbench on which nothing was done. -/
def bareBench : Workbench Script := .start ⟨.start "main" .default, ⟨.empty, .epoch⟩, []⟩ []

/-- The transaction that the body began is the one that is committed. -/
theorem inTransaction_closes_of_restless : ∃ (w' : Workbench Script) (v' : Workbench (Recorded Script)),
    inTransaction Script.buffered none (restless.perform Script.buffered) bareBench = (.done 7, w') ∧
    w'.line.session.inTransaction = false ∧ v'.plain = w' ∧
    v'.line.world.link.prepared = ["BEGIN", "COMMIT", "BEGIN"] ++ ["COMMIT"] := by
  have hpair {β γ : Type} {p : β × γ} {x : β} (hx : p.1 = x) : p = (x, p.2) := hx ▸ rfl
  obtain ⟨w', hrun⟩ : ∃ w', inTransaction Script.buffered none (restless.perform Script.buffered) bareBench =
      (.done 7, w') := ⟨_, hpair (by cbv)⟩
  have hbegun := hpair (p := onLine (Session.begin Script.buffered.recorded none) bareBench.toRecorded)
    (x := .done ()) (by cbv)
  have hbody := hpair (p := restless.recorded.perform Script.buffered.recorded
    (onLine (Session.begin Script.buffered.recorded none) bareBench.toRecorded).2) (x := .done 7) (by cbv)
  obtain ⟨-, hclosed, v', -, hplain, hasked⟩ := inTransaction_closes Script.buffered none restless hrun (by simp)
  obtain ⟨hbegin, -, hend⟩ := hasked _ _ _ hbegun hbody
  have hprepared := (hend (by decide +kernel)).1 7 rfl
  exact ⟨w', v', hrun, (hclosed _ hbegin).1, hplain, hprepared.trans (by decide +kernel)⟩

end Workbench

end NamedSql
