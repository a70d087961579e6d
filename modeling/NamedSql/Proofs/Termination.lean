import NamedSql.Proofs.Roster
import NamedSql.Proofs.Silence
import NamedSql.SessionGroup

/-!
# Termination

Terminating a session takes the same steps whatever fails: ROLLBACK is tried if a transaction runs, and then
each open handle is closed. The first error is the one that counts, and no handle and no transaction are left
(`Session.Ended`). Closing a group terminates each of its sessions in this way (`terminations_total`).
-/

namespace NamedSql

open NamedSql.Flow

variable {σ α : Type} {b : Backend σ}

/-- The end of work that fails if there is a cause. -/
def Outcome.ofCause {ε : Type} : Option ε → Outcome ε Unit
  | none => done ()
  | some e => failed e

/-! ### What is seen of handles -/

namespace Watch

/-- The SQL that was to be prepared. -/
def prepared? : Watch → Option String
  | called (.prepare _ sql) _ _ => some sql
  | _ => none

/-- The handle under which a statement was prepared. -/
def opened? : Watch → Option Nat
  | called (.prepare handle _) (.done _) _ => some handle
  | _ => none

/-- The handle that was to be closed. -/
def closed? : Watch → Option Nat
  | called (.close handle) _ _ => some handle
  | _ => none

/-- Whether a call ran out of the calendar. -/
def RanOut : Watch → Prop
  | called _ .overflow _ => True
  | _ => False

end Watch

/-- Something was seen after `start`. -/
abbrev AnySince (start : List Watch) : World (Watched σ) → Prop :=
  Since (fun _ => True) start

/-- A call after `start` ran out of the calendar. -/
abbrev RunsOut (start : List Watch) : World (Watched σ) → Prop :=
  Since (fun calls => ∃ x ∈ calls, x.RanOut) start

section
variable {start : List Watch} {w v : World (Watched σ)} {x : Watch}

theorem AnySince.concat (hw : AnySince start w) (hv : v.link.seen = w.link.seen ++ [x]) : AnySince start v :=
  Since.concat hw hv fun _ h => h

theorem AnySince.runsOut (hw : AnySince start w) (hv : v.link.seen = w.link.seen ++ [x]) (hx : x.RanOut) :
    RunsOut start v :=
  Since.concat hw hv fun calls _ => ⟨x, List.mem_append_right calls (List.mem_singleton_self x), hx⟩

theorem seen_watch {request : Request} {c : Call σ α} {r : Outcome NativeFault α}
    (h : Watched.watch request c w = (r, v)) :
    v.link.seen = w.link.seen ++ [.called request (r.map fun _ => ()) v.now] := by
  obtain ⟨rfl, rfl⟩ := Prod.mk.inj h
  rfl

/-- What a watched call comes to, and what is seen of it. -/
theorem ends_watched (request : Request) (c : Call σ α) (w : World (Watched σ)) :
    let step r v := Watched.watch request c w = (r, v) ∧
      v.link.seen = w.link.seen ++ [.called request (r.map fun _ => ()) v.now]
    ends (Watched.watch request c) (fun a => step (.done a)) (fun e => step (.failed e)) (step .overflow) w :=
  ends_mono (ends_self _ w) (fun _ _ h => ⟨h, seen_watch h⟩) (fun _ _ h => ⟨h, seen_watch h⟩)
    fun _ h => ⟨h, seen_watch h⟩

theorem Asks.seen {R : Request → Prop} {c : Call (Watched σ) α} (hc : Asks R c) {r : Outcome NativeFault α}
    (h : c w = (r, v)) : Since (fun calls => ∀ x ∈ calls, R x.request) w.link.seen v := by
  have hleft := (hc w.link.seen w (Since.refl (List.forall_mem_nil _))).left
  rwa [h] at hleft

end

/-- A request while a statement without parameters is executed and its first row is read. -/
def Request.Executing : Request → Prop
  | .execute _ | .fetch _ => True
  | _ => False

namespace Session

/-! ### Steps -/

/-- Handles are closed one after another, whatever fails. These are the errors, with their handles. -/
inductive Closes (b : Backend σ) : List Nat → World σ → List (Nat × NativeFault) → World σ → Prop
  | nil {w : World σ} : Closes b [] w [] w
  | closed {n : Nat} {handles : List Nat} {w w₁ w' : World σ} {faults : List (Nat × NativeFault)}
      (h : b.close n w = (.done (), w₁)) (hrest : Closes b handles w₁ faults w') : Closes b (n :: handles) w faults w'
  | failed {n : Nat} {handles : List Nat} {w w₁ w' : World σ} {fault : NativeFault} {faults : List (Nat × NativeFault)}
      (h : b.close n w = (.failed fault, w₁)) (hrest : Closes b handles w₁ faults w') :
      Closes b (n :: handles) w ((n, fault) :: faults) w'

/-- A statement is prepared under a handle and, if that succeeds, executed and closed, whatever fails. These
are the errors. -/
inductive Attempts (b : Backend σ) (sql : String) (handle : Nat) : World σ → List NativeFault → World σ → Prop
  | refused {w w' : World σ} {fault : NativeFault} (h : b.prepare handle sql w = (.failed fault, w')) :
      Attempts b sql handle w [fault] w'
  | executed {w w₁ w₂ w' : World σ} {row : Option (List Value)} {faults : List (Nat × NativeFault)}
      (h : b.prepare handle sql w = (.done (), w₁)) (hrow : executeFirst b handle w₁ = (.done row, w₂))
      (hclose : Closes b [handle] w₂ faults w') : Attempts b sql handle w (faults.map Prod.snd) w'
  | failed {w w₁ w₂ w' : World σ} {fault : NativeFault} {faults : List (Nat × NativeFault)}
      (h : b.prepare handle sql w = (.done (), w₁)) (hrow : executeFirst b handle w₁ = (.failed fault, w₂))
      (hclose : Closes b [handle] w₂ faults w') : Attempts b sql handle w (fault :: faults.map Prod.snd) w'

section
variable {w w' : World (Watched σ)} {n : Nat} {handles : List Nat} {faults : List (Nat × NativeFault)}

theorem Closes.seen (h : Closes b.watched handles w faults w') :
    Since (fun calls => calls.filterMap Watch.prepared? = [] ∧ calls.filterMap Watch.opened? = [] ∧
      calls.filterMap Watch.closed? = handles) w.link.seen w' := by
  have hstep {n : Nat} {handles : List Nat} {ending : Outcome NativeFault Unit} {w w₁ w' : World (Watched σ)}
      (hw : w₁.link.seen = w.link.seen ++ [.called (.close n) ending w₁.now])
      (hrest : Since (fun calls => calls.filterMap Watch.prepared? = [] ∧ calls.filterMap Watch.opened? = [] ∧
        calls.filterMap Watch.closed? = handles) w₁.link.seen w') :
      Since (fun calls => calls.filterMap Watch.prepared? = [] ∧ calls.filterMap Watch.opened? = [] ∧
        calls.filterMap Watch.closed? = n :: handles) w.link.seen w' := by
    obtain ⟨calls, hseen, hprepared, hopened, hclosed⟩ := hrest
    refine ⟨.called (.close n) ending w₁.now :: calls, ?_, hprepared, hopened, congrArg (n :: ·) hclosed⟩
    rw [hseen, hw, List.append_assoc]
    rfl
  induction h with
  | nil => exact Since.refl ⟨rfl, rfl, rfl⟩
  | closed h _ ih => exact hstep (seen_watch h) ih
  | failed h _ ih => exact hstep (seen_watch h) ih

theorem asks_executeFirst (handle : Nat) : Asks Request.Executing (executeFirst b.watched handle) := by
  intro start
  refine Obeys.bind (asks_execute (R := Request.Executing) trivial start) fun reply => ?_
  cases reply with
  | rows feed => exact (asks_nextRow (R := Request.Executing) (fun _ => trivial) feed start).bind fun _ => .pure _
  | count n => exact .pure _

/-- What is opened is closed, once, and nothing else. -/
theorem Attempts.seen {sql : String} {faults : List NativeFault} (h : Attempts b.watched sql n w faults w') :
    Since (fun calls => calls.filterMap Watch.prepared? = [sql] ∧
      calls.filterMap Watch.closed? = calls.filterMap Watch.opened? ∧
      (calls.filterMap Watch.opened? = [] ∨ calls.filterMap Watch.opened? = [n])) w.link.seen w' := by
  have hran {r : Outcome NativeFault (Option (List Value))} {w₁ w₂ : World (Watched σ)}
      {faults : List (Nat × NativeFault)} (hprepare : b.watched.prepare n sql w = (.done (), w₁))
      (hrow : executeFirst b.watched n w₁ = (r, w₂)) (hclose : Closes b.watched [n] w₂ faults w') :
      Since (fun calls => calls.filterMap Watch.prepared? = [sql] ∧
        calls.filterMap Watch.closed? = calls.filterMap Watch.opened? ∧
        (calls.filterMap Watch.opened? = [] ∨ calls.filterMap Watch.opened? = [n])) w.link.seen w' := by
    obtain ⟨rows, hrows, hasked⟩ := (asks_executeFirst n).seen hrow
    obtain ⟨closes, hcloses, hprepared, hopened, hclosed⟩ := hclose.seen
    have hsilent {β : Type} {f : Watch → Option β} (hf : ∀ x : Watch, x.request.Executing → f x = none) :
        rows.filterMap f = [] :=
      List.filterMap_eq_nil_iff.2 fun x hx => hf x (hasked x hx)
    have hprepared' : rows.filterMap Watch.prepared? = [] := hsilent fun x hx => by
      unfold Watch.prepared?
      split
      · exact hx.elim
      · rfl
    have hopened' : rows.filterMap Watch.opened? = [] := hsilent fun x hx => by
      unfold Watch.opened?
      split
      · exact hx.elim
      · rfl
    have hclosed' : rows.filterMap Watch.closed? = [] := hsilent fun x hx => by
      unfold Watch.closed?
      split
      · exact hx.elim
      · rfl
    have hfirst := seen_watch hprepare
    refine ⟨[.called (.prepare n sql) (.done ()) w₁.now] ++ (rows ++ closes), ?_, ?_, ?_, .inr ?_⟩
    · rw [hcloses, hrows, hfirst, List.append_assoc, List.append_assoc]
      rfl
    · rw [List.filterMap_append, List.filterMap_append, hprepared', hprepared]
      rfl
    · rw [List.filterMap_append, List.filterMap_append, List.filterMap_append, List.filterMap_append, hclosed',
        hopened', hclosed, hopened]
      rfl
    · rw [List.filterMap_append, List.filterMap_append, hopened', hopened]
      rfl
  cases h with
  | refused h => exact ⟨_, seen_watch h, rfl, rfl, .inl rfl⟩
  | executed h hrow hclose => exact hran h hrow hclose
  | failed h hrow hclose => exact hran h hrow hclose

end

/-! ### How the steps are taken -/

/-- The failure of the first handle whose closing failed. -/
def closeFailure? (faults : List (Nat × NativeFault)) : Option Failure :=
  faults.head?.map fun fault => .access ⟨closeText fault.1, none, fault.2⟩

/-- The failure of a rollback counts, then that of the first handle whose closing failed. -/
def firstFailure? (vendor : Vendor) (rollback : List NativeFault) (closes : List (Nat × NativeFault)) :
    Option Failure :=
  (rollback.head?.map (vendor.failure "ROLLBACK" none)).or (closeFailure? closes)

section
variable {start : List Watch} {l : Line (Watched σ)}

theorem ends_closeAll (first : Option Failure) (handles : List Nat) (hl : AnySince start l.world) :
    ends (closeAll b.watched first handles)
      (fun e l' => ∃ faults, Closes b.watched handles l.world faults l'.world ∧ l'.session = l.session ∧
        e = first.or (closeFailure? faults))
      (fun _ _ => False) (fun l' => RunsOut start l'.world) l := by
  induction handles generalizing first l with
  | nil => exact ⟨[], .nil, rfl, (Option.or_none).symm⟩
  | cons n rest ih =>
    unfold closeAll
    rw [ends_bind, Dialog.call, ends_within, ends_attempt]
    refine ends_mono (ends_watched (.close n) _ _) (fun _ w hw => ?_) (fun fault w hw => ?_)
      fun w hw => hl.runsOut hw.2 trivial
    · refine ends_mono (ih first (hl.concat hw.2)) (fun e l' hl' => ?_) (fun _ _ h => h) fun _ h => h
      obtain ⟨faults, hcloses, hsession, he⟩ := hl'
      exact ⟨faults, .closed hw.1 hcloses, hsession, he⟩
    · have hworld : AnySince start w := hl.concat hw.2
      cases first with
      | none =>
        refine ends_mono (ih _ (l := { l with world := w }) hworld) (fun e l' hl' => ?_) (fun _ _ h => h) fun _ h => h
        obtain ⟨faults, hcloses, hsession, he⟩ := hl'
        exact ⟨(n, fault) :: faults, .failed hw.1 hcloses, hsession, he⟩
      | some e =>
        show ends (Dialog.session >>= _) _ _ _ _
        rw [ends_bind, Dialog.session, ends_read, ends_bind, Dialog.record, ends_modify]
        refine ends_mono (ih _ hworld) (fun e' l' hl' => ?_) (fun _ _ h => h) fun _ h => h
        obtain ⟨faults, hcloses, hsession, he⟩ := hl'
        exact ⟨(n, fault) :: faults, .failed hw.1 hcloses, hsession, he⟩

theorem ends_release_of_mem {Q : Unit → Line σ → Prop} {E : Failure → Line σ → Prop} {O : Line σ → Prop} {l : Line σ}
    {handle : Nat} {sql : String} (hopen : handle ∈ l.session.handles) : ends (release b handle sql) Q E O l ↔
      ends (b.close handle) (fun _ w => Q () (l.without handle w))
        (fun fault w => E (l.session.vendor.failure sql none fault) (l.without handle w))
        (fun w => O (l.without handle w)) l.world := by
  have hcontains : l.session.handles.contains handle = true := List.contains_iff_mem.2 hopen
  show ends (if l.session.handles.contains handle then _ else Pure.pure ()) Q E O l ↔ _
  rw [if_pos hcontains, ends_bind, Dialog.modifySession, ends_modify, ends_bind, Dialog.call, ends_within, ends_attempt]
  exact Iff.rfl

theorem ends_nextRow_any {w : World (Watched σ)} (feed : Feed) (hw : AnySince start w) :
    ends (b.watched.nextRow feed) (fun _ => AnySince start) (fun _ => AnySince start) (RunsOut start) w := by
  have hfetched (handle : Nat) {f : Unit → Call (Watched σ) (Option (List Value) × Feed)}
      (hf : ∀ u v, AnySince start v →
        ends (f u) (fun _ => AnySince start) (fun _ => AnySince start) (RunsOut start) v) :
      ends (b.watched.fetch handle >>= f) (fun _ => AnySince start) (fun _ => AnySince start) (RunsOut start) w := by
    rw [ends_bind]
    exact ends_mono (ends_watched (.fetch handle) _ w) (fun u v hv => hf u v (hw.concat hv.2))
      (fun _ v hv => hw.concat hv.2) fun v hv => hw.runsOut hv.2 trivial
  obtain ⟨_ | handle, columns, _ | ⟨row, rows⟩, _ | fault⟩ := feed
  · exact hw
  · exact hw
  · exact hw
  · exact hw
  · exact hfetched handle fun _ _ hv => hv
  · exact hfetched handle fun _ _ hv => hv
  · exact hfetched handle fun _ _ hv => hv
  · exact hfetched handle fun _ _ hv => hv

theorem ends_executeFirst_any {w : World (Watched σ)} (handle : Nat) (hw : AnySince start w) :
    ends (executeFirst b.watched handle) (fun _ => AnySince start) (fun _ => AnySince start) (RunsOut start) w := by
  unfold executeFirst
  rw [ends_bind]
  refine ends_mono (ends_watched (.execute handle) _ w) (fun reply v hv => ?_) (fun _ v hv => hw.concat hv.2)
    fun v hv => hw.runsOut hv.2 trivial
  have hexecuted : AnySince start v := hw.concat hv.2
  cases reply with
  | rows feed =>
    rw [ends_bind]
    exact ends_mono (ends_nextRow_any feed hexecuted) (fun _ _ h => h) (fun _ _ h => h) fun _ h => h
  | count n => exact hexecuted

/-- What an attempt at a statement without parameters leaves: handles are given up as soon as they are opened. -/
structure Attempted (b : Backend σ) (sql : String) (l : Line σ) (faults : List NativeFault) (l' : Line σ) : Prop where
  attempts : Attempts b sql l.session.nextHandle l.world faults l'.world
  session : ∃ nextHandle, l'.session = { l.session with nextHandle }

theorem ends_attempted (sql : String) (hl : AnySince start l.world)
    (hfresh : l.session.nextHandle ∉ l.session.handles) :
    ends (runUnchecked b.watched sql) (fun _ => Attempted b.watched sql l [])
      (fun e l' => ∃ fault faults, e = l.session.vendor.failure sql none fault ∧
        Attempted b.watched sql l (fault :: faults) l')
      (fun l' => RunsOut start l'.world) l := by
  unfold runUnchecked
  rw [ends_bind]
  refine ends_prepareHandle (ends_mono (ends_watched (.prepare _ sql) _ _) (fun _ w₁ hw₁ log => ?_)
    (fun fault w₁ hw₁ => ⟨fault, [], rfl, .refused hw₁.1, _, rfl⟩) fun w₁ hw₁ => hl.runsOut hw₁.2 trivial)
  have hprepared : AnySince start w₁ := hl.concat hw₁.2
  have hopen : l.session.nextHandle ∈ (l.withNext w₁ log).session.handles :=
    List.mem_append_right _ (List.mem_singleton_self _)
  have hgone : (l.session.handles ++ [l.session.nextHandle]).erase l.session.nextHandle = l.session.handles := by
    rw [List.erase_append_right _ hfresh, List.erase_cons_head, List.append_nil]
  rw [ends_bind, Dialog.session, ends_read, ends_bind]
  show ends (Flow.require ((l.withNext w₁ log).session.handles.contains l.session.nextHandle) _ >>= fun _ =>
    Dialog.call (executeFirst b.watched l.session.nextHandle)) _ _ _ _
  rw [ends_bind, ends_require, if_pos (List.contains_iff_mem.2 hopen), Dialog.call, ends_within, ends_attempt]
  have hleft (w : World (Watched σ)) (log' : List Event) :
      ∃ nextHandle, ({ (Line.without { l.withNext w₁ log with world := w } l.session.nextHandle w) with
        log := log' } : Line (Watched σ)).session = { l.session with nextHandle } :=
    ⟨l.session.nextHandle + 1, congrArg (fun handles => ({ l.session with
      handles, nextHandle := l.session.nextHandle + 1 } : Session)) hgone⟩
  have hclose {Q : Unit → Line (Watched σ) → Prop} {E : Failure → Line (Watched σ) → Prop} {w₂ : World (Watched σ)}
      (hw₂ : AnySince start w₂)
      (hQ : ∀ w, b.watched.close l.session.nextHandle w₂ = (.done (), w) →
        Q () (Line.without { l.withNext w₁ log with world := w₂ } l.session.nextHandle w))
      (hE : ∀ fault w, b.watched.close l.session.nextHandle w₂ = (.failed fault, w) →
        E (l.session.vendor.failure sql none fault)
          (Line.without { l.withNext w₁ log with world := w₂ } l.session.nextHandle w)) :
      ends (release b.watched l.session.nextHandle sql) Q E (fun l' => RunsOut start l'.world)
        { l.withNext w₁ log with world := w₂ } :=
    (ends_release_of_mem (l := { l.withNext w₁ log with world := w₂ }) hopen).2
      (ends_mono (ends_watched (.close l.session.nextHandle) _ w₂) (fun _ w hw => hQ w hw.1)
        (fun fault w hw => hE fault w hw.1) fun _ hw => hw₂.runsOut hw.2 trivial)
  refine ends_mono ((ends_self _ _).and (ends_executeFirst_any l.session.nextHandle hprepared)) (fun row w₂ hw₂ => ?_)
    (fun fault w₂ hw₂ => ?_) fun w₂ hw₂ => hw₂.2
  · rw [ends_bind, ends_attempt]
    refine hclose hw₂.2 (fun w₃ hw₃ => ?_) fun fault w₃ hw₃ => ?_
    · exact ⟨.executed hw₁.1 hw₂.1 (.closed hw₃ .nil), hleft w₃ _⟩
    · exact ⟨fault, [], rfl, .executed hw₁.1 hw₂.1 (.failed hw₃ .nil), hleft w₃ _⟩
  · rw [ends_bind, ends_attempt]
    refine hclose hw₂.2 (fun w₃ hw₃ => ?_) fun fault' w₃ hw₃ => ?_
    · exact ⟨fault, [], rfl, .failed hw₁.1 hw₂.1 (.closed hw₃ .nil), hleft w₃ _⟩
    · exact ⟨fault, [fault'], rfl, .failed hw₁.1 hw₂.1 (.failed hw₃ .nil), hleft w₃ _⟩

end

/-! ### Terminating -/

/-- What holds of every session: its handles are different and were given out before, and if it is over it is
over altogether. -/
structure Tidy (s : Session) : Prop where
  nodup : s.handles.Nodup
  given : ∀ handle ∈ s.handles, handle < s.nextHandle
  ended : s.terminated = true → Over s

theorem Tidy.fresh {s : Session} (h : Tidy s) : s.nextHandle ∉ s.handles := fun hmem =>
  lt_irrefl _ (h.given _ hmem)

theorem Tidy.of_over {s : Session} (h : Over s) : Tidy s :=
  ⟨h.handles ▸ List.nodup_nil, h.handles ▸ List.forall_mem_nil _, fun _ => h⟩

/-- Among the calls ROLLBACK is prepared if a transaction runs, and nothing else is. Each handle that was open
before or is opened by them is closed once, and no other handle. -/
structure Accounted (s : Session) (calls : List Watch) : Prop where
  prepared : calls.filterMap Watch.prepared? = if s.inTransaction then ["ROLLBACK"] else []
  closed : (calls.filterMap Watch.closed?).Perm (s.handles ++ calls.filterMap Watch.opened?)
  nodup : (calls.filterMap Watch.closed?).Nodup

/-- How terminating goes: ROLLBACK is tried if a transaction runs, then each open handle is closed, whatever
fails. The failure is the first one of these steps, if there is one, and the session is over. -/
structure Ended (b : Backend σ) (l : Line σ) (failure : Option Failure) (l' : Line σ) : Prop where
  session : Over l'.session
  steps : ∃ rollback order closes w,
    (if l.session.inTransaction then Attempts b "ROLLBACK" l.session.nextHandle l.world rollback w
      else rollback = [] ∧ w = l.world) ∧
    order.Perm l.session.handles ∧ Closes b order w closes l'.world ∧
    failure = firstFailure? l.session.vendor rollback closes

/-- A session that is over has nothing to end. -/
theorem Ended.of_over {l : Line σ} (h : Over l.session) : Ended b l none l := by
  refine ⟨h, [], [], [], l.world, ?_, ?_, .nil, rfl⟩
  · rw [if_neg (Bool.eq_false_iff.1 h.inTransaction)]
    exact ⟨rfl, rfl⟩
  · rw [h.handles]

theorem Ended.accounted {l l' : Line (Watched σ)} {failure : Option Failure} (h : Ended b.watched l failure l')
    (hl : Tidy l.session) : Since (Accounted l.session) l.world.link.seen l'.world := by
  obtain ⟨rollback, order, closes, w, hrollback, horder, hcloses, -⟩ := h.steps
  -- the handle of the rollback, if it is opened, is none of those that were open before
  have hrolled : Since (fun calls =>
      calls.filterMap Watch.prepared? = (if l.session.inTransaction then ["ROLLBACK"] else []) ∧
      calls.filterMap Watch.closed? = calls.filterMap Watch.opened? ∧ (calls.filterMap Watch.opened?).Nodup ∧
      ∀ n ∈ calls.filterMap Watch.opened?, n ∉ l.session.handles) l.world.link.seen w := by
    split at hrollback
    · next hgoing =>
      refine hrollback.seen.mono fun calls hcalls => ⟨hcalls.1.trans (if_pos hgoing).symm, hcalls.2.1, ?_⟩
      rcases hcalls.2.2 with hopened | hopened <;> rw [hopened]
      · exact ⟨List.nodup_nil, List.forall_mem_nil _⟩
      · exact ⟨List.nodup_singleton _, List.forall_mem_singleton.2 hl.fresh⟩
    · next hnone =>
      obtain ⟨-, rfl⟩ := hrollback
      exact Since.refl ⟨(if_neg hnone).symm, rfl, List.nodup_nil, List.forall_mem_nil _⟩
  refine hrolled.trans hcloses.seen fun calls more hcalls hmore => ?_
  obtain ⟨hprepared, hclosed, hnodup, hfresh⟩ := hcalls
  obtain ⟨hprepared', hopened', hclosed'⟩ := hmore
  constructor
  · rw [List.filterMap_append, hprepared, hprepared', List.append_nil]
  · rw [List.filterMap_append, List.filterMap_append, hclosed, hclosed', hopened', List.append_nil]
    exact List.perm_append_comm.trans (horder.append_right _)
  · rw [List.filterMap_append, hclosed, hclosed']
    refine List.nodup_append'.2 ⟨hnodup, horder.nodup_iff.2 hl.nodup, fun n hn hmem => ?_⟩
    exact hfresh n hn (horder.mem_iff.1 hmem)

theorem ends_terminate {l : Line (Watched σ)} (hl : Tidy l.session) :
    ends (terminate b.watched) (fun _ => Ended b.watched l none) (fun e => Ended b.watched l (some e))
      (fun l' => RunsOut l.world.link.seen l'.world) l := by
  have hstart : AnySince l.world.link.seen l.world := Since.refl trivial
  unfold terminate
  rw [ends_bind, Dialog.session, ends_read]
  cases hopen : l.session.terminated with
  | true => exact .of_over (hl.ended hopen)
  | false =>
    show ends (Dialog.modifySession _ >>= _) _ _ _ l
    rw [ends_bind, Dialog.modifySession, ends_modify]
    extract_lets finish
    have hfinish (r : Except Failure (Option (List Value))) (rollback : List NativeFault) (l₁ : Line (Watched σ))
        (hl₁ : AnySince l.world.link.seen l₁.world) (hterminated : l₁.session.terminated = true)
        (htransaction : l₁.session.transaction = none) (hhandles : l₁.session.handles = l.session.handles)
        (hrollback : if l.session.inTransaction then
            Attempts b.watched "ROLLBACK" l.session.nextHandle l.world rollback l₁.world
          else rollback = [] ∧ l₁.world = l.world)
        (hr : ((∃ row, r = .ok row) ∧ rollback = []) ∨ ∃ fault faults,
          r = .error (l.session.vendor.failure "ROLLBACK" none fault) ∧ rollback = fault :: faults) :
        ends (finish r) (fun _ => Ended b.watched l none) (fun e => Ended b.watched l (some e))
          (fun l' => RunsOut l.world.link.seen l'.world) l₁ := by
      show ends (Dialog.session >>= _) _ _ _ l₁
      rw [ends_bind, Dialog.session, ends_read, ends_bind, Dialog.modifySession, ends_modify, ends_bind,
        Dialog.record, ends_modify]
      refine ends.bind (ends_mono (ends_closeAll _ _ hl₁) (fun _ _ h => h) (fun _ _ h => h.elim) fun _ h => h)
        fun first l' hl' => ?_
      obtain ⟨closes, hcloses, hsession, hfirst⟩ := hl'
      have hover : Over l'.session := hsession ▸ ⟨hterminated, rfl, htransaction⟩
      have hended (failure : Option Failure) (hfailure : first = failure) : Ended b.watched l failure l' := by
        refine ⟨hover, rollback, _, closes, l₁.world, hrollback, .refl _, hhandles ▸ hcloses, ?_⟩
        obtain ⟨⟨row, rfl⟩, rfl⟩ | ⟨fault, faults, rfl, rfl⟩ := hr
        · exact hfailure.symm.trans hfirst
        · exact hfailure.symm.trans hfirst
      cases first with
      | none => exact hended none rfl
      | some e => exact hended (some e) rfl
    split
    · next hgoing =>
      have hrolled (r : Except Failure (Option (List Value))) (rollback : List NativeFault) (l' : Line (Watched σ))
          (hl' : Attempted b.watched "ROLLBACK"
            { l with session := { l.session with terminated := true, transaction := none } } rollback l')
          (hr : ((∃ row, r = .ok row) ∧ rollback = []) ∨ ∃ fault faults,
            r = .error (l.session.vendor.failure "ROLLBACK" none fault) ∧ rollback = fault :: faults) :
          ends (finish r) (fun _ => Ended b.watched l none) (fun e => Ended b.watched l (some e))
            (fun l' => RunsOut l.world.link.seen l'.world) l' := by
        obtain ⟨next, hsession⟩ := hl'.session
        refine hfinish r rollback l' (hl'.attempts.seen.mono fun _ _ => trivial) ?_ ?_ ?_ ?_ hr
        · rw [hsession]
        · rw [hsession]
        · rw [hsession]
        · rw [if_pos hgoing]
          exact hl'.attempts
      rw [ends_bind, ends_attempt]
      refine ends_mono (ends_attempted "ROLLBACK" hstart hl.fresh) (fun row l' hl' => ?_) (fun e l' hl' => ?_)
        fun l' hl' => hl'
      · exact hrolled (.ok row) [] l' hl' (.inl ⟨⟨row, rfl⟩, rfl⟩)
      · obtain ⟨fault, faults, rfl, hl'⟩ := hl'
        exact hrolled _ (fault :: faults) l' hl' (.inr ⟨fault, faults, rfl, rfl⟩)
    · next hnone =>
      refine hfinish (.ok none) [] _ hstart rfl rfl rfl ?_ (.inl ⟨⟨none, rfl⟩, rfl⟩)
      rw [if_neg hnone]
      exact ⟨rfl, rfl⟩

end Session

end NamedSql
