import NamedSql.Proofs.Transactions

/-!
# Timeouts that are noted

A clocked database notes for each handle the timeout that it was given when it was prepared, each timeout that was
set later, and the timeout that was in force when it was executed (`Backend.clocked`). Noting does not show
(`Backend.alike_clocked`). A database that keeps timeouts until they are set (`Backend.KeepsTime`) executes a handle
with the timeout that was noted last for it, and all that a session does keeps it so (`Session.upholds_timely`).
-/

namespace NamedSql

open NamedSql.Flow

variable {σ α : Type} {b : Backend σ}

/-- What is noted of a handle: the timeout that it was given when it was prepared, one that was set later and the
clock as it stood then, or the one with which it was executed. -/
inductive TimeNote where
  | given (handle : Nat) (timeout : Option Nat)
  | limited (handle : Nat) (timeout : Option Nat) (now : Instant)
  | executed (handle : Nat) (timeout : Option Nat)
deriving DecidableEq

namespace TimeNote

def after (handle : Nat) (timeout : Option (Option Nat)) : TimeNote → Option (Option Nat)
  | given n t | limited n t _ => if n = handle then some t else timeout
  | executed .. => timeout

/-- The timeout that was given or set last for a handle, if one was. -/
def last (handle : Nat) (notes : List TimeNote) : Option (Option Nat) :=
  notes.foldl (after handle) none

variable {handle n : Nat} {notes : List TimeNote} {t : Option Nat}

theorem last_concat (handle : Nat) (notes : List TimeNote) (x : TimeNote) :
    last handle (notes ++ [x]) = x.after handle (last handle notes) :=
  List.foldl_concat ..

theorem last_executed (handle n : Nat) (t : Option Nat) (notes : List TimeNote) :
    last handle (notes ++ [.executed n t]) = last handle notes :=
  last_concat handle notes _

theorem last_given_of_ne (h : handle ≠ n) (t : Option Nat) (notes : List TimeNote) :
    last handle (notes ++ [.given n t]) = last handle notes :=
  (last_concat handle notes _).trans (if_neg h.symm)

theorem last_given (handle : Nat) (t : Option Nat) (notes : List TimeNote) :
    last handle (notes ++ [.given handle t]) = some t :=
  (last_concat handle notes _).trans (if_pos rfl)

theorem last_limited (handle n : Nat) (t : Option Nat) (now : Instant) (notes : List TimeNote) :
    last handle (notes ++ [.limited n t now]) = if n = handle then some t else last handle notes :=
  last_concat handle notes _

/-- A timeout that was never set is the one that was given. -/
theorem given_of_last (hlast : last handle notes = some t) (hnone : ∀ t now, .limited handle t now ∉ notes) :
    .given handle t ∈ notes := by
  induction notes using List.reverseRecOn with
  | nil => cases hlast
  | append_singleton notes x ih =>
    have hbefore (h : last handle notes = some t) : .given handle t ∈ notes ++ [x] :=
      List.mem_append_left _ (ih h fun t now hmem => hnone t now (List.mem_append_left _ hmem))
    rw [last_concat] at hlast
    cases x with
    | given n t' =>
      change (if n = handle then some t' else last handle notes) = some t at hlast
      split at hlast
      · next heq =>
        obtain rfl := heq
        obtain rfl := Option.some.inj hlast
        exact List.mem_append_right _ List.mem_cons_self
      · exact hbefore hlast
    | limited n t' now =>
      change (if n = handle then some t' else last handle notes) = some t at hlast
      split at hlast
      · next heq => exact absurd (List.mem_append_right _ (heq ▸ List.mem_cons_self)) (hnone t' now)
      · exact hbefore hlast
    | executed n t' => exact hbefore hlast

end TimeNote

/-! ### Databases that keep timeouts -/

section
variable (times : σ → Nat → Option (Option Nat))

/-- Calls that leave the timeouts of all handles alone. -/
def Untimed (c : Call σ α) : Prop :=
  ∀ kept, Obeys (.always NativeFault fun w => times w.link = kept) c

def SparesTimes (handle : Nat) (l l' : σ) : Prop :=
  ∀ other, other ≠ handle → times l' other = times l other

/-- A database that keeps the timeouts of the handles that it has. A handle gets one when it is prepared, and only
setting it changes it until the handle is closed. -/
structure Backend.KeepsTime (b : Backend σ) : Prop where
  timeout : ∀ handle l, b.timeout handle l = (times l handle).join
  prepare : ∀ handle sql w, ends (b.prepare handle sql)
    (fun _ v => ∃ t, times v.link = Function.update (times w.link) handle (some t))
    (fun _ v => SparesTimes times handle w.link v.link) (fun v => SparesTimes times handle w.link v.link) w
  bind : ∀ handle position v, Untimed times (b.bind handle position v)
  clearBindings : ∀ handle l, times (b.clearBindings handle l) = times l
  limitRows : ∀ handle n l, times (b.limitRows handle n l) = times l
  limitTime : ∀ handle t l,
    times (b.limitTime handle t l) = Function.update (times l) handle ((times l handle).map fun _ => t)
  execute : ∀ handle, Untimed times (b.execute handle)
  executeBatch : ∀ handle entries, Untimed times (b.executeBatch handle entries)
  fetch : ∀ handle, Untimed times (b.fetch handle)
  close : ∀ handle w, ends (b.close handle) (fun _ v => SparesTimes times handle w.link v.link)
    (fun _ v => SparesTimes times handle w.link v.link) (fun v => SparesTimes times handle w.link v.link) w

end

/-! ### Clocked databases -/

/-- A connection with the clock as the last call left it, and with what was noted. -/
structure Clocked (σ : Type) where
  link : σ
  clock : Instant
  notes : List TimeNote

namespace Clocked

/-- The world of the connection alone. The clock is looked at when a call on it has come back. -/
def worldPart : Part (World (Clocked σ)) (World σ) :=
  ⟨fun w => ⟨w.link.link, w.now⟩, fun v w => ⟨⟨v.link, v.now, w.link.notes⟩, v.now⟩⟩

def lift (f : σ → σ) (r : Clocked σ) : Clocked σ :=
  { r with link := f r.link }

def note (x : TimeNote) (r : Clocked σ) : Clocked σ :=
  { r with notes := r.notes ++ [x] }

end Clocked

open Clocked in
def Backend.clocked (b : Backend σ) : Backend (Clocked σ) where
  prepare handle sql := do
    Flow.within worldPart (b.prepare handle sql)
    Call.modifyLink fun r => r.note (.given handle (b.timeout handle r.link))
  bind handle position v := Flow.within worldPart (b.bind handle position v)
  clearBindings handle := lift (b.clearBindings handle)
  execute handle := do
    Call.modifyLink fun r => r.note (.executed handle (b.timeout handle r.link))
    Flow.within worldPart (b.execute handle)
  executeBatch handle entries := do
    Call.modifyLink fun r => r.note (.executed handle (b.timeout handle r.link))
    Flow.within worldPart (b.executeBatch handle entries)
  limitRows handle n := lift (b.limitRows handle n)
  timeout handle r := b.timeout handle r.link
  limitTime handle t r := (r.lift (b.limitTime handle t)).note (.limited handle t r.clock)
  fetch handle := Flow.within worldPart (b.fetch handle)
  close handle := Flow.within worldPart (b.close handle)

namespace Clocked

abbrev Under (l : σ) (r : Clocked σ) : Prop :=
  l = r.link

theorem alike_within (c : Call σ α) : Flow.Alike (World.Alike Under) c (Flow.within worldPart c) :=
  Call.alike_behind fun _ => rfl

end Clocked

theorem Backend.alike_clocked (b : Backend σ) : b.Alike Clocked.Under b.clocked where
  prepare handle sql := (Clocked.alike_within (b.prepare handle sql)).followed fun _ _ hw => ⟨hw.link, hw.now⟩
  bind _ _ _ := Clocked.alike_within _
  clearBindings handle _ _ h := congrArg (b.clearBindings handle) h
  execute handle := by
    rintro w v ⟨hlink, hnow⟩
    exact Clocked.alike_within (b.execute handle) ⟨hlink, hnow⟩
  executeBatch handle entries := by
    rintro w v ⟨hlink, hnow⟩
    exact Clocked.alike_within (b.executeBatch handle entries) ⟨hlink, hnow⟩
  limitRows handle n _ _ h := congrArg (b.limitRows handle n) h
  timeout handle _ _ h := congrArg (b.timeout handle) h
  limitTime handle n _ _ h := congrArg (b.limitTime handle n) h
  fetch _ := Clocked.alike_within _
  close _ := Clocked.alike_within _

/-! ### What agrees with the notes -/

section
variable (times : σ → Nat → Option (Option Nat))

/-- The clock is noted, the database has for each of the handles the timeout that was noted last, and what was noted
has `K`. -/
structure Agrees (handles : List Nat) (K : List TimeNote → Prop) (w : World (Clocked σ)) : Prop where
  clock : w.link.clock = w.now
  kept : ∀ handle ∈ handles, ∃ t, times w.link.link handle = some t ∧ TimeNote.last handle w.link.notes = some t
  notes : K w.link.notes

/-- What is kept when notes are added as they should be: a handle is given any timeout, its timeout is only ever
shortened, and it is executed with the one that was noted last. -/
structure Notable (K : List TimeNote → Prop) : Prop where
  given : ∀ notes handle t, K notes → K (notes ++ [.given handle t])
  limited : ∀ notes handle t millis now, K notes → TimeNote.last handle notes = some t →
    K (notes ++ [.limited handle (some (TimeLimit.tighten t millis)) now])
  executed : ∀ notes handle t, K notes → TimeNote.last handle notes = some t → K (notes ++ [.executed handle t])

theorem notable_true : Notable fun _ => True :=
  ⟨fun _ _ _ _ => trivial, fun _ _ _ _ _ _ _ => trivial, fun _ _ _ _ _ => trivial⟩

/-- A session with `T` whose open handles have the timeouts that were noted last. -/
structure Timely (T : Session → Prop) (K : List TimeNote → Prop) (l : Line (Clocked σ)) : Prop where
  given : l.session.Given
  session : T l.session
  world : Agrees times l.session.handles K l.world

end

section
variable {times : σ → Nat → Option (Option Nat)} {handles : List Nat} {T : Session → Prop}
  {K K' : List TimeNote → Prop} {w : World (Clocked σ)} {l : Line (Clocked σ)}

theorem Agrees.mono (h : Agrees times handles K w) (hK : ∀ notes, K notes → K' notes) : Agrees times handles K' w :=
  ⟨h.clock, h.kept, hK _ h.notes⟩

theorem Timely.mono {T' : Session → Prop} (h : Timely times T K l) (hT : ∀ s, T s → T' s)
    (hK : ∀ notes, K notes → K' notes) : Timely times T' K' l :=
  ⟨h.given, hT _ h.session, h.world.mono hK⟩

/-- Calls that leave timeouts alone also leave the notes. -/
theorem agrees_within {c : Call σ α} (hc : Untimed times c) :
    Obeys (.always NativeFault (Agrees times handles K)) (Flow.within Clocked.worldPart c) := by
  refine .within fun w hw => ?_
  have hleft (v : World σ) (hv : times v.link = times w.link.link) :
      Agrees times handles K (Clocked.worldPart.set v w) := by
    refine ⟨rfl, fun handle hhandle => ?_, hw.notes⟩
    show ∃ t, times v.link handle = some t ∧ _
    rw [hv]
    exact hw.kept handle hhandle
  exact ends_mono (hc _ ⟨w.link.link, w.now⟩ rfl) (fun _ => hleft) (fun _ => hleft) hleft

theorem agrees_lift {f : σ → σ} (hf : ∀ l, times (f l) = times l) :
    Obeys (.always NativeFault (Agrees times handles K)) (Call.modifyLink (Clocked.lift f)) := by
  refine .modify fun w hw => ⟨hw.clock, fun handle hhandle => ?_, hw.notes⟩
  show ∃ t, times (f w.link.link) handle = some t ∧ _
  rw [hf]
  exact hw.kept handle hhandle

/-- A call that is noted as an execution, and otherwise leaves timeouts alone. -/
theorem agrees_executed {c : Call σ α} (hc : Untimed times c) {handle : Nat} (hw : Agrees times handles K w)
    (hK : K' (w.link.notes ++ [.executed handle (b.timeout handle w.link.link)])) :
    ends (Call.modifyLink (fun r => r.note (.executed handle (b.timeout handle r.link))) >>= fun _ =>
        Flow.within Clocked.worldPart c)
      (fun _ => Agrees times handles K') (fun _ => Agrees times handles K') (Agrees times handles K') w := by
  rw [ends_bind, Call.modifyLink, ends_modify]
  refine agrees_within hc _ ⟨hw.clock, fun other hother => ?_, hK⟩
  show ∃ t, times w.link.link other = some t ∧
    TimeNote.last other (w.link.notes ++ [.executed handle (b.timeout handle w.link.link)]) = some t
  rw [TimeNote.last_executed]
  exact hw.kept other hother

variable (hb : b.KeepsTime times)
include hb

theorem agrees_bindFrom (handle position : Nat) (values : List Value) :
    Obeys (.always NativeFault (Agrees times handles K)) (b.clocked.bindFrom handle position values) :=
  b.clocked.obeys_bindFrom (fun position v => agrees_within (hb.bind handle position v)) position values

theorem agrees_nextRow (feed : Feed) : Obeys (.always NativeFault (Agrees times handles K)) (b.clocked.nextRow feed) :=
  b.clocked.obeys_nextRow (fun handle => agrees_within (hb.fetch handle)) feed

/-- The timeout of a handle is set from the one that was noted last. -/
theorem agrees_limitTime {handle millis : Nat} (hhandle : handle ∈ handles) (hw : Agrees times handles K w)
    (hK : K' (w.link.notes ++ [.limited handle
      (some (TimeLimit.tighten (TimeNote.last handle w.link.notes).join millis)) w.now])) :
    ends (Statement.limitTime b.clocked handle (.left millis)) (fun _ => Agrees times handles K')
      (fun _ => Agrees times handles K') (Agrees times handles K') w := by
  obtain ⟨t, htime, hlast⟩ := hw.kept handle hhandle
  have htimeout : b.timeout handle w.link.link = (TimeNote.last handle w.link.notes).join := by
    rw [hb.timeout, htime, hlast]
  show Agrees times handles K' _
  rw [← htimeout] at hK
  refine ⟨hw.clock, fun other hother => ?_, by rw [← hw.clock] at hK; exact hK⟩
  let limit : Option Nat := some (TimeLimit.tighten (b.timeout handle w.link.link) millis)
  show ∃ t, times (b.limitTime handle limit w.link.link) other = some t ∧
    TimeNote.last other (w.link.notes ++ [.limited handle limit w.link.clock]) = some t
  rw [hb.limitTime, TimeNote.last_limited, Function.update_apply, htime]
  split
  · next heq =>
    rw [if_pos heq.symm]
    exact ⟨_, rfl, rfl⟩
  · next hne =>
    rw [if_neg (Ne.symm hne)]
    exact hw.kept other hother

/-! ### Sessions -/

namespace Session

/-- A handle that is prepared is noted with the timeout that it got. -/
theorem timely_prepareHandle (hT : Steady T) (hK : ∀ notes handle t, K notes → K (notes ++ [.given handle t]))
    (sql : String) : Obeys (.always Failure (Timely times T K)) (prepareHandle b.clocked sql) := by
  intro l hl
  -- the number of the handle is new, so the notes of the open ones are not concerned
  have hne (handle : Nat) (h : handle ∈ l.session.handles) : handle ≠ l.session.nextHandle := (hl.given.given _ h).ne
  have hspared (v : World σ) (hv : SparesTimes times l.session.nextHandle l.world.link.link v.link) :
      Timely times T K { l with world := Clocked.worldPart.set v l.world } := by
    refine ⟨hl.given, hl.session, rfl, fun handle hhandle => ?_, hl.world.notes⟩
    show ∃ t, times v.link handle = some t ∧ _
    rw [hv handle (hne handle hhandle)]
    exact hl.world.kept handle hhandle
  refine ends_prepareHandle ?_
  show ends (Flow.within Clocked.worldPart (b.prepare l.session.nextHandle sql) >>= fun _ => Call.modifyLink _) _ _ _
    l.world
  rw [ends_bind, ends_within]
  refine ends_mono (hb.prepare l.session.nextHandle sql _) ?_ (fun _ v hv => hspared v hv) fun v hv => hspared v hv
  rintro - v ⟨t, ht⟩ log
  have htimeout : b.timeout l.session.nextHandle v.link = t := by
    rw [hb.timeout, ht, Function.update_self]
    rfl
  refine ⟨steady_given.opened _ hl.given, hT.opened _ hl.session, rfl, fun handle hhandle => ?_,
    hK _ _ _ hl.world.notes⟩
  show ∃ t, times v.link handle = some t ∧ TimeNote.last handle (l.world.link.notes ++
    [.given l.session.nextHandle (b.timeout l.session.nextHandle v.link)]) = some t
  rw [ht, htimeout]
  rcases List.mem_append.1 hhandle with hold | hnew
  · rw [Function.update_of_ne (hne handle hold), TimeNote.last_given_of_ne (hne handle hold)]
    exact hl.world.kept handle hold
  · obtain rfl := List.mem_singleton.1 hnew
    exact ⟨t, Function.update_self .., TimeNote.last_given ..⟩

theorem timely_release (hT : ∀ s handle, T s → T { s with handles := s.handles.erase handle }) (handle : Nat)
    (sql : String) : Obeys (.always Failure (Timely times T K)) (release b.clocked handle sql) := by
  intro l hl
  have hleft (v : World σ) (hv : SparesTimes times handle l.world.link.link v.link) :
      Timely times T K (l.without handle (Clocked.worldPart.set v l.world)) := by
    refine ⟨steady_given.released _ handle hl.given, hT _ handle hl.session, rfl, fun other hother => ?_,
      hl.world.notes⟩
    obtain ⟨hne, hmem⟩ := (List.Nodup.mem_erase_iff hl.given.nodup).1 hother
    show ∃ t, times v.link other = some t ∧ _
    rw [hv other hne]
    exact hl.world.kept other hmem
  refine ends_release hl ((ends_within _ _).2 ?_)
  exact ends_mono (hb.close handle _) (fun _ => hleft) (fun _ => hleft) hleft

omit hb in
theorem timely_record (e : Event) : Obeys (.always Failure (Timely times T K)) (Dialog.record e) :=
  .modify fun _ hl => ⟨hl.given, hl.session, hl.world⟩

/-- An open handle is executed with the timeout that was noted last. -/
theorem timely_executeFirst (hK : ∀ notes handle t, K notes → TimeNote.last handle notes = some t →
    K (notes ++ [.executed handle t])) (handle : Nat) :
    Obeys (.always Failure (Timely times T K)) (withHandle handle (executeFirst b.clocked handle)) := by
  intro l hl
  show ends (Flow.require (l.session.handles.contains handle) _ >>= fun _ => Dialog.call _) _ _ _ l
  rw [ends_bind, ends_require]
  split
  · next hopen =>
    obtain ⟨t, htime, hlast⟩ := hl.world.kept handle (List.contains_iff_mem.1 hopen)
    have hleft (w : World (Clocked σ)) (hw : Agrees times l.session.handles K w) :
        Timely times T K { l with world := w } := ⟨hl.given, hl.session, hw⟩
    have hexecuted : K (l.world.link.notes ++ [.executed handle (b.timeout handle l.world.link.link)]) := by
      rw [hb.timeout, htime]
      exact hK _ _ _ hl.world.notes hlast
    have hends : ends (executeFirst b.clocked handle) (fun _ => Agrees times l.session.handles K)
        (fun _ => Agrees times l.session.handles K) (Agrees times l.session.handles K) l.world := by
      refine (agrees_executed (hb.execute handle) hl.world hexecuted).bind fun reply w hw => ?_
      cases reply with
      | rows feed => exact ((agrees_nextRow hb feed).bind fun _ => .pure _) w hw
      | count n => exact hw
    rw [Dialog.call, ends_within, ends_attempt]
    exact ends_mono hends (fun _ => hleft) (fun _ => hleft) hleft
  · exact hl

/-- What sessions do keeps what may be noted. -/
theorem upholds_timely (hK : Notable K) : Upholds b.clocked (Timely times (fun _ => True) K) where
  record := timely_record
  prepareHandle := timely_prepareHandle hb (.of_apart fun _ _ _ h => h) hK.given
  executeFirst := timely_executeFirst hb hK.executed
  release := timely_release hb fun _ _ h => h

omit hb in
/-- Handles that are not open any more may be closed. -/
theorem agrees_close (handle : Nat) :
    Obeys (.always NativeFault (Agrees times [] K)) (b.clocked.close handle) :=
  .within fun _ hw => ends_of_forall (fun _ _ => ⟨rfl, List.forall_mem_nil _, hw.notes⟩)
    (fun _ _ => ⟨rfl, List.forall_mem_nil _, hw.notes⟩) fun _ => ⟨rfl, List.forall_mem_nil _, hw.notes⟩

omit hb in
theorem timely_closeAll (first : Option Failure) (handles : List Nat)
    (hl : Timely times (fun _ => True) K l) (hnone : l.session.handles = []) :
    ends (closeAll b.clocked first handles) (fun _ => Timely times (fun _ => True) K)
      (fun _ => Timely times (fun _ => True) K) (Timely times (fun _ => True) K) l := by
  have hback (l' : Line (Clocked σ)) (h : l'.Has (l.session = ·) (Agrees times [] K)) :
      Timely times (fun _ => True) K l' := by
    obtain ⟨hs, hw⟩ := h
    refine ⟨hs ▸ hl.given, trivial, ?_⟩
    rw [← hs, hnone]
    exact hw
  have hstart : l.Has (l.session = ·) (Agrees times [] K) := by
    refine ⟨rfl, ?_⟩
    rw [← hnone]
    exact hl.world
  exact ends_mono (has_closeAll agrees_close first handles l hstart) (fun _ => hback) (fun _ => hback) hback

omit hb in
theorem abandons_timely : Abandons b.clocked (Timely times (fun _ => True) K) where
  ended _ hl := ⟨⟨hl.given.nodup, hl.given.given⟩, trivial, hl.world⟩
  free _ hl := ⟨⟨List.nodup_nil, List.forall_mem_nil _⟩, trivial, hl.world.clock, List.forall_mem_nil _, hl.world.notes⟩
  closeAll first handles _ hl hnone := timely_closeAll first handles hl hnone

end Session

end

end NamedSql
