import NamedSql.Proofs.Handles.Calls

/-!
# Handles of sessions

A session and the record of its database agree on the handles that are open. Everything that a session
does keeps the handles that were open before it; what prepares a handle adds one to them, what releases
it takes it out, and nothing is left open by a session that is over.
-/

namespace NamedSql

open NamedSql.Flow

variable {σ : Type} {b : Backend σ}

/-- The handles `hs` are entered in the session and are those that are open in the record; handles that
come later are new. -/
structure Registered (hs : List Nat) (ended : Bool) (l : Line (Recorded σ)) : Prop where
  booked : Booked hs l.world.link.events l.session.nextHandle
  handles : l.session.handles = hs
  terminated : l.session.terminated = ended

namespace Registered

variable {hs : List Nat} {ended : Bool} {l : Line (Recorded σ)} {n : Nat}

/-- Nothing was done with handles. -/
theorem of_events (h : Registered hs ended l) {w : World (Recorded σ)}
    (hw : w.link.events = l.world.link.events) : Registered hs ended { l with world := w } :=
  ⟨hw ▸ h.booked, h.handles, h.terminated⟩

theorem touched (h : Registered hs ended l) (hn : n ∈ hs) {w : World (Recorded σ)}
    (hw : Touched n l.world.link.events w) : Registered hs ended { l with world := w } := by
  obtain ⟨m, hw⟩ := hw
  exact ⟨hw ▸ h.booked.used hn m, h.handles, h.terminated⟩

theorem contains (h : Registered hs ended l) : l.session.handles.contains n = true ↔ n ∈ hs := by
  rw [List.contains_iff_mem, h.handles]

end Registered

/-! ### The parts of dialogs -/

namespace Dialog

variable {I : Line σ → Prop} {α : Type}

theorem wp_call {Q : Except NativeFault α → Line σ → Prop} {E : Failure → Line σ → Prop} {l : Line σ}
    (c : Call σ α) : wp (call c) Q E l ↔
      wp c (fun a w => Q (.ok a) { l with world := w }) (fun e w => Q (.error e) { l with world := w })
        l.world := by
  rw [call, wp_within, wp_attempt]; rfl

theorem keeps_session : Keeps I session := .read _

theorem keeps_now : Keeps I now := .read _

end Dialog

namespace Session

open Dialog

variable {hs : List Nat} {ended : Bool} {l : Line (Recorded σ)} {n : Nat} {α : Type}

/-- Recording never fails. -/
theorem wp_record (e : Event) (h : Registered hs ended l) :
    wp (record e) (fun _ => Registered hs ended) (fun _ _ => False) l :=
  (⟨h.booked, h.handles, h.terminated⟩ : Registered hs ended { l with log := l.log ++ [e] })

theorem keeps_record (e : Event) : Keeps (Registered (σ := σ) hs ended) (record e) := fun _ h =>
  wp_mono (wp_record e h) (fun _ _ h => h) fun _ _ h => h.elim

theorem keeps_transaction (t : Option (Option TimeLimit)) :
    Keeps (Registered (σ := σ) hs ended) (modifySession fun s => { s with transaction := t }) :=
  .modify fun _ h => ⟨h.booked, h.handles, h.terminated⟩

theorem keeps_silent {c : Call (Recorded σ) α} (hc : Silent c) : Keeps (Registered hs ended) (call c) := by
  intro l h
  rw [wp_call]
  exact wp_mono (hc _ l.world rfl) (fun _ _ => h.of_events) fun _ _ => h.of_events

theorem keeps_checkOpen {I : Line σ → Prop} : Keeps I checkOpen :=
  keeps_session.bind fun _ => .require _ _

theorem wp_checkOpen {Q : Unit → Line σ → Prop} {E : Failure → Line σ → Prop} {l : Line σ} :
    wp checkOpen Q E l ↔
      if l.session.terminated then E (.state (.sessionTerminated l.session.name)) l else Q () l := by
  show wp (Flow.require (!l.session.terminated) _) Q E l ↔ _
  rw [wp_require]
  cases l.session.terminated <;> rfl

/-! ### Handles -/

theorem wp_prepareHandle (sql : String) (h : Registered hs ended l) :
    wp (prepareHandle b.recorded sql) (fun n l => n ∉ hs ∧ Registered (hs ++ [n]) ended l)
      (fun _ => Registered hs ended) l := by
  show wp (call (b.recorded.prepare l.session.nextHandle sql) >>= _) _ _ l
  rw [wp_bind, wp_call]
  refine wp_prepare _ sql (fun v hv => ?_) fun e v hv => h.of_events hv
  exact ⟨h.booked.not_mem, hv ▸ h.booked.opened, congrArg (· ++ _) h.handles, h.terminated⟩

theorem wp_openHandle (sql : String) (h : Registered hs ended l) :
    wp (openHandle b.recorded sql) (fun n l => ended = false ∧ n ∉ hs ∧ Registered (hs ++ [n]) ended l)
      (fun _ => Registered hs ended) l := by
  show wp (checkOpen >>= fun _ => prepareHandle b.recorded sql) _ _ l
  rw [wp_bind, wp_checkOpen, h.terminated]
  cases ended with
  | true => exact h
  | false => exact wp_mono (wp_prepareHandle sql h) (fun _ _ hn => ⟨rfl, hn⟩) fun _ _ h => h

theorem wp_withHandle {c : Call (Recorded σ) α} (hc : Uses n c) (h : Registered hs ended l) (hn : n ∈ hs) :
    wp (withHandle n c) (fun _ => Registered hs ended) (fun _ _ => False) l := by
  show wp (Flow.require (l.session.handles.contains n) _ >>= fun _ => call c) _ _ l
  rw [wp_bind, wp_require, if_pos (h.contains.2 hn), wp_call]
  exact wp_mono (hc _ l.world ⟨0, (List.append_nil _).symm⟩) (fun _ _ hw => h.touched hn hw) fun _ _ hw =>
    h.touched hn hw

theorem keeps_withHandle {c : Call (Recorded σ) α} (hc : Uses n c) :
    Keeps (Registered hs ended) (withHandle n c) := by
  intro l h
  by_cases hn : n ∈ hs
  · exact wp_mono (wp_withHandle hc h hn) (fun _ _ h => h) fun _ _ h => h.elim
  · show wp (Flow.require (l.session.handles.contains n) _ >>= fun _ => call c) _ _ l
    rw [wp_bind, wp_require, if_neg (mt h.contains.1 hn)]
    exact h

theorem wp_release (sql : String) (h : Registered hs ended l) :
    wp (release b.recorded n sql) (fun _ => Registered (hs.erase n) ended)
      (fun _ => Registered (hs.erase n) ended) l := by
  unfold release
  rw [wp_bind]
  show wp (if l.session.handles.contains n then _ else _) _ _ l
  by_cases hn : n ∈ hs
  · rw [if_pos (h.contains.2 hn), wp_bind]
    show wp (call (b.recorded.close n) >>= _) _ _ _
    rw [wp_bind, wp_call]
    have hclosed := h.booked.closed hn
    have herase := congrArg (·.erase n) h.handles
    exact wp_close n (fun _ hv => ⟨hv ▸ hclosed, herase, h.terminated⟩) fun _ _ hv =>
      ⟨hv ▸ hclosed, herase, h.terminated⟩
  · rw [if_neg (mt h.contains.1 hn), List.erase_of_not_mem hn]
    exact h

/-! ### Statements without parameters -/

theorem keeps_settle (result : Except Failure α) (closed : Except Failure Unit) (note : Failure → Event) :
    Keeps (Registered (σ := σ) hs ended) (settle result closed note) := by
  cases result <;> cases closed
  · exact (keeps_record _).bind fun _ => .fail _
  · exact .fail _
  · exact .fail _
  · exact .pure _

theorem keeps_runUnchecked (sql : String) : Keeps (Registered hs ended) (runUnchecked b.recorded sql) := by
  intro l h
  unfold runUnchecked
  rw [wp_bind]
  refine wp_mono (wp_prepareHandle sql h) ?_ fun _ _ h => h
  rintro n l ⟨hn, h⟩
  show wp (withHandle n (executeFirst b.recorded n) >>= _) _ _ l
  rw [wp_bind]
  refine wp_mono (wp_withHandle uses_executeFirst h (by simp)) (fun row l h => ?_) fun _ _ h => h.elim
  rw [wp_bind, wp_attempt]
  have herase : (hs ++ [n]).erase n = hs := by
    rw [List.erase_append_right _ hn, List.erase_cons_head, List.append_nil]
  refine wp_mono (wp_release sql h) (fun _ l h => ?_) fun _ l h => ?_
  · exact keeps_settle _ _ _ l (herase ▸ h)
  · exact keeps_settle _ _ _ l (herase ▸ h)

theorem keeps_run (sql : String) : Keeps (Registered hs ended) (run b.recorded sql) :=
  keeps_checkOpen.bind fun _ => keeps_runUnchecked sql

theorem keeps_ping : Keeps (Registered hs ended) (ping b.recorded) :=
  keeps_session.bind fun _ => (keeps_run _).discard

theorem keeps_nextValue (sequence : String) : Keeps (Registered hs ended) (nextValue b.recorded sequence) := by
  refine keeps_session.bind fun s => ?_
  split
  · exact .fail _
  · refine (keeps_run _).bind fun row => ?_
    split
    · exact .fail _
    · refine (Keeps.ofExcept _).bind fun v => ?_
      split
      · exact .pure _
      · exact .fail _

/-! ### Transactions -/

theorem keeps_begin (seconds : Option Int) : Keeps (Registered hs ended) (begin b.recorded seconds) := by
  unfold begin
  refine keeps_checkOpen.bind fun _ => keeps_session.bind fun s => ?_
  extract_lets seconds enter limit ask
  clear_value seconds
  have henter : ∀ t, Keeps (Registered hs ended) (enter t) := fun t =>
    (keeps_record _).bind fun _ => keeps_transaction (some t)
  have hlimit : ∀ u, Keeps (Registered hs ended) (limit u) := by
    intro u
    refine keeps_now.bind fun start => ?_
    split
    · exact (Keeps.ofCalendar _).bind fun span => (Keeps.pure _).bind henter
    · exact (Keeps.pure _).bind henter
  have hask : ∀ u, Keeps (Registered hs ended) (ask u) := by
    intro u
    refine (Keeps.require _ _).bind fun _ => ?_
    split
    · exact (keeps_run _).discard.bind hlimit
    · exact hlimit ()
  split
  · exact (Keeps.ofExcept _).bind hask
  · exact hask ()

theorem keeps_finish (sql : String) : Keeps (Registered hs ended) (finish b.recorded sql) :=
  keeps_session.bind fun _ => (Keeps.require _ _).bind fun _ => (keeps_transaction none).bind fun _ =>
    (keeps_record _).bind fun _ => (keeps_run _).discard

theorem keeps_expiry : Keeps (Registered (σ := σ) hs ended) expiry := by
  refine keeps_session.bind fun s => ?_
  split
  · exact .pure _
  · exact (Keeps.ofCalendar _).map _

/-! ### Termination -/

/-- Closes the handles that are still open in the record of a session without handles. -/
theorem wp_closeAll (first : Option Failure) {hs : List Nat} {l : Line (Recorded σ)}
    (h : Booked hs l.world.link.events l.session.nextHandle) (hhandles : l.session.handles = [])
    (hended : l.session.terminated = true) :
    wp (closeAll b.recorded first hs) (fun _ => Registered [] true) (fun _ _ => False) l := by
  induction hs generalizing first l with
  | nil => exact ⟨h, hhandles, hended⟩
  | cons n hs ih =>
    have hclosed := h.closed List.mem_cons_self
    rw [List.erase_cons_head] at hclosed
    unfold closeAll
    rw [wp_bind, wp_call]
    refine wp_close n (fun v hv => ih first (hv ▸ hclosed) hhandles hended) fun e v hv => ?_
    cases first with
    | none => exact ih _ (hv ▸ hclosed) hhandles hended
    | some first =>
      show wp (record _ >>= fun _ => closeAll b.recorded (some first) hs) _ _ _
      rw [wp_bind]
      exact ih _ (hv ▸ hclosed) hhandles hended

theorem wp_terminate (h : Registered hs ended l) (hended : ended = true → hs = []) :
    wp (terminate b.recorded) (fun _ => Registered [] true) (fun _ => Registered [] true) l := by
  unfold terminate
  rw [wp_bind]
  show wp (if !l.session.terminated then _ else _) _ _ l
  rw [h.terminated]
  cases ended with
  | true =>
    obtain rfl := hended rfl
    exact h
  | false =>
    rw [if_pos (by rfl), wp_bind]
    extract_lets finish
    -- the session gives up its handles first; those still open are then only known from the record
    have hfinish : ∀ r l, Registered hs true l →
        wp (finish r) (fun _ => Registered [] true) (fun _ => Registered [] true) l := by
      intro r l h
      show wp (closeAll b.recorded _ l.session.handles >>= _) _ _ _
      rw [wp_bind, h.handles]
      refine wp_mono (wp_closeAll _ h.booked rfl h.terminated) (fun e l h => ?_) fun _ _ h => h.elim
      cases e <;> exact h
    have hstart : Registered hs true
        { l with session := { l.session with terminated := true, transaction := none } } :=
      ⟨h.booked, h.handles, rfl⟩
    rw [modifySession, wp_modify]
    split
    · rw [wp_bind, wp_attempt]
      exact wp_mono (keeps_runUnchecked _ _ hstart) (fun r => hfinish (.ok r)) fun e => hfinish (.error e)
    · rw [wp_bind]
      exact hfinish (.ok none) _ hstart

theorem wp_drop (h : Registered hs ended l) (hended : ended = true → hs = []) :
    wp (drop b.recorded) (fun _ => Registered [] true) (fun _ _ => False) l := by
  unfold drop
  rw [wp_bind, wp_attempt]
  exact wp_mono (wp_terminate h hended) (fun _ l h => h) fun e l h => wp_record _ h

end Session

end NamedSql
