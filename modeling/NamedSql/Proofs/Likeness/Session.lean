import NamedSql.Proofs.Likeness.Calls

/-!
# Sessions on databases that are alike

A session cannot tell databases apart that are alike: whatever it does ends in the same way on both of
them, with the same events, and leaves related connections.
-/

namespace NamedSql

open NamedSql.Flow

variable {σ τ α : Type} {r : σ → τ → Prop} {b : Backend σ} {c : Backend τ}

/-! ### The parts of dialogs -/

namespace Dialog

theorem alike_session : Flow.Alike (Line.Alike r) session session := .read fun _ _ h => h.session

theorem alike_modifySession (f : Session → Session) :
    Flow.Alike (Line.Alike r) (modifySession f) (modifySession f) :=
  .modify fun _ _ h => ⟨congrArg f h.session, h.world, h.log⟩

theorem alike_now : Flow.Alike (Line.Alike r) now now := .read fun _ _ h => h.world.now

theorem alike_record (e : Event) : Flow.Alike (Line.Alike r) (record e) (record e) :=
  .modify fun _ _ h => ⟨h.session, h.world, congrArg (· ++ [e]) h.log⟩

theorem alike_call {m : Call σ α} {n : Call τ α} (h : Flow.Alike (World.Alike r) m n) :
    Flow.Alike (Line.Alike r) (call m) (call n) :=
  .within h.attempt (fun _ _ hl => hl.world) fun _ _ _ _ hl hw => ⟨hl.session, hw, hl.log⟩

end Dialog

namespace Session

open Dialog

theorem alike_checkOpen : Flow.Alike (Line.Alike r) checkOpen checkOpen :=
  alike_session.bind fun _ => .require _ _

theorem alike_withHandle {m : Call σ α} {n : Call τ α} (handle : Nat) (h : Flow.Alike (World.Alike r) m n) :
    Flow.Alike (Line.Alike r) (withHandle handle m) (withHandle handle n) :=
  alike_session.bind fun _ => (Flow.Alike.require _ _).bind fun _ => alike_call h

theorem alike_settle (result : Except Failure α) (closed : Except Failure Unit) (note : Failure → Event) :
    Flow.Alike (Line.Alike r) (settle result closed note) (settle result closed note) := by
  cases result <;> cases closed
  · exact (alike_record _).bind fun _ => .fail _
  · exact .fail _
  · exact .fail _
  · exact .pure _

theorem alike_expiry : Flow.Alike (Line.Alike r) expiry expiry := by
  refine alike_session.bind fun s => ?_
  cases s.timeLimit with
  | none => exact .pure _
  | some t => exact (Flow.Alike.ofCalendar _).map _

variable (h : b.Alike r c)
include h

/-! ### Handles -/

theorem alike_prepareHandle (sql : String) :
    Flow.Alike (Line.Alike r) (prepareHandle b sql) (prepareHandle c sql) := by
  refine alike_session.bind fun s => (alike_call (h.prepare _ _)).bind fun result => ?_
  cases result with
  | error fault => exact .fail _
  | ok u => exact (alike_modifySession _).bind fun _ => (alike_record _).bind fun _ => .pure _

theorem alike_openHandle (sql : String) : Flow.Alike (Line.Alike r) (openHandle b sql) (openHandle c sql) :=
  alike_checkOpen.bind fun _ => alike_prepareHandle h sql

theorem alike_release (handle : Nat) (sql : String) :
    Flow.Alike (Line.Alike r) (release b handle sql) (release c handle sql) := by
  refine alike_session.bind fun s => ?_
  cases s.handles.contains handle with
  | false => exact .pure _
  | true =>
    refine (alike_modifySession _).bind fun _ => (alike_call (h.close handle)).bind fun result => ?_
    cases result with
    | ok u => exact .pure _
    | error fault => exact .fail _

/-! ### Statements without parameters -/

theorem alike_runUnchecked (sql : String) :
    Flow.Alike (Line.Alike r) (runUnchecked b sql) (runUnchecked c sql) :=
  (alike_prepareHandle h sql).bind fun handle => alike_session.bind fun _ =>
    (alike_withHandle handle (h.executeFirst handle)).bind fun _ =>
      (alike_release h handle sql).attempt.bind fun _ => alike_settle _ _ _

theorem alike_run (sql : String) : Flow.Alike (Line.Alike r) (run b sql) (run c sql) :=
  alike_checkOpen.bind fun _ => alike_runUnchecked h sql

theorem alike_ping : Flow.Alike (Line.Alike r) (ping b) (ping c) :=
  alike_session.bind fun _ => (alike_run h _).discard

theorem alike_nextValue (sequence : String) :
    Flow.Alike (Line.Alike r) (nextValue b sequence) (nextValue c sequence) := by
  refine alike_session.bind fun s => ?_
  cases s.vendor.nextValueSql? sequence with
  | none => exact .fail _
  | some sql =>
    refine (alike_run h sql).bind fun row => ?_
    cases row with
    | none => exact .fail _
    | some row =>
      refine (Flow.Alike.ofExcept _).bind fun v => ?_
      cases v with
      | integer n => exact .pure _
      | _ => exact .fail _

/-! ### Transactions -/

theorem alike_begin (seconds : Option Int) : Flow.Alike (Line.Alike r) (begin b seconds) (begin c seconds) := by
  unfold begin
  refine alike_checkOpen.bind fun _ => alike_session.bind fun s => ?_
  extract_lets seconds enter limit ask enter' limit' ask'
  clear_value seconds
  have henter : ∀ t, Flow.Alike (Line.Alike r) (enter t) (enter' t) := fun t =>
    (alike_record _).bind fun _ => alike_modifySession _
  have hlimit : ∀ u, Flow.Alike (Line.Alike r) (limit u) (limit' u) := by
    refine fun u => alike_now.bind fun start => ?_
    cases seconds with
    | none => exact (Flow.Alike.pure _).bind henter
    | some n => exact (Flow.Alike.ofCalendar _).bind fun span => (Flow.Alike.pure _).bind henter
  have hask : ∀ u, Flow.Alike (Line.Alike r) (ask u) (ask' u) := by
    refine fun u => (Flow.Alike.require _ _).bind fun _ => ?_
    cases s.vendor.beginSql? with
    | none => exact hlimit ()
    | some sql => exact (alike_run h sql).discard.bind hlimit
  cases seconds with
  | none => exact hask ()
  | some n => exact (Flow.Alike.ofExcept _).bind hask

theorem alike_finish (sql : String) : Flow.Alike (Line.Alike r) (finish b sql) (finish c sql) :=
  alike_session.bind fun _ => (Flow.Alike.require _ _).bind fun _ => (alike_modifySession _).bind fun _ =>
    (alike_record _).bind fun _ => (alike_run h _).discard

theorem alike_withTransaction {σ' τ' : Type} {R : σ' → τ' → Prop} {p : Part σ' (Line σ)} {q : Part τ' (Line τ)}
    (hline : ∀ {β : Type} {m : Dialog σ β} {n : Dialog τ β}, Flow.Alike (Line.Alike r) m n →
      Flow.Alike R (within p m) (within q n))
    (seconds : Option Int) {body : Flow Failure σ' α} {body' : Flow Failure τ' α}
    (hbody : Flow.Alike R body body') :
    Flow.Alike R (withTransaction b p seconds body) (withTransaction c q seconds body') := by
  refine (hline (alike_begin h seconds)).bind fun _ => hbody.attempt.bind fun result => ?_
  cases result with
  | ok a => exact (hline (alike_finish h _)).bind fun _ => .pure _
  | error e =>
    refine (hline (alike_finish h _)).attempt.bind fun result => ?_
    cases result with
    | ok u => exact .fail _
    | error e' => exact (hline (alike_session.bind fun _ => alike_record _)).bind fun _ => .fail _

/-! ### Termination -/

theorem alike_closeAll (first : Option Failure) (handles : List Nat) :
    Flow.Alike (Line.Alike r) (closeAll b first handles) (closeAll c first handles) := by
  induction handles generalizing first with
  | nil => exact .pure _
  | cons handle rest ih =>
    refine (alike_call (h.close handle)).bind fun result => ?_
    cases result with
    | ok u => exact ih _
    | error fault =>
      cases first with
      | none => exact ih _
      | some e => exact alike_session.bind fun _ => (alike_record _).bind fun _ => ih _

theorem alike_terminate : Flow.Alike (Line.Alike r) (terminate b) (terminate c) := by
  unfold terminate
  refine alike_session.bind fun s => ?_
  cases s.terminated with
  | true => exact .pure _
  | false =>
    extract_lets finish finish'
    have hfinish : ∀ result, Flow.Alike (Line.Alike r) (finish result) (finish' result) := by
      refine fun result => alike_session.bind fun s' => (alike_modifySession _).bind fun _ =>
        (alike_record _).bind fun _ => (alike_closeAll h _ _).bind fun first => ?_
      cases first with
      | none => exact .pure _
      | some e => exact .fail _
    refine (alike_modifySession _).bind fun _ => ?_
    cases s.inTransaction with
    | true => exact (alike_runUnchecked h _).attempt.bind hfinish
    | false => exact (Flow.Alike.pure _).bind hfinish

theorem alike_drop : Flow.Alike (Line.Alike r) (drop b) (drop c) := by
  refine (alike_terminate h).attempt.bind fun result => ?_
  cases result with
  | ok u => exact .pure _
  | error e => exact alike_session.bind fun _ => alike_record _

end Session

end NamedSql
