import NamedSql.Proofs.Recall

/-!
# What operations leave

An operation that does not succeed leaves the statement as it was, but for its handle, and the memos as well
(`Spared`). One that succeeds changes the bindings only if that is what it is for. In a history of operations
the bindings are therefore those that were bound explicitly, whatever hooks and lists have made of copies of
them (`bindings_of_play`).
-/

namespace NamedSql

open NamedSql.Flow

variable {σ : Type} {b : Backend σ}

namespace Statement

/-- The statement is as it was, but for its handle, and so are the memos. -/
structure Spared (d d' : Desk σ) : Prop where
  statement : ∃ handle, d'.statement = { d.statement with handle }
  memos : d'.memos = d.memos

/-- The bindings after an action that succeeded. -/
def Action.bindingsAfter : Action → Bindings → Bindings
  | .bind key p, bindings => bindings.insert key p
  | .bindAll other, bindings => bindings.union other
  | .clearBindings, _ | .addBatch, _ | .close, _ => .empty
  | _, bindings => bindings

/-- The statement is as it was, but for its handle, its batch and what the action is to do with the bindings. -/
def ChangedBy (action : Action) (d d' : Desk σ) : Prop :=
  ∃ handle batch, d'.statement =
    { d.statement with handle, batch, bindings := action.bindingsAfter d.statement.bindings }

/-! ### One operation -/

section
variable {action : Action}

theorem Spared.refl (d : Desk σ) : Spared d d := ⟨⟨_, rfl⟩, rfl⟩

theorem Action.bindingsAfter_of_executes (haction : action.executes = true) (bindings : Bindings) :
    action.bindingsAfter bindings = bindings := by
  cases action with
  | bind | bindAll | clearBindings | addBatch | close => cases haction
  | _ => rfl

theorem ends_bind_key (key : Key) (p : Param) (d : Desk σ) :
    ends ((Action.bind key p).perform b) (fun _ => ChangedBy (.bind key p) d) (fun _ => Spared d) (Spared d) d := by
  show ends (Statement.bind key p >>= _) _ _ _ d
  unfold Statement.bind
  rw [ends_bind, ends_bind, ends_checkOpen]
  split
  · exact .refl d
  · exact ⟨_, _, rfl⟩

theorem ends_bindAll (other : Bindings) (d : Desk σ) :
    ends ((Action.bindAll other).perform b) (fun _ => ChangedBy (.bindAll other) d) (fun _ => Spared d) (Spared d)
      d := by
  show ends (Statement.bindAll other >>= _) _ _ _ d
  unfold Statement.bindAll
  rw [ends_bind, ends_bind, ends_checkOpen]
  split
  · exact .refl d
  · exact ⟨_, _, rfl⟩

theorem ends_addBatch_perform (d : Desk σ) :
    ends (Action.addBatch.perform b) (fun _ => ChangedBy .addBatch d) (fun _ => Spared d) (Spared d) d := by
  show ends (addBatch >>= _) _ _ _ d
  rw [ends_bind]
  refine ends_mono (ends_addBatch d) (fun _ d' htaken => ?_) (fun _ d' hleft => ?_) fun d' hleft => ?_
  · obtain ⟨filled, -, -, rfl⟩ := htaken
    exact ⟨_, _, rfl⟩
  · exact hleft ▸ .refl d
  · exact hleft ▸ .refl d

theorem memos_unless_done (action : Action) (d : Desk (Watched σ)) :
    ends (action.perform b.watched) (fun _ _ => True) (fun _ d' => d'.memos = d.memos) (fun d' => d'.memos = d.memos)
      d := by
  cases haction : action.retrieves with
  | true => exact ends_mono (ends_retrieving haction d) (fun _ _ _ => trivial) (fun _ _ h => h) fun _ h => h
  | false => exact ends_mono (memos_perform haction d rfl) (fun _ _ _ => trivial) (fun _ _ h => h) fun _ h => h

/-- Whatever an execution does, the statement only changes its handle. -/
theorem handleOnly_executing (haction : action.executes = true) (hbatch : action ≠ .executeBatch) (d : Desk σ) :
    let holding (d' : Desk σ) := ∃ handle, d'.statement = { d.statement with handle }
    ends (action.perform b) (fun _ => holding) (fun _ => holding) holding d := by
  have hlaw : CallByCall b (.always Failure (Desk.Has (fun st => ∃ handle, st = { d.statement with handle })
      (fun _ => True) fun _ => True)) := by
    refine (Backend.Minds.trivially b).callByCall (fun st handle hst => ?_) (.of_apart fun _ _ _ h => h)
    obtain ⟨_, rfl⟩ := hst
    exact ⟨handle, rfl⟩
  exact ends_mono (hlaw.perform haction (fun h => absurd h hbatch) d ⟨⟨_, rfl⟩, trivial, trivial⟩)
    (fun _ _ h => h.statement) (fun _ _ h => h.statement) fun _ h => h.statement

theorem ends_executing (haction : action.executes = true) (hbatch : action ≠ .executeBatch) (d : Desk (Watched σ)) :
    ends (action.perform b.watched) (fun _ => ChangedBy action d) (fun _ => Spared d) (Spared d) d := by
  refine ends_mono ((handleOnly_executing haction hbatch d).and (memos_unless_done action d)) (fun _ d' h => ?_)
    (fun _ d' h => ⟨h.1, h.2⟩) fun d' h => ⟨h.1, h.2⟩
  obtain ⟨handle, hst⟩ := h.1
  refine ⟨handle, d.statement.batch, ?_⟩
  rw [Action.bindingsAfter_of_executes haction]
  exact hst

/-- Executing the batch changes the batch besides the handle, but only if it succeeds. -/
theorem ends_executeBatch_perform (d : Desk (Watched σ)) :
    ends (Action.executeBatch.perform b.watched) (fun _ => ChangedBy .executeBatch d) (fun _ => Spared d) (Spared d)
      d := by
  have hlaw : CallByCall b.watched (.always Failure
      (Desk.Has (fun st => ∃ handle batch, st = { d.statement with handle, batch }) (fun _ => True) fun _ => True)) := by
    refine (Backend.Minds.trivially b.watched).callByCall (fun st handle hst => ?_) (.of_apart fun _ _ _ h => h)
    obtain ⟨_, batch, rfl⟩ := hst
    exact ⟨handle, batch, rfl⟩
  have hchanged : Obeys (.always Failure (Desk.Has (fun st => ∃ handle batch, st = { d.statement with handle, batch })
      (fun _ => True) fun _ => True)) (Action.executeBatch.perform b.watched) := by
    refine hlaw.perform rfl fun _ => hlaw.executeBatch (fun d' hd' => ?_) fun handle sql parameters entries =>
      has_callInTime sql parameters (fun _ => ((Backend.Minds.trivially b.watched).limitTime _ _)) fun _ _ =>
        ends_of_forall (fun _ _ => trivial) (fun _ _ => trivial) fun _ => trivial
    obtain ⟨⟨handle, _, hst⟩, hline⟩ := hd'
    exact ⟨⟨handle, [], by rw [hst]⟩, hline⟩
  have hbatch : ends (Action.executeBatch.perform b.watched) (fun _ => Submits d) (fun _ => LeavesBatch d)
      (LeavesBatch d) d :=
    (ends_map _ _).2 (ends_executeBatch d)
  have hspared {d' : Desk (Watched σ)} (hst : ∃ handle batch, d'.statement = { d.statement with handle, batch })
      (hleft : d'.statement.batch = d.statement.batch) (hmemos : d'.memos = d.memos) : Spared d d' := by
    obtain ⟨handle, batch, hst⟩ := hst
    obtain rfl : batch = d.statement.batch := by rw [← hleft, hst]
    exact ⟨⟨handle, hst⟩, hmemos⟩
  refine ends_mono (((hchanged d ⟨⟨_, _, rfl⟩, trivial, trivial⟩).and hbatch).and (memos_unless_done _ d))
    (fun _ d' h => h.1.1.statement) (fun _ d' h => ?_) fun d' h => ?_
  · exact hspared h.1.1.statement h.1.2.2 h.2
  · exact hspared h.1.1.statement h.1.2.2 h.2

theorem ends_perform (hclose : action ≠ .close) (d : Desk (Watched σ)) :
    ends (action.perform b.watched) (fun _ => ChangedBy action d) (fun _ => Spared d) (Spared d) d := by
  cases action with
  | bind key p => exact ends_bind_key key p d
  | bindAll other => exact ends_bindAll other d
  | clearBindings => exact ⟨_, _, rfl⟩
  | addBatch => exact ends_addBatch_perform d
  | executeBatch => exact ends_executeBatch_perform d
  | close => exact absurd rfl hclose
  | _ =>
    refine ends_executing ?_ ?_ d
    · rfl
    · nofun

end

/-! ### Histories -/

/-- An operation that does not succeed spares its statement and the memos. -/
def Played.Harmless (p : Played σ) : Prop :=
  match p.outcome with
  | .done _ => ChangedBy p.action p.found p.left
  | _ => Spared p.found p.left

/-- The bindings after a played action. -/
def Played.bindingsAfter (p : Played σ) (bindings : Bindings) : Bindings :=
  match p.outcome with
  | .done _ => p.action.bindingsAfter bindings
  | _ => bindings

theorem harmless_of_honest {p : Played σ} (h : p.Honest (Action.perform b)) (hclose : p.action ≠ .close) :
    p.Harmless := by
  obtain ⟨action, ⟨st, memos, session, ⟨link, now⟩, log⟩, r, d'⟩ := p
  -- the database is watched from here on
  let d : Desk (Watched σ) := ⟨st, memos, session, ⟨⟨link, []⟩, now⟩, log⟩
  obtain ⟨r', v, hwatched⟩ : ∃ r' v, action.perform b.watched d = (r', v) := ⟨_, _, rfl⟩
  have hsame : (r, d') = (r', v.unwatched) := h.symm.trans (perform_unwatched action hwatched)
  obtain ⟨rfl, rfl⟩ := Prod.mk.inj hsame
  have hends := ends_perform (b := b) hclose d
  unfold ends at hends
  rw [hwatched] at hends
  cases r with
  | done x => exact hends
  | failed e => exact ⟨hends.statement, hends.memos⟩
  | overflow => exact ⟨hends.statement, hends.memos⟩

/-- Turns of a statement that is not closed; only its own actions change it. -/
def Turn.Own : Turn σ → Prop
  | .act action => action ≠ .close
  | .meanwhile change => ∀ d, (change d).statement = d.statement

theorem bindings_of_play {turns : List (Turn σ)} (hturns : ∀ t ∈ turns, t.Own) {d last : Desk σ}
    {played : List (Played σ)} (h : play (Action.perform b) turns d = (played, last)) :
    last.statement.bindings = played.foldl (fun bindings p => p.bindingsAfter bindings) d.statement.bindings := by
  induction turns generalizing d played with
  | nil =>
    obtain ⟨rfl, rfl⟩ := Prod.mk.inj h
    rfl
  | cons turn rest ih =>
    obtain ⟨hturn, hrest⟩ := List.forall_mem_cons.1 hturns
    cases turn with
    | act action =>
      obtain ⟨p, others, rfl, rfl, hhonest, hplay, rfl⟩ := play_act h
      have hleft : p.left.statement.bindings = Played.bindingsAfter p p.found.statement.bindings := by
        have hharmless : Played.Harmless p := harmless_of_honest hhonest hturn
        unfold Played.Harmless at hharmless
        unfold Played.bindingsAfter
        split at hharmless
        · obtain ⟨_, _, hst⟩ := hharmless
          rw [hst]
        · obtain ⟨_, hst⟩ := hharmless.statement
          rw [hst]
      rw [List.foldl_cons, ← hleft]
      exact ih hrest hplay
    | meanwhile change =>
      have hlast := ih hrest h
      rwa [hturn d] at hlast

/-- Whatever was done with a statement that is not closed, on any database, and whatever happened to all but the
statement in between: an operation that did not succeed left its bindings, its batch, its page and everything
else of it but the handle as they were, and the memos too. One that succeeded left the page, and it left the
bindings as well unless it is for changing them. So the bindings are always those that successful operations
bound explicitly since they were cleared. -/
theorem failures_spare (b : Backend σ) {turns : List (Turn σ)} (hturns : ∀ t ∈ turns, t.Own) {d last : Desk σ}
    {played : List (Played σ)} (h : play (Action.perform b) turns d = (played, last)) :
    (∀ p ∈ played,
      ((∀ x, p.outcome ≠ .done x) → Spared p.found p.left) ∧
      ∀ x, p.outcome = .done x → ChangedBy p.action p.found p.left) ∧
    last.statement.bindings = played.foldl (fun bindings p => p.bindingsAfter bindings) d.statement.bindings := by
  refine ⟨fun p hp => ?_, bindings_of_play hturns h⟩
  obtain ⟨hhonest, hmem⟩ := honest_of_play h p hp
  have hharmless : p.Harmless := harmless_of_honest hhonest (hturns _ hmem)
  unfold Played.Harmless at hharmless
  split at hharmless
  · next x hx => exact ⟨fun hnone => absurd hx (hnone x), fun _ _ => hharmless⟩
  · next hnone => exact ⟨fun _ => hharmless, fun x hx => absurd hx (hnone x)⟩

/-- A hook fills in one of two markers, and the database is busy. -/
def auditedDesk : Desk Script where
  statement :=
    { ofTemplate .sqlite ⟨"DELETE FROM t WHERE k = :k AND u = :u", '\\',
        "DELETE FROM t WHERE k = ".toList.map .sql ++ [.marker ⟨"k", false, false, none⟩] ++
          " AND u = ".toList.map .sql ++ [.marker ⟨"u", false, false, none⟩]⟩ none with
      hooks := [Hook.audit "ann" "u" "at"] }
  memos := []
  line := ⟨.start "main" .default, ⟨Script.empty.push ⟨0, .fault ⟨none, 5, "busy"⟩⟩, .epoch⟩, []⟩

/-- Deletes what is bound under one marker, once. -/
def auditedTurns : List (Turn Script) :=
  [.act (.bind (.name "k") (.value (.integer 1))), .act .update]

theorem failures_spare_of_audited : ∃ bound updated last,
    play (Action.perform Script.streaming) auditedTurns auditedDesk = ([bound, updated], last) ∧
    (∃ e, updated.outcome = .failed e) ∧ Spared updated.found updated.left ∧
    last.statement.bindings = ⟨[(.name "k", .value (.integer 1))]⟩ := by
  obtain ⟨bound, updated, last, hplay, ⟨x, hbound⟩, ⟨e, hfailed⟩, hbind⟩ : ∃ bound updated last,
      play (Action.perform Script.streaming) auditedTurns auditedDesk = ([bound, updated], last) ∧
      (∃ x, bound.outcome = .done x) ∧ (∃ e, updated.outcome = .failed e) ∧
      bound.action = .bind (.name "k") (.value (.integer 1)) :=
    ⟨_, _, _, rfl, ⟨_, rfl⟩, ⟨_, rfl⟩, rfl⟩
  have hturns : ∀ t ∈ auditedTurns, t.Own := by
    simp only [auditedTurns, List.forall_mem_cons, Turn.Own]
    exact ⟨nofun, nofun, List.forall_mem_nil _⟩
  obtain ⟨hplayed, hbindings⟩ := failures_spare Script.streaming hturns hplay
  have hspared := (hplayed updated (List.mem_cons_of_mem _ List.mem_cons_self)).1 fun x hx => by
    rw [hfailed] at hx
    cases hx
  refine ⟨bound, updated, last, hplay, ⟨e, hfailed⟩, hspared, hbindings.trans ?_⟩
  simp only [List.foldl_cons, List.foldl_nil, Played.bindingsAfter, hbound, hfailed, hbind]
  rfl

end Statement

end NamedSql
