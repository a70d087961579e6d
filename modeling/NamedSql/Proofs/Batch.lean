import NamedSql.Backend.Script
import NamedSql.Proofs.Turns
import NamedSql.Proofs.Watching

/-!
# Batches

No entry of a batch is lost and none is executed twice: in every history of a statement that is not closed,
the entries that were executed, followed by those that still wait, are the entries that were taken in, in
their order (`batches_conserved`).
-/

namespace NamedSql

open NamedSql.Flow

variable {σ : Type} {b : Backend σ}

/-- The entries that a database was given with the execution of a batch that succeeded. -/
def Watch.submitted : Watch → List (List Value)
  | .called (.executeBatch _ entries) (.done ()) _ => entries
  | _ => []

namespace Statement

def SameSql (entries : List Filled) : Prop :=
  ∀ f ∈ entries, ∀ g ∈ entries, f.sql = g.sql

/-- Entries of a batch and their values as the database gets them. -/
def BoundAs (v : Vendor) (entries : List Filled) (values : List (List Value)) : Prop :=
  List.Forall₂ (fun entry vs => boundValues v entry.values = .ok vs) entries values

def NoneSubmitted (calls : List Watch) : Prop :=
  ∀ x ∈ calls, x.submitted = []

theorem NoneSubmitted.flatMap {calls : List Watch} (h : NoneSubmitted calls) :
    calls.flatMap Watch.submitted = [] :=
  List.flatMap_eq_nil_iff.2 h

/-! ### Actions on a batch -/

abbrev HasBatch (batch : List Filled) (v : Vendor) (W : World σ → Prop) : Desk σ → Prop :=
  Desk.Has (fun st => st.batch = batch) (fun s => s.vendor = v) W

/-- What the bindings come to was put behind the batch, if that has its SQL, and they were cleared. -/
def TakesIn (d d' : Desk σ) : Prop :=
  ∃ filled, d.resolved = some filled ∧ (∀ first ∈ d.statement.batch.head?, first.sql = filled.sql) ∧
    d' = { d with statement := { d.statement with
      batch := d.statement.batch ++ [filled], bindings := Bindings.empty } }

/-- All entries of the batch were executed at once, and it is empty. -/
def Submits (d d' : Desk (Watched σ)) : Prop :=
  d'.line.session.vendor = d.line.session.vendor ∧ d'.statement.batch = [] ∧
    ∃ values, BoundAs d.line.session.vendor d.statement.batch values ∧
      Since (fun calls => calls.flatMap Watch.submitted = values) d.line.world.link.seen d'.line.world

def LeavesBatch (d d' : Desk σ) : Prop :=
  d'.line.session.vendor = d.line.session.vendor ∧ d'.statement.batch = d.statement.batch

theorem ends_addBatch (d : Desk σ) :
    ends addBatch (fun _ => TakesIn d) (fun _ d' => d' = d) (fun d' => d' = d) d := by
  unfold addBatch
  rw [ends_bind, ends_checkOpen]
  split
  · rfl
  refine ends_resolveThen (fun bindings filled hresolved => ?_) (fun _ => rfl) rfl
  rw [ends_bind, statement, ends_read]
  dsimp only
  split
  · next first rest hbatch =>
    rw [ends_bind, ends_require]
    split
    · next hsql =>
      refine ⟨filled, hresolved, fun f hf => ?_, rfl⟩
      rw [hbatch] at hf
      obtain rfl : first = f := Option.some.inj hf
      exact beq_iff_eq.1 hsql
    · rfl
  · next hbatch =>
    refine ⟨filled, hresolved, fun f hf => ?_, rfl⟩
    rw [hbatch] at hf
    cases hf

theorem minds_noneSubmitted (start : List Watch) : b.watched.Minds (Since NoneSubmitted start) := by
  have hnone {α : Type} {c : Call (Watched σ) α}
      (hc : Asks (fun r => ∀ h entries, r ≠ .executeBatch h entries) c) :
      Obeys (.always NativeFault (Since NoneSubmitted start)) c := by
    refine hc.keeps (forall_append_of (fun _ hx => hx) fun x hx => ?_) start
    unfold Watch.submitted
    split
    · exact absurd rfl (hx _ _)
    · rfl
  refine ⟨?_, fun _ _ => hnone (asks_prepare nofun), fun _ => hnone (asks_close nofun)⟩
  constructor
  · exact fun _ _ _ => hnone (.watch nofun _)
  · exact fun _ => hnone (asks_clearBindings nofun)
  · exact fun _ => hnone (asks_execute nofun)
  · exact fun _ _ => hnone (asks_limitRows nofun)
  · exact fun _ budget => hnone (asks_limitTime (fun _ => nofun) budget)
  · exact fun _ => hnone (.watch nofun _)

theorem ends_executeBatch (d : Desk (Watched σ)) :
    ends (executeBatch b.watched) (fun _ => Submits d) (fun _ => LeavesBatch d) (LeavesBatch d) d := by
  have hminds := minds_noneSubmitted (b := b) d.line.world.link.seen
  have hlaw : CallByCall b.watched (.always Failure (HasBatch d.statement.batch d.line.session.vendor
      (Since NoneSubmitted d.line.world.link.seen))) :=
    hminds.callByCall (fun _ _ h => h) (.of_apart fun _ _ _ h => h)
  have hstart : HasBatch d.statement.batch d.line.session.vendor (Since NoneSubmitted d.line.world.link.seen) d :=
    ⟨rfl, rfl, Since.refl (List.forall_mem_nil _)⟩
  have hkept (d' : Desk (Watched σ))
      (h : HasBatch d.statement.batch d.line.session.vendor (Since NoneSubmitted d.line.world.link.seen) d') :
      LeavesBatch d d' :=
    ⟨h.line.session, h.statement⟩
  unfold executeBatch
  rw [ends_bind, ends_checkOpen]
  split
  · exact hkept d hstart
  rw [ends_bind, statement, ends_read]
  split
  · next hbatch =>
    refine ⟨rfl, hbatch, [], ?_, Since.refl rfl⟩
    rw [hbatch]
    exact .nil
  · next first rest hbatch =>
    rw [ends_bind, ends_session, ends_bind, ends_ofExcept]
    split
    · next values hvalues =>
      have hbound : BoundAs d.line.session.vendor d.statement.batch values := mapM_eq_ok.1 hvalues
      rw [ends_bind, ends_shownParameters]
      refine (obeys_checkTime _ _).thenEnds hstart (fun _ => hkept) hkept fun _ d₁ h₁ => ?_
      refine (hlaw.ensureHandle _).thenEnds h₁ (fun _ => hkept) hkept fun handle d₂ h₂ => ?_
      refine (obeys_recordStart hlaw.record _ _ _ _).thenEnds h₂ (fun _ => hkept) hkept fun _ d₃ h₃ => ?_
      have hleft (w : World (Watched σ)) : LeavesBatch d { d₃ with line := { d₃.line with world := w } } :=
        ⟨h₃.line.session, h₃.statement⟩
      rw [ends_bind]
      refine ends_callInTime _ _ (fun _ => hkept d₃ h₃) (hkept d₃ h₃) fun before _ _ => ?_
      refine (hminds.limitTime handle before).thenEnds h₃.line.world (fun _ w _ => hleft w) (fun w _ => hleft w)
        fun _ w hw => ?_
      refine ends_watch _ _ (fun counts w' hw' => ?_) (fun _ w' _ => hleft w') fun w' _ => hleft w'
      split
      · exact hleft w'
      · -- the batch is the only one that was submitted
        have hsubmitted : Since (fun calls => calls.flatMap Watch.submitted = values) d.line.world.link.seen w' := by
          refine hw.trans (M := fun more => more = [.called (.executeBatch handle values) (.done ()) w'.now])
            ⟨_, hw', rfl⟩ fun calls more hcalls hmore => ?_
          rw [hmore, List.flatMap_append, hcalls.flatMap, List.nil_append]
          exact List.append_nil values
        exact ⟨h₃.line.session, rfl, values, hbound, hsubmitted⟩
    · exact hkept d hstart

def Action.changesBatch : Action → Bool
  | .addBatch | .executeBatch | .close => true
  | _ => false

theorem keepsBatch_perform {action : Action} (haction : action.changesBatch = false) {batch : List Filled}
    {v : Vendor} : Obeys (.always Failure (HasBatch batch v fun _ => True)) (action.perform b) := by
  have hlaw : CallByCall b (.always Failure (HasBatch batch v fun _ => True)) :=
    (Backend.Minds.trivially b).callByCall (fun _ _ h => h) (.of_apart fun _ _ _ h => h)
  have hne {other : Action} (hother : other.changesBatch = true) : action ≠ other := by
    rintro rfl
    rw [hother] at haction
    cases haction
  exact obeys_action (fun _ => .modify fun _ hd => ⟨hd.statement, hd.line⟩) (fun h => absurd h (hne rfl))
    (fun h => absurd h (hne rfl)) fun hexecutes => hlaw.perform hexecutes fun h => absurd h (hne rfl)

/-! ### Played actions -/

abbrev Turn (σ : Type) := NamedSql.Turn (Desk σ) Action

abbrev Played (σ : Type) := NamedSql.Played Failure (Desk σ) Action Result

/-- The entry that a played action took in, if it did. -/
def Played.accepted (p : Played σ) : List Filled :=
  match p.action, p.outcome with
  | .addBatch, .done _ => p.found.resolved.toList
  | _, _ => []

/-- The entries that a played action executed, as the database got them, if it was a batch that
succeeded. -/
def Played.submitted (p : Played (Watched σ)) : List (List Value) :=
  match p.action, p.outcome with
  | .executeBatch, .done _ =>
    (p.left.line.world.link.seen.drop p.found.line.world.link.seen.length).flatMap Watch.submitted
  | _, _ => []

/-- What an action does to the batch. -/
structure Played.Conserves (p : Played (Watched σ)) : Prop where
  vendor : p.left.line.session.vendor = p.found.line.session.vendor
  entries : ∃ entries, p.found.statement.batch ++ p.accepted = entries ++ p.left.statement.batch ∧
    BoundAs p.found.line.session.vendor entries p.submitted
  sameSql : SameSql p.found.statement.batch → SameSql p.left.statement.batch
  failedBatch : p.action = .executeBatch → (∀ r, p.outcome ≠ .done r) →
    p.left.statement.batch = p.found.statement.batch
  added : ∀ r, p.action = .addBatch → p.outcome = .done r → p.left.statement.bindings = Bindings.empty
  failedAdding : p.action = .addBatch → (∀ r, p.outcome ≠ .done r) → p.left.statement = p.found.statement

theorem SameSql.concat {entries : List Filled} {entry : Filled} (h : SameSql entries)
    (hfirst : ∀ first ∈ entries.head?, first.sql = entry.sql) : SameSql (entries ++ [entry]) := by
  have hentry : ∀ f ∈ entries ++ [entry], f.sql = entry.sql := by
    intro f hf
    rcases List.mem_append.1 hf with hf | hf
    · rcases entries with _ | ⟨first, rest⟩
      · cases hf
      · exact (h f hf first List.mem_cons_self).trans (hfirst first rfl)
    · rw [List.mem_singleton.1 hf]
  exact fun f hf g hg => (hentry f hf).trans (hentry g hg).symm

namespace Played.Conserves

theorem of_kept {p : Played (Watched σ)} (hvendor : p.left.line.session.vendor = p.found.line.session.vendor)
    (hbatch : p.left.statement.batch = p.found.statement.batch) (haccepted : p.accepted = [])
    (hsubmitted : p.submitted = []) (hadded : p.action = .addBatch →
      p.left.statement = p.found.statement ∧ ∀ r, p.outcome ≠ .done r) : p.Conserves where
  vendor := hvendor
  entries := by
    refine ⟨[], ?_, ?_⟩
    · rw [haccepted, hbatch, List.append_nil, List.nil_append]
    · rw [hsubmitted]
      exact .nil
  sameSql h := hbatch ▸ h
  failedBatch _ _ := hbatch
  added r haction hr := absurd hr ((hadded haction).2 r)
  failedAdding haction _ := (hadded haction).1

end Played.Conserves

theorem conserves_addBatch {d d' : Desk (Watched σ)} {r : Outcome Failure Result}
    (h : Action.addBatch.perform b.watched d = (r, d')) : Played.Conserves ⟨.addBatch, d, r, d'⟩ := by
  have hends : ends (Action.addBatch.perform b.watched) (fun _ => TakesIn d) (fun _ d' => d' = d)
      (fun d' => d' = d) d := (ends_bind _ _).2 (ends_addBatch d)
  unfold ends at hends
  rw [h] at hends
  cases r with
  | done x =>
    obtain ⟨filled, hresolved, hfirst, rfl⟩ := hends
    have hentries : d.statement.batch ++ d.resolved.toList = [] ++ (d.statement.batch ++ [filled]) := by
      rw [hresolved]
      rfl
    exact
      { vendor := rfl
        entries := ⟨[], hentries, .nil⟩
        sameSql := fun hsame => hsame.concat hfirst
        failedBatch := nofun
        added := fun _ _ _ => rfl
        failedAdding := fun _ hr => absurd rfl (hr x) }
  | failed e =>
    obtain rfl : d' = d := hends
    exact .of_kept rfl rfl rfl rfl fun _ => ⟨rfl, fun _ => nofun⟩
  | overflow =>
    obtain rfl : d' = d := hends
    exact .of_kept rfl rfl rfl rfl fun _ => ⟨rfl, fun _ => nofun⟩

theorem conserves_executeBatch {d d' : Desk (Watched σ)} {r : Outcome Failure Result}
    (h : Action.executeBatch.perform b.watched d = (r, d')) : Played.Conserves ⟨.executeBatch, d, r, d'⟩ := by
  have hends : ends (Action.executeBatch.perform b.watched) (fun _ => Submits d) (fun _ => LeavesBatch d)
      (LeavesBatch d) d := (ends_map _ _).2 (ends_executeBatch d)
  unfold ends at hends
  rw [h] at hends
  cases r with
  | done x =>
    obtain ⟨hvendor, hbatch, values, hbound, calls, hseen, rfl⟩ := hends
    have hentries : d.statement.batch ++ [] = d.statement.batch ++ d'.statement.batch := by
      rw [hbatch]
    have hsubmitted : BoundAs d.line.session.vendor d.statement.batch
        ((d'.line.world.link.seen.drop d.line.world.link.seen.length).flatMap Watch.submitted) := by
      rw [hseen, List.drop_left]
      exact hbound
    have hsame : SameSql d'.statement.batch := by
      rw [hbatch]
      exact List.forall_mem_nil _
    exact
      { vendor := hvendor
        entries := ⟨d.statement.batch, hentries, hsubmitted⟩
        sameSql := fun _ => hsame
        failedBatch := fun _ hr => absurd rfl (hr x)
        added := nofun
        failedAdding := nofun }
  | failed e => exact .of_kept hends.1 hends.2 rfl rfl nofun
  | overflow => exact .of_kept hends.1 hends.2 rfl rfl nofun

theorem conserves_of_honest {p : Played (Watched σ)} (h : p.Honest (Action.perform b.watched))
    (hclose : p.action ≠ .close) : p.Conserves := by
  obtain ⟨action, d, r, d'⟩ := p
  have hkept (haction : action.changesBatch = false) :
      d'.line.session.vendor = d.line.session.vendor ∧ d'.statement.batch = d.statement.batch := by
    have hends := keepsBatch_perform (b := b.watched) haction d ⟨rfl, rfl, trivial⟩
    have hleft := hends.left
    rw [show action.perform b.watched d = (r, d') from h] at hleft
    exact ⟨hleft.line.session, hleft.statement⟩
  cases action with
  | addBatch => exact conserves_addBatch h
  | executeBatch => exact conserves_executeBatch h
  | close => exact absurd rfl hclose
  | _ => exact .of_kept (hkept rfl).1 (hkept rfl).2 rfl rfl nofun

/-! ### Histories -/

/-- Turns of a statement that is not closed; what happens meanwhile leaves the batch and the vendor. -/
def Turn.Sparing : Turn σ → Prop
  | .act action => action ≠ .close
  | .meanwhile change => ∀ d, LeavesBatch d (change d)

/-- What was accepted comes behind what waited before, and was executed or waits now. -/
theorem play_conserves {turns : List (Turn (Watched σ))} (hturns : ∀ t ∈ turns, t.Sparing)
    {d last : Desk (Watched σ)} {played : List (Played (Watched σ))}
    (h : play (Action.perform b.watched) turns d = (played, last)) :
    last.line.session.vendor = d.line.session.vendor ∧
      ∃ entries, d.statement.batch ++ played.flatMap Played.accepted = entries ++ last.statement.batch ∧
        BoundAs d.line.session.vendor entries (played.flatMap Played.submitted) := by
  induction turns generalizing d played with
  | nil =>
    obtain ⟨rfl, rfl⟩ := Prod.mk.inj h
    exact ⟨rfl, [], List.append_nil _, .nil⟩
  | cons turn rest ih =>
    obtain ⟨hturn, hrest⟩ := List.forall_mem_cons.1 hturns
    cases turn with
    | act action =>
      obtain ⟨p, others, rfl, rfl, hhonest, hplay, rfl⟩ := play_act h
      have hfirst : Played.Conserves p := conserves_of_honest hhonest hturn
      obtain ⟨hvendor, entries, hentries, hbound⟩ := ih hrest hplay
      -- what this action executes comes in front of what the rest executes
      obtain ⟨entries₁, hentries₁, hbound₁⟩ := hfirst.entries
      refine ⟨hvendor.trans hfirst.vendor, entries₁ ++ entries, ?_, ?_⟩
      · rw [List.flatMap_cons, ← List.append_assoc, hentries₁, List.append_assoc, hentries, List.append_assoc]
      · rw [hfirst.vendor] at hbound
        exact List.rel_append hbound₁ hbound
    | meanwhile change =>
      obtain ⟨hvendor, hbatch⟩ := hturn d
      have hlast := ih hrest h
      rwa [hbatch, hvendor] at hlast

theorem sameSql_of_play {turns : List (Turn (Watched σ))} (hturns : ∀ t ∈ turns, t.Sparing)
    {d last : Desk (Watched σ)} {played : List (Played (Watched σ))} (hd : SameSql d.statement.batch)
    (h : play (Action.perform b.watched) turns d = (played, last)) :
    ∀ p ∈ played, SameSql p.found.statement.batch ∧ SameSql p.left.statement.batch := by
  refine (play_keeps (I := fun d => SameSql d.statement.batch) (fun p _ hp hmem => ?_)
    (fun change hmem d hsame => ?_) hd h).1
  · exact (conserves_of_honest hp (hturns _ hmem)).sameSql
  · show SameSql (change d).statement.batch
    rw [(hturns _ hmem d).2]
    exact hsame

/-- A statement that is not closed starts without a batch, and the database is watched, which changes
nothing. However the actions end and whatever happens in between, the entries that were taken in, each
filled with the bindings of its moment, are those that successful executions of the batch gave to the
database, followed by those that wait, in this order. All that wait have the same SQL. A batch that fails
stays as it is. An entry that is taken in clears the bindings, one that is not changes nothing. -/
theorem batches_conserved (b : Backend σ) {turns : List (Turn (Watched σ))} (hturns : ∀ t ∈ turns, t.Sparing)
    {d last : Desk (Watched σ)} {played : List (Played (Watched σ))} (hempty : d.statement.batch = [])
    (h : play (Action.perform b.watched) turns d = (played, last)) :
    (∃ entries, played.flatMap Played.accepted = entries ++ last.statement.batch ∧
      BoundAs d.line.session.vendor entries (played.flatMap Played.submitted)) ∧
    ∀ p ∈ played, p.action.perform b p.found.unwatched = (p.outcome, p.left.unwatched) ∧
      SameSql p.left.statement.batch ∧
      (p.action = .executeBatch → (∀ r, p.outcome ≠ .done r) →
        p.left.statement.batch = p.found.statement.batch) ∧
      (∀ r, p.action = .addBatch → p.outcome = .done r → p.left.statement.bindings = Bindings.empty) ∧
      (p.action = .addBatch → (∀ r, p.outcome ≠ .done r) → p.left.statement = p.found.statement) := by
  obtain ⟨-, entries, hentries, hbound⟩ := play_conserves hturns h
  have hsame : SameSql d.statement.batch := by
    rw [hempty]
    exact List.forall_mem_nil _
  rw [hempty, List.nil_append] at hentries
  refine ⟨⟨entries, hentries, hbound⟩, fun p hp => ?_⟩
  obtain ⟨hhonest, hmem⟩ := honest_of_play h p hp
  have hconserves : p.Conserves := conserves_of_honest hhonest (hturns _ hmem)
  exact ⟨perform_unwatched p.action hhonest, (sameSql_of_play hturns hsame h p hp).2, hconserves.failedBatch,
    hconserves.added, hconserves.failedAdding⟩

/-- An entry is taken in, its batch fails, and a second entry is taken in before the batch succeeds. -/
def retriedBatch : List (Turn (Watched Script)) :=
  [.act (.bind (.name "k") (.value (.integer 1))), .act .addBatch, .act .executeBatch,
    .act (.bind (.name "k") (.value (.integer 2))), .act .addBatch, .act .executeBatch]

def retriedDesk : Desk (Watched Script) where
  statement := ofTemplate .sqlite ⟨"DELETE FROM t WHERE k = :k", '\\',
    "DELETE FROM t WHERE k = ".toList.map .sql ++ [.marker ⟨"k", false, false, none⟩]⟩ none
  memos := []
  line :=
    { session := .start "main" .default
      world := ⟨⟨Script.empty.push ⟨0, .fault ⟨none, 5, "busy"⟩⟩, []⟩, .epoch⟩
      log := [] }

theorem batches_conserved_of_retry : ∃ played last,
    play (Action.perform Script.streaming.watched) retriedBatch retriedDesk = (played, last) ∧
    last.statement.batch = [] ∧ (played.flatMap Played.accepted).length = 2 ∧
    (played.flatMap Played.submitted).length = 2 := by
  obtain ⟨played, last, hplay, hlast, haccepted⟩ : ∃ played last,
      play (Action.perform Script.streaming.watched) retriedBatch retriedDesk = (played, last) ∧
      last.statement.batch = [] ∧ (played.flatMap Played.accepted).length = 2 :=
    ⟨_, _, rfl, rfl, by decide +kernel⟩
  have hturns : ∀ t ∈ retriedBatch, t.Sparing := by
    simp only [retriedBatch, List.forall_mem_cons, Turn.Sparing]
    exact ⟨nofun, nofun, nofun, nofun, nofun, nofun, List.forall_mem_nil _⟩
  obtain ⟨⟨entries, hentries, hbound⟩, -⟩ := batches_conserved Script.streaming hturns rfl hplay
  rw [hlast, List.append_nil] at hentries
  have hsubmitted : (played.flatMap Played.submitted).length = 2 := by
    rw [← hbound.length_eq, ← hentries, haccepted]
  exact ⟨played, last, hplay, hlast, haccepted, hsubmitted⟩

end Statement

end NamedSql
