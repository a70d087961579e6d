import NamedSql.Proofs.Batch
import NamedSql.Proofs.Holding
import NamedSql.Proofs.Noting
import NamedSql.Proofs.Scripted

/-!
# Nothing stale

A statement uses its handle again and again, for executions with other values and other windows, and after ones that
failed half way. `Bears` is its invariant on a noted database: the handle that it holds carries its SQL as long as it
is open. Whatever was done before, an execution finds a handle that carries the SQL, the values and the limit of this
execution and nothing else (`nothing_stale`).
-/

namespace NamedSql

open NamedSql.Flow

variable {σ α : Type} {b : Backend σ} {carried : σ → Nat → Option Carried}

namespace Statement

/-- A statement with `S` whose handle carries its SQL, where what was noted after `start` has `K`. -/
abbrev Bears (carried : σ → Nat → Option Carried) (S : Statement → Prop) (v : Vendor)
    (K : List (Option Carried) → Prop) (start : List (Option Carried)) : Desk (Noted σ) → Prop :=
  Holds (Noted.kept carried) S v (Noted.Since K start)

section
variable {S : Statement → Prop} {v : Vendor} {K K' : List (Option Carried) → Prop} {start : List (Option Carried)}
  {d : Desk (Noted σ)} {each : Bool} {handle : Nat} {sql : String} (hb : b.Keeping carried)
include hb

theorem bears_release (handle : Nat) (sql : String) : Obeys (.always Failure (Bears carried S v K start))
    (onLine (Session.release (b.noting carried each) handle sql)) :=
  holds_release (Backend.keeping_noting hb each) (fun handle => Noted.since_within (b.close handle)) handle sql

theorem bears_readOut {m : Cursor.Reading (Noted σ) α}
    (hm : ∀ {W}, (∀ feed, Obeys (.always NativeFault W) ((b.noting carried each).nextRow feed)) → Cursor.Minds W m)
    (c : Cursor) : Obeys (.always Failure (Bears carried S v K start)) (readOut c m) :=
  holds_readOut (Backend.keeping_noting hb each) hm Noted.since_nextRow c

/-- A call in time finds what the handle carried before. -/
theorem bears_callInTime {c : Call (Noted σ) α} (hd : Bears carried S v K start d)
    (hK : ∀ more, K more → K' more) (parameters : Option String) (hquiet : Quiet (Noted.kept carried) c)
    (hc : ∀ w, handle ∈ d.line.session.handles → carried w.link.link = carried d.line.world.link.link →
      Noted.Since K start w →
      ends c (fun _ => Noted.Since K' start) (fun _ => Noted.Since K' start) (Noted.Since K' start) w) :
    ends (callInTime (b.noting carried each) handle sql parameters c) (fun _ => Bears carried S v K' start)
      (fun _ => Bears carried S v K' start) (Bears carried S v K' start) d := by
  refine ends_mono (holds_callInTime (Backend.keeping_noting hb each) hd (fun _ hw => hw.mono hK) parameters
    (Noted.since_limitTime handle) hquiet hc) (fun _ _ h => h) (fun _ _ h => ?_) fun _ h => h
  rcases h with h | ⟨-, -, h⟩
  · exact h
  · exact h

variable (hS : ∀ st handle, S st → S { st with handle })
include hS

/-- Executing on the handle of the statement, whose SQL is prepared if need be, and then further work. -/
theorem bears_onHandle {β : Type} {c : Nat → Call (Noted σ) β} {f : Nat → β → Work (Noted σ) α}
    (hd : Bears carried S v K start d) (hK : ∀ more, K more → K' more) (sql : String) (shown : Option String)
    (activity : Activity) (window : Option Window) (hquiet : ∀ handle, Quiet (Noted.kept carried) (c handle))
    (hc : ∀ handle w, texts carried w.link.link handle = some sql → Noted.Since K start w →
      ends (c handle) (fun _ => Noted.Since K' start) (fun _ => Noted.Since K' start) (Noted.Since K' start) w)
    (hf : ∀ handle x, Obeys (.always Failure (Bears carried S v K' start)) (f handle x)) :
    ends (checkTime sql shown >>= fun _ => ensureHandle (b.noting carried each) sql >>= fun handle =>
        recordStart activity sql shown window >>= fun _ =>
          callInTime (b.noting carried each) handle sql shown (c handle) >>= f handle)
      (fun _ => Bears carried S v K' start) (fun _ => Bears carried S v K' start) (Bears carried S v K' start) d := by
  have hmono (d' : Desk (Noted σ)) (h : Bears carried S v K start d') : Bears carried S v K' start d' :=
    h.mono fun _ hw => hw.mono hK
  refine holds_beforeCall (Backend.keeping_noting hb each) hS (fun handle sql => Noted.since_within (b.prepare handle sql))
    (fun handle => Noted.since_within (b.close handle)) hd (fun _ => hmono) hmono sql shown activity window
    fun handle d' hd' hhandle => ?_
  refine (bears_callInTime hb hd' hK shown (hquiet handle) fun w hopen hw hsince => ?_).bind fun x => hf handle x
  have htext := hd'.line.text (handle, sql) hhandle hopen
  exact hc handle w ((congrFun (texts_of_carried hw) handle).trans htext) hsince

/-! ### Executions -/

theorem bears_run (activity : Activity) (bindings : Bindings) {filled : Filled} {window : Option Window}
    (hK : ∀ st values, S st → boundValues v filled.values = .ok values → ∀ more, K more →
      K (more ++ [some (.exactly (st.executableSql v filled.sql) values (window.bind Window.maxRows))])) :
    Obeys (.always Failure (Bears carried S v K start)) (run (b.noting carried each) activity bindings filled window) := by
  intro d hd
  unfold run
  rw [ends_bind, statement, ends_read, ends_bind, ends_session, ends_bind, ends_ofExcept, hd.line.vendor]
  split
  · next values hvalues =>
    rw [ends_bind, ends_shownParameters]
    refine bears_onHandle hb hS hd (fun _ h => h) _ _ _ _ (fun handle sqls => ?_) (fun handle w htext hw => ?_)
      fun _ _ => .pure _
    · exact ((Backend.keeping_noting hb each).mindsOpen sqls).executeWith handle values _
    · exact Noted.ends_executeWith hb htext hw (fun _ h => h) (hK d.statement values hd.statement hvalues)
  · exact hd

omit hS in
/-- A count is executed on a handle of its own, which is new. -/
theorem bears_countFilled (label : String) (bindings : Bindings) {filled : Filled}
    (hK : ∀ values, boundValues v filled.values = .ok values → ∀ more, K more →
      K (more ++ [some (.exactly (v.countSql filled.sql) values none)])) :
    Obeys (.always Failure (Bears carried S v K start)) (countFilled (b.noting carried each) label bindings filled) := by
  refine fun d hd => ends_countFilled label bindings hd holds_record (bears_release hb)
    fun values hvalues d₁ h₁ => ?_
  rw [hd.line.vendor] at hvalues ⊢
  refine ends_mono (holds_openHandle (Backend.keeping_noting hb each) h₁ _ fun handle =>
    Noted.since_within (b.prepare handle _)) ?_ (fun _ _ h => h) fun _ h => h
  rintro handle d₂ ⟨h₂, -, -, hfresh⟩ shown log
  have hquiet : Quiet (Noted.kept carried) ((b.noting carried each).bindFrom handle 1 values >>= fun _ =>
      (b.noting carried each).execute handle) := fun sqls =>
    ((Backend.keeping_noting hb each).mindsOpen sqls).executeBound handle values
  unfold countRow
  refine (bears_callInTime hb h₂.withLog (fun _ h => h) shown hquiet fun w _ hw hsince => ?_).bind fun reply d₃ h₃ => ?_
  · have hnew : carried w.link.link handle = some (.exactly (v.countSql filled.sql) [] none) := by
      rw [hw, ← Carried.fresh_eq]
      exact hfresh
    exact Noted.ends_executeBound hb hnew hsince (fun _ h => h) (hK values hvalues)
  · cases reply with
    | rows feed => exact bears_readOut hb (fun h => Cursor.minds_nextRow h) _ d₃ h₃
    | count n => exact h₃

end

/-! ### What executions find -/

/-- The SQL that an action executes for the SQL of a filled template. -/
def Action.executedSql (v : Vendor) (st : Statement) (sql : String) : Action → String
  | .count => v.countSql sql
  | _ => st.executableSql v sql

/-- What a handle carries for the execution of an action: what the statement comes to, the values of that, and the
limit of the window of the action. -/
def Action.Sends (d : Desk σ) (action : Action) (x : Option Carried) : Prop :=
  action.executes = true ∧ ∃ filled values, d.resolved = some filled ∧
    boundValues d.line.session.vendor filled.values = .ok values ∧
    x = some (.exactly (action.executedSql d.line.session.vendor d.statement filled.sql) values
      ((action.window? d.statement).bind Window.maxRows))

/-- What the handle carries for the entry of the batch with the number. -/
def SendsEntry (d : Desk σ) (i : Nat) (x : Option Carried) : Prop :=
  ∃ first entry values maxRows, d.statement.batch.head? = some first ∧ d.statement.batch[i]? = some entry ∧
    boundValues d.line.session.vendor entry.values = .ok values ∧
    x = some (.exactly (d.statement.executableSql d.line.session.vendor first.sql) values maxRows)

/-- What the executions of an action find. -/
def Action.Finds (d : Desk σ) (action : Action) (found : List (Option Carried)) : Prop :=
  match action with
  | .executeBatch => ∀ i x, found[i]? = some x → SendsEntry d i x
  | _ => ∀ x ∈ found, action.Sends d x

theorem Action.finds_nil (d : Desk σ) (action : Action) : action.Finds d [] := by
  cases action with
  | executeBatch => exact nofun
  | _ => exact List.forall_mem_nil _

theorem Action.finds_of_forall {d : Desk σ} {action : Action} {found : List (Option Carried)}
    (haction : action ≠ .executeBatch) (h : ∀ x ∈ found, action.Sends d x) : action.Finds d found := by
  cases action with
  | executeBatch => exact absurd rfl haction
  | _ => exact h

theorem sendsEntry_of_entered {d : Desk σ} {first : Filled} {rest : List Filled} {entries : List (List Value)}
    (hbatch : d.statement.batch = first :: rest) (hentries :
      d.statement.batch.mapM (fun entry => boundValues d.line.session.vendor entry.values) = .ok entries)
    {found : List (Option Carried)}
    (h : Noted.Entered (d.statement.executableSql d.line.session.vendor first.sql) entries found) (i : Nat)
    (x : Option Carried) (hx : found[i]? = some x) : SendsEntry d i x := by
  obtain ⟨values, maxRows, hvalues, rfl⟩ := h i x hx
  obtain ⟨hi, rfl⟩ := List.getElem?_eq_some_iff.1 hvalues
  obtain ⟨hlength, hall⟩ := List.forall₂_iff_get.1 (mapM_eq_ok.1 hentries)
  exact ⟨first, _, _, maxRows, by rw [hbatch]; rfl, List.getElem?_eq_getElem (hlength ▸ hi), hall i _ hi, rfl⟩

/-- Since `d` nothing was noted. -/
abbrev BearsQuietly (carried : σ → Nat → Option Carried) (d : Desk (Noted σ)) : Desk (Noted σ) → Prop :=
  Bears carried (fun _ => True) d.line.session.vendor (· = []) d.line.world.link.sightings

/-- Since `d` only executions of the action were noted. -/
abbrev BearsFound (carried : σ → Nat → Option Carried) (d : Desk (Noted σ)) (action : Action) :
    Desk (Noted σ) → Prop :=
  Bears carried (fun _ => True) d.line.session.vendor (action.Finds d) d.line.world.link.sightings

theorem BearsQuietly.found {d d' : Desk (Noted σ)} (h : BearsQuietly carried d d') (action : Action) :
    BearsFound carried d action d' :=
  h.mono fun _ hw => hw.mono fun _ hnone => hnone ▸ Action.finds_nil d action

section
variable {d : Desk (Noted σ)} (each : Bool) (hb : b.Keeping carried)
include hb

theorem bears_executeBatch (hd : BearsQuietly carried d d) :
    ends (executeBatch (b.noting carried each)) (fun _ => BearsFound carried d .executeBatch)
      (fun _ => BearsFound carried d .executeBatch) (BearsFound carried d .executeBatch) d := by
  unfold executeBatch
  rw [ends_bind, ends_checkOpen]
  split
  · exact hd.found _
  rw [ends_bind, statement, ends_read]
  split
  · exact hd.found _
  · next first rest hbatch =>
    rw [ends_bind, ends_session, ends_bind, ends_ofExcept]
    split
    · next entries hentries =>
      rw [ends_bind, ends_shownParameters]
      refine bears_onHandle hb (fun _ _ h => h) hd (fun _ h => h ▸ Action.finds_nil d .executeBatch) _ _ _ _
        (fun handle => (Backend.keeping_noting hb each).executeBatch handle entries) (fun handle w htext hw => ?_)
        fun _ counts => ?_
      · obtain ⟨_, hseen, rfl⟩ := hw
        rw [List.append_nil] at hseen
        have hentered (u : World (Noted σ)) (hu : Noted.Since (Noted.Entered _ entries) w.link.sightings u) :
            Noted.Since (Action.executeBatch.Finds d) d.line.world.link.sightings u :=
          hseen ▸ hu.mono fun _ h => sendsEntry_of_entered hbatch hentries h
        exact ends_mono (Noted.ends_executeBatch hb entries htext) (fun _ => hentered) (fun _ => hentered) hentered
      · exact Obeys.bind (.modify fun _ h => ⟨trivial, h.line⟩) fun _ => (holds_record _).bind fun _ => .pure counts
    · exact hd.found _

theorem bears_executing {action : Action} (haction : action.executes = true) (hbatch : action ≠ .executeBatch)
    (hd : BearsQuietly carried d d) :
    ends (action.perform (b.noting carried each)) (fun _ => BearsFound carried d action)
      (fun _ => BearsFound carried d action) (BearsFound carried d action) d := by
  let v : Vendor := d.line.session.vendor
  -- what is executed does not depend on the handle
  let I : Desk (Noted σ) → Prop :=
    Bears carried (fun st => ∀ sql, st.executableSql v sql = d.statement.executableSql v sql) v
      (fun found => ∀ x ∈ found, action.Sends d x) d.line.world.link.sightings
  have hI : I d := ⟨fun _ => rfl, hd.line.mono fun hw => hw.mono fun _ h => h ▸ List.forall_mem_nil _⟩
  have hback (d' : Desk (Noted σ)) (h : I d') : BearsFound carried d action d' :=
    ⟨trivial, h.line.mono fun hw => hw.mono fun _ => Action.finds_of_forall hbatch⟩
  have hsent {filled : Filled} {values : List Value} (hresolved : d.resolved = some filled)
      (hvalues : boundValues v filled.values = .ok values) {sql : String}
      (hsql : sql = action.executedSql v d.statement filled.sql) (more : List (Option Carried))
      (hmore : ∀ x ∈ more, action.Sends d x) :
      ∀ x ∈ more ++ [some (.exactly sql values ((action.window? d.statement).bind Window.maxRows))],
        action.Sends d x :=
    List.forall_mem_append.2 ⟨hmore, List.forall_mem_singleton.2
      ⟨haction, filled, values, hresolved, hvalues, by rw [hsql]⟩⟩
  refine ends_mono ?_ (fun _ => hback) (fun _ => hback) hback
  by_cases hcount : action = .count
  · subst hcount
    refine (ends_map _ _).2 (ends_count (L := .always Failure I) hI fun label bindings filled hresolved => ?_)
    exact bears_countFilled hb label bindings (fun values hvalues => hsent hresolved hvalues rfl) d hI
  · have hlawful : Lawful (b.noting carried each) (.always Failure I) fun filled window =>
        d.resolved = some filled ∧ window = action.window? d.statement :=
      { setMemo := holds_setMemo
        record := holds_record
        run activity bindings filled window h := by
          refine bears_run hb (fun _ _ hst => hst) activity bindings fun st values hst hvalues => ?_
          rw [h.2]
          refine hsent h.1 hvalues ((hst _).trans ?_)
          cases action with
          | count => exact absurd rfl hcount
          | _ => rfl
        readAll := bears_readOut hb fun h => Cursor.minds_readAll h
        nextRow := bears_readOut hb fun h => Cursor.minds_nextRow h }
    exact hlawful.ends_perform hI haction (fun filled hresolved => ⟨hresolved, rfl⟩) (fun h => absurd h hcount)
      fun h => absurd h hbatch

/-- Whatever an action executes finds what it sends. -/
theorem bears_perform (action : Action) (hd : BearsQuietly carried d d) :
    ends (action.perform (b.noting carried each)) (fun _ => BearsFound carried d action)
      (fun _ => BearsFound carried d action) (BearsFound carried d action) d := by
  by_cases haction : action.executes = true
  · by_cases hbatch : action = .executeBatch
    · subst hbatch
      exact (ends_map _ _).2 (bears_executeBatch each hb hd)
    · exact bears_executing each hb haction hbatch hd
  · have hquiet : Obeys (.always Failure (BearsQuietly carried d)) (action.perform (b.noting carried each)) := by
      refine obeys_action (fun _ => .modify fun _ h => ⟨trivial, h.line⟩) (fun _ d' h => ?_) (fun _ d' h => ?_)
        fun h => absurd h haction
      · refine ends_mono (ends_addBatch d') ?_ (fun _ _ heq => heq ▸ h) fun _ heq => heq ▸ h
        rintro - _ ⟨filled, -, -, rfl⟩
        exact ⟨trivial, h.line⟩
      · unfold close
        rw [ends_bind, statement, ends_read]
        split
        · rw [ends_bind, modifyStatement, ends_modify]
          split
          · exact bears_release hb _ _ _ ⟨trivial, h.line.unheld⟩
          · exact ⟨trivial, h.line.unheld⟩
        · exact h
    exact ends_mono (hquiet d hd) (fun _ _ h => h.found action) (fun _ _ h => h.found action) fun _ h => h.found action

end

/-! ### Histories -/

/-- What happens on the session of a statement: an action on it, or a deed of the session, on other statements
as well. -/
inductive Doing where
  | own (action : Action)
  | other (deed : Session.Deed)

def Doing.perform (b : Backend σ) : Doing → Work σ Unit
  | own action => discard (action.perform b)
  | other deed => onLine (deed.perform b)

theorem Doing.alike_perform {τ : Type} {r : σ → τ → Prop} {c : Backend τ} (h : b.Alike r c) (doing : Doing) :
    Flow.Alike (Desk.Alike r) (doing.perform b) (doing.perform c) := by
  cases doing with
  | own action => exact (Statement.alike_perform h action).discard
  | other deed => exact alike_onLine (deed.alike_perform h)

/-- What holds from the start of a session on: it is kept by all that is done with the session, gives what holds of the
statement once it is created, and this is kept by all that is done with the statement and beside it. -/
theorem Doing.keeps_play {b : Backend σ} {I : Line σ → Prop} {J : Desk σ → Prop} {fresh l l' : Line σ}
    (hfresh : I fresh) (hdeed : ∀ (deed : Session.Deed) l, I l → I (deed.perform b l).2)
    {earlier : List (NamedSql.Turn (Line σ) Session.Deed)}
    (hearlier : ∀ change, .meanwhile change ∈ earlier → ∀ l, I l → I (change l))
    {before : List (NamedSql.Played Failure (Line σ) Session.Deed Unit)}
    (hbefore : play (Session.Deed.perform b) earlier fresh = (before, l)) {st : Statement} {memos : List Memo}
    (hcreated : I l → J ⟨st, memos, l'⟩) (hdoing : ∀ (doing : Doing) d, J d → J (doing.perform b d).2)
    {turns : List (NamedSql.Turn (Desk σ) Doing)}
    (hturns : ∀ change, .meanwhile change ∈ turns → ∀ d, J d → J (change d)) {last : Desk σ}
    {played : List (NamedSql.Played Failure (Desk σ) Doing Unit)}
    (h : play (Doing.perform b) turns ⟨st, memos, l'⟩ = (played, last)) :
    ∀ p ∈ played, p.Honest (Doing.perform b) ∧ J p.found ∧ J p.left := by
  have hl : I l := (play_keeps (fun p _ hp _ hfound => hp.left_eq ▸ hdeed p.action p.found hfound) hearlier hfresh
    hbefore).2
  have hrun := (play_keeps (fun p _ hp _ hfound => hp.left_eq ▸ hdoing p.action p.found hfound) hturns (hcreated hl)
    h).1
  exact fun p hp => ⟨(honest_of_play h p hp).1, hrun p hp⟩

/-- What happens beside leaves the session, the handle of the statement, and what the handles carry. -/
structure Aside (carried : σ → Nat → Option Carried) (d d' : Desk (Noted σ)) : Prop where
  handle : d'.statement.handle = d.statement.handle
  session : d'.line.session = d.line.session
  carried : carried d'.line.world.link.link = carried d.line.world.link.link

section
variable {v : Vendor} {d d' : Desk (Noted σ)}

/-- The handle that the statement holds carries its SQL. -/
abbrev HoldsSql (carried : σ → Nat → Option Carried) (v : Vendor) (d : Desk (Noted σ)) : Prop :=
  Carries (Noted.kept carried) v (fun _ => True) d.statement.handle d.line

theorem HoldsSql.aside (hd : HoldsSql carried v d) (h : Aside carried d d') : HoldsSql carried v d' := by
  obtain ⟨hhandle, hsession, hcarried⟩ := h
  have htexts : texts (Noted.kept carried) d'.line.world.link = texts (Noted.kept carried) d.line.world.link :=
    texts_of_carried hcarried
  refine ⟨hsession ▸ hd.vendor, hsession ▸ hd.session, ?_, ?_, trivial⟩
  · rw [hhandle, hsession]
    exact hd.older
  · rw [hhandle, hsession, htexts]
    exact hd.text

variable (each : Bool) (hb : b.Keeping carried)
include hb

theorem bears_own (action : Action) (hd : HoldsSql carried v d) :
    BearsFound carried d action ((Doing.own action).perform (b.noting carried each) d).2 := by
  have hends := bears_perform each hb action ⟨trivial, hd.ofVendor.mono fun _ => Noted.Since.refl rfl⟩
  have hdiscarded : ends ((Doing.own action).perform (b.noting carried each)) (fun _ => BearsFound carried d action)
      (fun _ => BearsFound carried d action) (BearsFound carried d action) d :=
    (ends_map _ _).2 hends
  exact hdiscarded.left

theorem holdsSql_perform (doing : Doing) (hd : HoldsSql carried v d) :
    HoldsSql carried v (doing.perform (b.noting carried each) d).2 := by
  cases doing with
  | own action => exact hd.vendor ▸ (bears_own each hb action hd).line.mono fun _ => trivial
  | other deed => exact (obeys_onLine (Session.carries_deed (Backend.keeping_noting hb each) deed) d hd).left

end

/-- A session is started on a database that keeps what is set for its handles, and anything is done with it before a
statement is created. What handles carry is noted when they are executed, which changes nothing. Whatever is done with
the statement and, in between, with the session and other statements: each execution of an operation found a handle
that carried the SQL of this execution, exactly its values, and the limit of its window, and each entry of a batch that
was executed on its own found exactly its own values. -/
theorem nothing_stale (hb : b.Keeping carried) {each : Bool} (heach : each = true → b.executeBatch = b.executeEach)
    {name : String} {settings : Settings} {fresh l l' : Line (Noted σ)} (hfresh : fresh.session = .start name settings)
    {earlier : List (NamedSql.Turn (Line (Noted σ)) Session.Deed)}
    (hearlier : ∀ change, .meanwhile change ∈ earlier → ∀ l, (change l).session = l.session)
    {before : List (NamedSql.Played Failure (Line (Noted σ)) Session.Deed Unit)}
    (hbefore : play (Session.Deed.perform (b.noting carried each)) earlier fresh = (before, l)) {t : Template}
    {page : Option Page} {st : Statement} (hcreate : create (b.noting carried each) t page l = (.done st, l'))
    {turns : List (NamedSql.Turn (Desk (Noted σ)) Doing)}
    (hturns : ∀ change, .meanwhile change ∈ turns → ∀ d, Aside carried d (change d)) {memos : List Memo}
    {last : Desk (Noted σ)} {played : List (NamedSql.Played Failure (Desk (Noted σ)) Doing Unit)}
    (h : play (Doing.perform (b.noting carried each)) turns ⟨st, memos, l'⟩ = (played, last)) :
    ∀ p ∈ played, p.action.perform b (p.found.onto Noted.link) = (p.outcome, p.left.onto Noted.link) ∧
      ∀ action, p.action = .own action → ∃ found,
        p.left.line.world.link.sightings = p.found.line.world.link.sightings ++ found ∧ action.Finds p.found found := by
  have hn : (b.noting carried each).Keeping (Noted.kept carried) := Backend.keeping_noting hb each
  have hany : (b.noting carried each).Minds fun _ => True := .trivially _
  have hstart : Carries (Noted.kept carried) settings.vendor (fun _ => True) none fresh :=
    ⟨congrArg Session.vendor hfresh, hfresh ▸ Session.given_start name settings, nofun, nofun, trivial⟩
  have hl := (play_keeps (fun p _ hp _ hfound => ?_)
    (fun change hchange l hl => hl.ofSession (hearlier change hchange l) trivial) hstart hbefore).2
  · have hrun := play_keeps (fun p _ hp _ hfound => ?_)
      (fun change hchange d hd => HoldsSql.aside hd (hturns change hchange d))
      (holds_create (S := fun _ => True) hn (fun _ _ h => h) hany.prepare hany.close hl trivial memos hcreate).line h
    · intro p hp
      have hhonest := (honest_of_play h p hp).1
      refine ⟨(p.action.alike_perform (b.alike_noting heach)).image Desk.alike_onto_iff hhonest, fun action haction => ?_⟩
      have hleft := bears_own each hb action (hrun.1 p hp).1
      rw [← haction, show p.action.perform (b.noting carried each) p.found = (p.outcome, p.left) from hhonest] at hleft
      exact hleft.line.world
    · have hleft := holdsSql_perform each hb p.action hfound
      rwa [show p.action.perform (b.noting carried each) p.found = (p.outcome, p.left) from hp] at hleft
  · have hleft := (Session.carries_deed hn p.action p.found hfound).left
    rwa [show p.action.perform (b.noting carried each) p.found = (p.outcome, p.left) from hp] at hleft

def reusedTemplate : Template :=
  ⟨"SELECT a FROM t WHERE k = :k", '\\', "SELECT a FROM t WHERE k = ".toList.map .sql ++
    [.marker ⟨"k", false, false, none⟩]⟩

/-- From now on binding fails at a position, or it does not. -/
def failBinding (fault : Option (Nat × NativeFault)) (d : Desk (Noted Script)) : Desk (Noted Script) :=
  { d with line := { d.line with world := { d.line.world with link := { d.line.world.link with
    link := { d.line.world.link.link with bindFault := fault } } } } }

/-- A range is read, then all rows, which fails since the value cannot be bound, then rows are changed, alone and in a
batch, and counted. -/
def reusedTurns : List (NamedSql.Turn (Desk (Noted Script)) Doing) :=
  [.act (.own (.bind (.name "k") (.value (.integer 1)))), .act (.own (.retrieveRange 2 2)),
    .act (.own (.bind (.name "k") (.value (.integer 2)))), .meanwhile (failBinding (some (1, ⟨none, 20, "mismatch"⟩))),
    .act (.own .retrieve), .meanwhile (failBinding none), .act (.other .ping), .act (.own .update),
    .act (.own .addBatch), .act (.own (.bind (.name "k") (.value (.integer 3)))), .act (.own .addBatch),
    .act (.own .executeBatch), .act (.own (.bind (.name "k") (.value (.integer 4)))), .act (.own .count)]

def notedLine : Line (Noted Script) :=
  ⟨.start "main" .default, ⟨⟨.empty, []⟩, .epoch⟩, []⟩

theorem nothing_stale_of_reused : ∃ before l st l' played last,
    play (Session.Deed.perform (Script.buffered.noting Script.carried true)) [.act .ping] notedLine = (before, l) ∧
    create (Script.buffered.noting Script.carried true) reusedTemplate none l = (.done st, l') ∧
    play (Doing.perform (Script.buffered.noting Script.carried true)) reusedTurns ⟨st, [], l'⟩ = (played, last) ∧
    last.line.world.link.sightings.map (Option.map fun c => (c.sql, c.maxRows)) =
      [some ("SELECT 1", none), some ("SELECT a FROM t WHERE k = ?", some 3), some ("SELECT 1", none),
        some ("SELECT a FROM t WHERE k = ?", none), some ("SELECT a FROM t WHERE k = ?", none),
        some ("SELECT a FROM t WHERE k = ?", none),
        some ("SELECT COUNT(*) AS cnt FROM (SELECT a FROM t WHERE k = ?) AS sub", none)] ∧
    ∀ p ∈ played, ∀ action, p.action = .own action → ∃ found,
      p.left.line.world.link.sightings = p.found.line.world.link.sightings ++ found ∧ action.Finds p.found found := by
  obtain ⟨before, l, st, l', played, last, hbefore, hcreate, hplay, hsightings⟩ : ∃ before l st l' played last,
      play (Session.Deed.perform (Script.buffered.noting Script.carried true)) [.act .ping] notedLine = (before, l) ∧
      create (Script.buffered.noting Script.carried true) reusedTemplate none l = (.done st, l') ∧
      play (Doing.perform (Script.buffered.noting Script.carried true)) reusedTurns ⟨st, [], l'⟩ = (played, last) ∧
      last.line.world.link.sightings.map (Option.map fun c => (c.sql, c.maxRows)) =
        [some ("SELECT 1", none), some ("SELECT a FROM t WHERE k = ?", some 3), some ("SELECT 1", none),
          some ("SELECT a FROM t WHERE k = ?", none), some ("SELECT a FROM t WHERE k = ?", none),
          some ("SELECT a FROM t WHERE k = ?", none),
          some ("SELECT COUNT(*) AS cnt FROM (SELECT a FROM t WHERE k = ?) AS sub", none)] :=
    ⟨_, _, _, _, _, _, rfl, rfl, rfl, by decide +kernel⟩
  refine ⟨before, l, st, l', played, last, hbefore, hcreate, hplay, hsightings, fun p hp => ?_⟩
  have hearlier : ∀ change, .meanwhile change ∈ [NamedSql.Turn.act Session.Deed.ping] →
      ∀ l : Line (Noted Script), (change l).session = l.session := by
    intro change hchange
    cases List.mem_singleton.1 hchange
  have hturns : ∀ change, .meanwhile change ∈ reusedTurns → ∀ d, Aside Script.carried d (change d) := by
    intro change hchange d
    simp only [reusedTurns, List.mem_cons, reduceCtorEq, Turn.meanwhile.injEq, List.not_mem_nil, or_false,
      false_or] at hchange
    rcases hchange with rfl | rfl
    · exact ⟨rfl, rfl, rfl⟩
    · exact ⟨rfl, rfl, rfl⟩
  have heach : Script.buffered.executeBatch = Script.buffered.executeEach := by
    funext handle entries
    exact (Backend.executeEach_withBatch _ handle entries).symm
  exact (nothing_stale Script.keeping_buffered (fun _ => heach) rfl hearlier hbefore hcreate hturns hplay p hp).2

end Statement

end NamedSql
