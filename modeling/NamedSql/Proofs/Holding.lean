import NamedSql.Proofs.Carried

/-!
# Statements that hold a handle

A statement holds one handle at most. As long as that is open it carries the SQL that the statement holds it for
(`Holds`), since others do not prepare under it and the statement prepares under new handles only. Operations reach
the database through such a handle (`holds_beforeCall`, `holds_callInTime`).
-/

namespace NamedSql

open NamedSql.Flow

variable {σ α : Type} {b : Backend σ} {carried : σ → Nat → Option Carried}

namespace Statement

/-- A statement with `S` whose handle carries its SQL, on a connection with `W`. -/
structure Holds (carried : σ → Nat → Option Carried) (S : Statement → Prop) (v : Vendor) (W : World σ → Prop)
    (d : Desk σ) : Prop where
  statement : S d.statement
  line : Carries carried v W d.statement.handle d.line

section
variable {S : Statement → Prop} {v : Vendor} {W : World σ → Prop} {d : Desk σ} {handle : Nat} {sql : String}

theorem Holds.mono {W' : World σ → Prop} (h : Holds carried S v W d) (hW : ∀ w, W w → W' w) : Holds carried S v W' d :=
  ⟨h.statement, h.line.mono (hW _)⟩

theorem Holds.withLog {log : List Event} (h : Holds carried S v W d) :
    Holds carried S v W { d with line := { d.line with log } } :=
  ⟨h.statement, h.line.withLog⟩

theorem holds_onLine {m : Dialog σ α} (hm : ∀ held, Obeys (.always Failure (Carries carried v W held)) m) :
    Obeys (.always Failure (Holds carried S v W)) (onLine m) :=
  .within fun d hd => ends_mono (hm _ d.line hd.line) (fun _ _ hl => ⟨hd.statement, hl⟩)
    (fun _ _ hl => ⟨hd.statement, hl⟩) fun _ hl => ⟨hd.statement, hl⟩

theorem holds_record (e : Event) : Obeys (.always Failure (Holds carried S v W)) (onLine (Dialog.record e)) :=
  holds_onLine fun _ => carries_record e

theorem holds_setMemo (n : Nat) (memo : Memo) : Obeys (.always Failure (Holds carried S v W))
    (Flow.within Desk.memosPart (Flow.modify fun memos => memos.set n memo)) :=
  .within fun _ hd => ⟨hd.statement, hd.line⟩

variable (hb : b.Keeping carried)
include hb

theorem holds_release (hclose : ∀ handle, Obeys (.always NativeFault W) (b.close handle)) (handle : Nat)
    (sql : String) : Obeys (.always Failure (Holds carried S v W)) (onLine (Session.release b handle sql)) :=
  holds_onLine fun _ => Session.carries_release hb hclose handle sql

theorem holds_readOut {m : Cursor.Reading σ α}
    (hm : ∀ {W}, (∀ feed, Obeys (.always NativeFault W) (b.nextRow feed)) → Cursor.Minds W m)
    (hnext : ∀ feed, Obeys (.always NativeFault W) (b.nextRow feed)) (c : Cursor) :
    Obeys (.always Failure (Holds carried S v W)) (readOut c m) := by
  intro d hd
  have hread := hd.line.reading (fun sqls => hm fun feed => hb.quiet_nextRow feed sqls) (hm hnext) c
  exact (ends_readOut _ _).2 (ends_mono hread (fun _ _ hl => ⟨hd.statement, hl⟩) (fun _ _ hl => ⟨hd.statement, hl⟩)
    fun _ hl => ⟨hd.statement, hl⟩)

/-! ### Handles -/

theorem holds_openHandle (hd : Holds carried S v W d) (sql : String)
    (hprepare : ∀ handle, Obeys (.always NativeFault W) (b.prepare handle sql)) :
    ends (onLine (Session.openHandle b sql))
      (fun handle d' => Holds carried S v W d' ∧ d'.statement = d.statement ∧
        handle < d'.line.session.nextHandle ∧ carried d'.line.world.link handle = some (.fresh sql))
      (fun _ => Holds carried S v W) (Holds carried S v W) d := by
  rw [ends_onLine]
  unfold Session.openHandle
  rw [ends_bind, Session.ends_checkOpen]
  split
  · exact hd
  · have hprepared := Session.ends_prepareHandle_carries hb hd.line sql hprepare
    exact ends_mono hprepared (fun _ _ hl => ⟨⟨hd.statement, hl.1⟩, rfl, hl.2⟩) (fun _ _ hl => ⟨hd.statement, hl⟩)
      fun _ hl => ⟨hd.statement, hl⟩

section
variable (hS : ∀ st handle, S st → S { st with handle })
  (hprepare : ∀ handle sql, Obeys (.always NativeFault W) (b.prepare handle sql))
include hS hprepare

/-- Afterwards the statement holds a handle for the SQL. -/
theorem holds_prepareFor (hd : Holds carried S v W d) (sql : String) :
    ends (prepareFor b sql)
      (fun handle d' => Holds carried S v W d' ∧ d'.statement.handle = some (handle, sql))
      (fun _ => Holds carried S v W) (Holds carried S v W) d := by
  unfold prepareFor
  refine (holds_openHandle hb hd sql fun handle => hprepare handle sql).bind ?_
  rintro handle d' ⟨hd', -, hgiven, hfresh⟩
  exact ⟨⟨hS _ _ hd'.statement, hd'.line.hold hgiven (congrArg (Option.map Carried.sql) hfresh)⟩, rfl⟩

variable (hclose : ∀ handle, Obeys (.always NativeFault W) (b.close handle))
include hclose

theorem holds_ensureHandle (hd : Holds carried S v W d) (sql : String) :
    ends (ensureHandle b sql)
      (fun handle d' => Holds carried S v W d' ∧ d'.statement.handle = some (handle, sql))
      (fun _ => Holds carried S v W) (Holds carried S v W) d :=
  ends_ensureHandle hd (fun _ hhandle => ⟨hd, hhandle⟩) ⟨hS _ _ hd.statement, hd.line.unheld⟩ (holds_release hb hclose)
    fun _ h => holds_prepareFor hb hS hprepare h sql

theorem holds_prepareNew : Obeys (.always Failure (Holds carried S v W)) (prepareNew b) := by
  intro d hd
  unfold prepareNew
  rw [ends_bind, statement, ends_read, ends_bind, ends_session]
  split
  · exact (ends_map _ _).2 (ends_mono (holds_ensureHandle hb hS hprepare hclose hd _) (fun _ _ h => h.1)
      (fun _ _ h => h) fun _ h => h)
  · exact hd

theorem holds_create {t : Template} {page : Option Page} {l l' : Line σ} {st : Statement}
    (hl : Carries carried v W none l) (hnew : S (ofTemplate v t page)) (memos : List Memo)
    (hcreate : create b t page l = (.done st, l')) : Holds carried S v W ⟨st, memos, l'⟩ := by
  have hstart : Holds carried S v W ⟨ofTemplate l.session.vendor t page, [], l⟩ := by
    rw [hl.vendor]
    exact ⟨hnew, hl⟩
  have hends : ends (create b t page) (fun st l' => Holds carried S v W ⟨st, memos, l'⟩) (fun _ _ => True)
      (fun _ => True) l :=
    ends_create (fun _ => trivial) (ends_mono (holds_prepareNew hb hS hprepare hclose _ hstart)
      (fun _ _ h => ⟨h.statement, h.line⟩) (fun _ _ _ => trivial) fun _ _ => trivial)
  unfold ends at hends
  rw [hcreate] at hends
  exact hends

/-- What comes before the call of an operation. Work that goes on finds a handle that is held for the SQL. -/
theorem holds_beforeCall {f : Nat → Work σ α} {Q : α → Desk σ → Prop} {E : Failure → Desk σ → Prop}
    {O : Desk σ → Prop} (hd : Holds carried S v W d) (hE : ∀ e d', Holds carried S v W d' → E e d')
    (hO : ∀ d', Holds carried S v W d' → O d') (sql : String) (shown : Option String) (activity : Activity)
    (window : Option Window) (hf : ∀ handle d', Holds carried S v W d' →
      d'.statement.handle = some (handle, sql) → ends (f handle) Q E O d') :
    ends (checkTime sql shown >>= fun _ => ensureHandle b sql >>= fun handle =>
      recordStart activity sql shown window >>= fun _ => f handle) Q E O d := by
  refine (obeys_checkTime _ _).thenEnds hd hE hO fun _ d₁ h₁ => ?_
  rw [ends_bind]
  refine ends_mono (holds_ensureHandle hb hS hprepare hclose h₁ sql) ?_ hE hO
  rintro handle d₂ ⟨h₂, hhandle⟩
  rw [ends_bind]
  exact ends_recordStart fun log => hf handle _ h₂.withLog hhandle

end

/-! ### Calls -/

/-- The time of the session was over when a call ended, which is a failure whatever the call gave. -/
def RanOut (sql : String) (parameters : Option String) (e : Failure) (d : Desk σ) : Prop :=
  e = .timeout ⟨sql, parameters, none⟩ ∧
    TimeLimit.budget? d.line.session.timeLimit d.line.world.now = some .exhausted

/-- A call in time finds what the handle carried before, since limiting the time leaves it. -/
theorem holds_callInTime {c : Call σ α} {Q : α → World σ → Prop} {E : World σ → Prop}
    (hd : Holds carried S v W d) (hE : ∀ w, W w → E w) (parameters : Option String)
    (hlimit : ∀ budget, Obeys (.always NativeFault W) (limitTime b handle budget)) (hquiet : Quiet carried c)
    (hc : ∀ w, handle ∈ d.line.session.handles → carried w.link = carried d.line.world.link → W w →
      ends c Q (fun _ => E) E w) :
    ends (callInTime b handle sql parameters c) (fun a => Holds carried S v (Q a))
      (fun e d' => Holds carried S v E d' ∨ RanOut sql parameters e d' ∧ ∃ a, Holds carried S v (Q a) d')
      (Holds carried S v E) d := by
  refine ends_callInTime sql parameters (fun _ => .inl (hd.mono hE)) (hd.mono hE) fun before _ hopen => ?_
  have hleft {W' : World σ → Prop} (w : World σ) (htexts : texts carried w.link = texts carried d.line.world.link)
      (hw : W' w) : Holds carried S v W' { d with line := { d.line with world := w } } :=
    ⟨hd.statement, hd.line.withWorld htexts hw⟩
  have hlimited := (hb.carried_limitTime handle before _ d.line.world rfl).and
    (hlimit before d.line.world hd.line.world)
  rw [ends_bind]
  refine ends_mono hlimited (fun _ w hw => ?_) (fun _ w hw => .inl (hleft w (texts_of_carried hw.1) (hE w hw.2)))
    fun w hw => hleft w (texts_of_carried hw.1) (hE w hw.2)
  have hcalled := (hc w (List.contains_iff_mem.1 hopen) hw.1 hw.2).and
    (hquiet (texts carried d.line.world.link) w (texts_of_carried hw.1))
  refine ends_mono hcalled (fun a w' hw' => ?_) (fun _ w' hw' => .inl (hleft w' hw'.2 hw'.1))
    fun w' hw' => hleft w' hw'.2 hw'.1
  split
  · next hover => exact .inr ⟨⟨rfl, hover⟩, a, hleft w' hw'.2 hw'.1⟩
  · exact hleft w' hw'.2 hw'.1

/-! ### Actions -/

/-- A call that keeps what holds of the connection. -/
theorem obeys_callInTime_holds {c : Call σ α} (hW : b.MindsOpen W) (hquiet : Quiet carried c)
    (hc : Obeys (.always NativeFault W) c) (handle : Nat) (sql : String) (parameters : Option String) :
    Obeys (.always Failure (Holds carried S v W)) (callInTime b handle sql parameters c) := by
  intro d hd
  refine ends_mono (holds_callInTime hb hd (fun _ h => h) parameters (hW.limitTime handle) hquiet
    fun w _ _ hw => hc w hw) (fun _ _ h => h) (fun _ _ h => ?_) fun _ h => h
  rcases h with h | ⟨-, -, h⟩
  · exact h
  · exact h

section
variable (hW : b.Minds W) (hS : ∀ st handle, S st → S { st with handle })
include hW hS

theorem holds_run (activity : Activity) (bindings : Bindings) (filled : Filled) (window : Option Window) :
    Obeys (.always Failure (Holds carried S v W)) (run b activity bindings filled window) := by
  refine (Obeys.read _).bind fun st => obeys_session.bind fun s => (Obeys.ofExcept _).bind fun values => ?_
  refine (obeys_shownParameters _).bind fun shown d hd => ?_
  refine holds_beforeCall hb hS hW.prepare hW.close hd (fun _ _ h => h) (fun _ h => h) _ shown activity window
    fun handle d' hd' _ => ?_
  refine (obeys_callInTime_holds hb hW.toMindsOpen (fun sqls => ?_) ?_ handle _ shown).bind (fun _ => .pure _) d' hd'
  · exact (hb.mindsOpen sqls).executeWith handle values _
  · exact hW.executeWith handle values _

theorem holds_executeBatch (hcleared : ∀ st, S st → S { st with batch := [] })
    (hbatch : ∀ handle entries, Obeys (.always NativeFault W) (b.executeBatch handle entries)) :
    Obeys (.always Failure (Holds carried S v W)) (executeBatch b) := by
  refine obeys_checkOpen.bind fun _ => (Obeys.read _).bind fun st => ?_
  split
  · exact .pure _
  refine obeys_session.bind fun s => (Obeys.ofExcept _).bind fun entries => ?_
  refine (obeys_shownParameters _).bind fun shown d hd => ?_
  refine holds_beforeCall hb hS hW.prepare hW.close hd (fun _ _ h => h) (fun _ h => h) _ shown _ none
    fun handle d' hd' _ => ?_
  refine (obeys_callInTime_holds hb hW.toMindsOpen (hb.executeBatch handle entries) (hbatch handle entries) handle _
    shown).bind (fun counts => Obeys.bind (.modify fun d₁ h₁ => ?_) fun _ => (holds_record _).bind fun _ => .pure _)
      d' hd'
  exact ⟨hcleared _ h₁.statement, h₁.line⟩

omit hS in
theorem holds_countFilled (label : String) (bindings : Bindings) (filled : Filled) :
    Obeys (.always Failure (Holds carried S v W)) (countFilled b label bindings filled) := by
  refine fun d hd => ends_countFilled label bindings hd holds_record (holds_release hb hW.close)
    fun values _ d₁ h₁ => ?_
  refine ends_mono (holds_openHandle hb h₁ _ fun handle => hW.prepare handle _) ?_ (fun _ _ h => h) fun _ h => h
  rintro handle d₂ ⟨h₂, -, -, -⟩ shown log
  refine (obeys_callInTime_holds hb hW.toMindsOpen (fun sqls => (hb.mindsOpen sqls).executeBound handle values)
    (hW.executeBound handle values) handle _ shown).bind (fun reply d₃ h₃ => ?_) _ h₂.withLog
  cases reply with
  | rows feed => exact holds_readOut hb (fun h => Cursor.minds_nextRow h) (b.obeys_nextRow hW.fetch) _ d₃ h₃
  | count n => exact h₃

/-- All actions on a statement keep what they keep of the statement. -/
theorem holds_perform (hbound : ∀ st bindings, S st → S { st with bindings })
    (hcleared : ∀ st, S st → S { st with batch := [] })
    (hadd : Obeys (.always Failure (Holds carried S v W)) addBatch)
    (hclosed : ∀ st, S st → S { st with closed := true, bindings := .empty, batch := [], handle := none })
    (hbatch : ∀ handle entries, Obeys (.always NativeFault W) (b.executeBatch handle entries)) (action : Action) :
    Obeys (.always Failure (Holds carried S v W)) (action.perform b) := by
  have hlawful : Lawful b (.always Failure (Holds carried S v W)) fun _ _ => True :=
    { setMemo := holds_setMemo
      record := holds_record
      run activity bindings filled window _ := holds_run hb hW hS activity bindings filled window
      readAll := holds_readOut hb (fun h => Cursor.minds_readAll h) (b.obeys_nextRow hW.fetch)
      nextRow := holds_readOut hb (fun h => Cursor.minds_nextRow h) (b.obeys_nextRow hW.fetch) }
  refine obeys_action (fun _ => .modify fun _ hd => ⟨hbound _ _ hd.statement, hd.line⟩) (fun _ => hadd)
    (fun _ d hd => ?_) fun hexecutes => ?_
  · unfold close
    rw [ends_bind, statement, ends_read]
    split
    · rw [ends_bind, modifyStatement, ends_modify]
      split
      · exact holds_release hb hW.close _ _ _ ⟨hclosed _ hd.statement, hd.line.unheld⟩
      · exact ⟨hclosed _ hd.statement, hd.line.unheld⟩
    · exact hd
  · exact hlawful.perform (fun _ _ _ _ _ => trivial) hexecutes (fun _ => obeys_count (holds_countFilled hb hW))
      fun _ => holds_executeBatch hb hW hS hcleared hbatch

end

end

end Statement

end NamedSql
