import NamedSql.Proofs.Slate

/-!
# What statements execute

Everything that a statement executes is its template filled with some bindings, itself or rewritten by the
vendor, together with the values of the same filling. `Serves` is the invariant of such a statement: its
batch holds filled templates with the same SQL, and its handle carries the SQL that it is held for. All
actions keep it (`serves_perform`), and a statement is created with it (`serves_create`).
-/

namespace NamedSql

open NamedSql.Flow

variable {σ α : Type} {b : Backend σ}

namespace Statement

/-! ### Connections -/

/-- Everything that was executed after `start` has `P`, and the handle that is held carries its SQL. -/
def Kept (P : String → List Value → Prop) (held : Option (Nat × String)) (start calls : List Watch) : Prop :=
  AllFit P start calls ∧ ∀ x ∈ held, (Slate.of x.1 (start ++ calls)).text = some x.2

/-- Requests that execute nothing and prepare nothing under the handle that is held. -/
def Harmless (held : Option (Nat × String)) (r : Request) : Prop :=
  r.executes = false ∧ ∀ x ∈ held, ∀ sql, r ≠ .prepare x.1 sql

abbrev KeptOn (P : String → List Value → Prop) (held : Option (Nat × String)) (start : List Watch)
    (w : World (Watched σ)) : Prop :=
  Since (Kept P held start) start w

section
variable {P : String → List Value → Prop} {held : Option (Nat × String)} {start calls more : List Watch}
  {w v : World (Watched σ)} {handle : Nat} {sql : String} {values : List Value}

theorem Kept.append (h : Kept P held start calls) (hfit : AllFit P (start ++ calls) more)
    (hmore : ∀ x ∈ more, ∀ y ∈ held, ∀ sql, x.request ≠ .prepare y.1 sql) :
    Kept P held start (calls ++ more) := by
  refine ⟨allFit_append.2 ⟨h.1, hfit⟩, fun y hy => ?_⟩
  rw [← List.append_assoc, Slate.of_text fun x hx => hmore x hx y hy]
  exact h.2 y hy

theorem keptOn_asks {c : Call (Watched σ) α} (hc : Asks (Harmless held) c) :
    Obeys (.always NativeFault (KeptOn P held start)) c :=
  hc.keeps (fun _ _ h hmore => h.append (allFit_of_request fun x hx => (hmore x hx).1) fun x hx => (hmore x hx).2)
    start

theorem keptOn_concat {x : Watch} (hw : KeptOn P held start w) (hv : v.link.seen = w.link.seen ++ [x])
    (hfit : x.Fits P w.link.seen) (hx : ∀ y ∈ held, ∀ sql, x.request ≠ .prepare y.1 sql) :
    KeptOn P held start v := by
  obtain ⟨calls, hseen, hcalls⟩ := hw
  refine ⟨calls ++ [x], by rw [hv, hseen, List.append_assoc], hcalls.append ?_ (List.forall_mem_singleton.2 hx)⟩
  rw [hseen] at hfit
  exact ⟨hfit, trivial⟩

theorem keptOn_bindFrom (position : Nat) {bound : List (Value × Nat)} (hw : KeptOn P held start w)
    (hslate : Slate.of handle w.link.seen = ⟨some sql, bound⟩) :
    ends (b.watched.bindFrom handle position values)
      (fun _ v => KeptOn P held start v ∧
        Slate.of handle v.link.seen = ⟨some sql, bound ++ values.zipIdx position⟩)
      (fun _ => KeptOn P held start) (KeptOn P held start) w := by
  induction values generalizing position bound w with
  | nil =>
    refine ⟨hw, ?_⟩
    rw [List.zipIdx_nil, List.append_nil]
    exact hslate
  | cons value values ih =>
    have hsnoc {ending : Outcome NativeFault Unit} (v : World (Watched σ))
        (hv : v.link.seen = w.link.seen ++ [.called (.bind handle position value) ending v.now]) :
        KeptOn P held start v :=
      keptOn_concat (x := .called (.bind handle position value) ending v.now) hw hv trivial fun _ _ _ => nofun
    unfold Backend.bindFrom
    rw [ends_bind]
    refine ends_watch _ _ (fun _ v hv => ?_) (fun _ v hv => hsnoc v hv) fun v hv => hsnoc v hv
    have hnext : Slate.of handle v.link.seen = ⟨some sql, bound ++ [(value, position)]⟩ := by
      rw [hv, Slate.of_concat, hslate, Slate.next, if_pos rfl]
    have hrest := ih (position + 1) (hsnoc v hv) hnext
    rwa [List.append_assoc, List.singleton_append, ← List.zipIdx_cons] at hrest

theorem keptOn_executeOnce (hw : KeptOn P held start w)
    (hslate : Slate.of handle w.link.seen = ⟨some sql, values.zipIdx 1⟩) (hP : P sql values) :
    ends (b.watched.execute handle)
      (fun _ => KeptOn P held start) (fun _ => KeptOn P held start) (KeptOn P held start) w := by
  have hsnoc {ending : Outcome NativeFault Unit} (v : World (Watched σ))
      (hv : v.link.seen = w.link.seen ++ [.called (.execute handle) ending v.now]) : KeptOn P held start v :=
    keptOn_concat (x := .called (.execute handle) ending v.now) hw hv ⟨sql, values, hslate, hP⟩
      fun _ _ _ => nofun
  exact ends_watch _ _ (fun _ v hv => hsnoc v hv) (fun _ v hv => hsnoc v hv) fun v hv => hsnoc v hv

theorem keptOn_executeBound (hw : KeptOn P held start w)
    (hslate : Slate.of handle w.link.seen = ⟨some sql, []⟩) (hP : P sql values) :
    ends (b.watched.bindFrom handle 1 values >>= fun _ => b.watched.execute handle)
      (fun _ => KeptOn P held start) (fun _ => KeptOn P held start) (KeptOn P held start) w := by
  refine (keptOn_bindFrom 1 hw hslate).bind fun _ v hv => ?_
  exact keptOn_executeOnce hv.1 hv.2 hP

theorem keptOn_execute (maxRows : Option UInt64) (hw : KeptOn P held start w)
    (htext : (Slate.of handle w.link.seen).text = some sql) (hP : P sql values) :
    ends (execute b.watched handle values maxRows)
      (fun _ => KeptOn P held start) (fun _ => KeptOn P held start) (KeptOn P held start) w := by
  unfold execute
  rw [ends_bind, Call.modifyLink, ends_modify]
  have hcleared : Slate.of handle (w.link.seen ++ [.changed (.clearBindings handle)]) = ⟨some sql, []⟩ := by
    rw [Slate.of_concat, Slate.next, if_pos rfl, htext]
  have hw₁ : KeptOn P held start { w with link := b.watched.clearBindings handle w.link } :=
    keptOn_concat (x := .changed (.clearBindings handle)) hw rfl trivial fun _ _ _ => nofun
  refine (keptOn_bindFrom 1 hw₁ hcleared).bind ?_
  rintro - v ⟨hv, hbound⟩
  rw [ends_bind, Call.modifyLink, ends_modify]
  have hlimited : Slate.of handle (v.link.seen ++ [.changed (.limitRows handle maxRows)]) =
      ⟨some sql, values.zipIdx 1⟩ := by
    rw [Slate.of_concat, hbound]
    rfl
  exact keptOn_executeOnce
    (keptOn_concat (x := .changed (.limitRows handle maxRows)) hv rfl trivial fun _ _ _ => nofun) hlimited hP

theorem keptOn_executeBatch {entries : List (List Value)} (hw : KeptOn P held start w)
    (htext : (Slate.of handle w.link.seen).text = some sql) (hP : ∀ values ∈ entries, P sql values) :
    ends (b.watched.executeBatch handle entries)
      (fun _ => KeptOn P held start) (fun _ => KeptOn P held start) (KeptOn P held start) w := by
  have hsnoc {ending : Outcome NativeFault Unit} (v : World (Watched σ))
      (hv : v.link.seen = w.link.seen ++ [.called (.executeBatch handle entries) ending v.now]) :
      KeptOn P held start v :=
    keptOn_concat (x := .called (.executeBatch handle entries) ending v.now) hw hv ⟨sql, htext, hP⟩
      fun _ _ _ => nofun
  exact ends_watch _ _ (fun _ v hv => hsnoc v hv) (fun _ v hv => hsnoc v hv) fun v hv => hsnoc v hv

/-- Limiting the time leaves what handles carry. -/
theorem keptOn_limitTime (budget : TimeLimit.Budget) (hw : KeptOn P held start w) :
    ends (limitTime b.watched handle budget)
      (fun _ v => KeptOn P held start v ∧ ∀ n, Slate.of n v.link.seen = Slate.of n w.link.seen)
      (fun _ => KeptOn P held start) (KeptOn P held start) w := by
  cases budget with
  | left millis =>
    refine ⟨keptOn_concat (x := .changed (.limitTime handle _)) hw rfl trivial fun _ _ _ => nofun, fun n => ?_⟩
    exact Slate.of_concat
  | unlimited | exhausted => exact ⟨hw, fun _ => rfl⟩

end

/-! ### Statements -/

def Fills (t : Template) (filled : Filled) : Prop :=
  ∃ bindings, t.fill bindings = .ok filled

/-- The vendor of the session, and a handle that is older than those to come. -/
def Books (v : Vendor) (held : Option (Nat × String)) (s : Session) : Prop :=
  s.vendor = v ∧ ∀ x ∈ held, x.1 < s.nextHandle

/-- A statement of the template whose handle carries its SQL, on a connection where everything that was
executed after `start` has `P`. -/
structure Serves (t : Template) (v : Vendor) (P : String → List Value → Prop) (start : List Watch)
    (d : Desk (Watched σ)) : Prop where
  template : d.statement.template = t
  batch : ∀ entry ∈ d.statement.batch, Fills t entry
  sameSql : SameSql d.statement.batch
  line : d.line.Has (Books v d.statement.handle) (KeptOn P d.statement.handle start)

section
variable {t : Template} {v : Vendor} {P : String → List Value → Prop} {start : List Watch}
  {d : Desk (Watched σ)} {l : Line (Watched σ)} {held : Option (Nat × String)} {handle : Nat} {sql : String}

/-- Work that leaves the statement as it is. -/
theorem Serves.of_has {m : Work (Watched σ) α}
    (hm : ∀ st, Obeys (.always Failure (Desk.Has (· = st) (Books v st.handle) (KeptOn P st.handle start))) m) :
    Obeys (.always Failure (Serves t v P start)) m := by
  intro d hd
  have hkept (d' : Desk (Watched σ))
      (h : Desk.Has (· = d.statement) (Books v d.statement.handle) (KeptOn P d.statement.handle start) d') :
      Serves t v P start d' := by
    obtain ⟨hst, hline⟩ := h
    rw [← hst] at hline
    refine ⟨?_, ?_, ?_, hline⟩
    · rw [hst]; exact hd.template
    · rw [hst]; exact hd.batch
    · rw [hst]; exact hd.sameSql
  exact ends_mono (hm d.statement d ⟨rfl, hd.line⟩) (fun _ => hkept) (fun _ => hkept) hkept

theorem Serves.withWorld {w : World (Watched σ)} (hd : Serves t v P start d)
    (hw : KeptOn P d.statement.handle start w) :
    Serves t v P start { d with line := { d.line with world := w } } :=
  ⟨hd.template, hd.batch, hd.sameSql, hd.line.session, hw⟩

theorem Serves.withLog {log : List Event} (hd : Serves t v P start d) :
    Serves t v P start { d with line := { d.line with log } } :=
  ⟨hd.template, hd.batch, hd.sameSql, hd.line.session, hd.line.world⟩

/-- Nothing was executed yet after what was seen. -/
theorem Serves.restart {P' : String → List Value → Prop} (hd : Serves t v P start d) :
    Serves t v P' d.line.world.link.seen d := by
  refine ⟨hd.template, hd.batch, hd.sameSql, hd.line.session, Since.refl ⟨trivial, fun x hx => ?_⟩⟩
  obtain ⟨calls, hseen, hcalls⟩ := hd.line.world
  rw [List.append_nil, hseen]
  exact hcalls.2 x hx

theorem serves_record (e : Event) :
    Obeys (.always Failure (Serves (σ := σ) t v P start)) (onLine (Dialog.record e)) :=
  Serves.of_has fun _ => has_onLine (Dialog.has_record e)

theorem serves_setMemo (n : Nat) (memo : Memo) : Obeys (.always Failure (Serves (σ := σ) t v P start))
    (Flow.within Desk.memosPart (Flow.modify fun memos => memos.set n memo)) :=
  .within fun _ hd => ⟨hd.template, hd.batch, hd.sameSql, hd.line⟩

theorem serves_readOut {m : Cursor.Reading (Watched σ) α}
    (hm : ∀ held, Cursor.Minds (KeptOn P held start) m) (c : Cursor) :
    Obeys (.always Failure (Serves t v P start)) (readOut c m) :=
  Serves.of_has fun _ => has_readOut (hm _) c

theorem keptOn_nextRow (feed : Feed) :
    Obeys (.always NativeFault (KeptOn P held start)) (b.watched.nextRow feed) :=
  keptOn_asks (asks_nextRow (fun _ => ⟨rfl, fun _ _ _ => nofun⟩) feed)

theorem serves_release (handle : Nat) (sql : String) :
    Obeys (.always Failure (Serves t v P start)) (onLine (Session.release b.watched handle sql)) :=
  Serves.of_has fun _ => has_onLine <| Session.has_release (fun _ _ hs => hs)
    (fun _ => keptOn_asks (asks_close ⟨rfl, fun _ _ _ => nofun⟩)) handle sql

/-- The handle may be given up. -/
theorem Serves.withStatement {st : Statement} (hd : Serves t v P start d) (htemplate : st.template = t)
    (hbatch : ∀ entry ∈ st.batch, Fills t entry) (hsame : SameSql st.batch)
    (hhandle : ∀ x ∈ st.handle, x ∈ d.statement.handle) :
    Serves t v P start { d with statement := st } := by
  obtain ⟨calls, hseen, hcalls⟩ := hd.line.world
  exact ⟨htemplate, hbatch, hsame, ⟨hd.line.session.1, fun x hx => hd.line.session.2 x (hhandle x hx)⟩,
    calls, hseen, hcalls.1, fun x hx => hcalls.2 x (hhandle x hx)⟩

/-- Preparing under the next handle leaves what is kept of the one that is held. -/
theorem serves_openHandle (hd : Serves t v P start d) (sql : String) :
    ends (onLine (Session.openHandle b.watched sql))
      (fun handle d' => Serves t v P start d' ∧ d'.statement = d.statement ∧ handle < d'.line.session.nextHandle ∧
        Slate.of handle d'.line.world.link.seen = ⟨some sql, []⟩)
      (fun _ => Serves t v P start) (Serves t v P start) d := by
  rw [ends_onLine]
  have hheld : ∀ x ∈ d.statement.handle, x.1 < d.line.session.nextHandle := hd.line.session.2
  have hsnoc {ending : Outcome NativeFault Unit} (w : World (Watched σ))
      (hw : w.link.seen = d.line.world.link.seen ++
        [.called (.prepare d.line.session.nextHandle sql) ending w.now]) :
      KeptOn P d.statement.handle start w := by
    refine keptOn_concat (x := .called (.prepare d.line.session.nextHandle sql) ending w.now) hd.line.world hw
      trivial fun x hx text h => ?_
    obtain ⟨hhandle, -⟩ := Request.prepare.inj h
    exact absurd hhandle (hheld x hx).ne'
  refine Session.ends_openHandle (fun _ => hd) ?_
  refine ends_watch _ _ (fun _ w hw log => ?_) (fun _ w hw => hd.withWorld (hsnoc w hw))
    fun w hw => hd.withWorld (hsnoc w hw)
  have hline : (d.line.withNext w log).Has (Books v d.statement.handle) (KeptOn P d.statement.handle start) :=
    ⟨⟨hd.line.session.1, fun x hx => (hheld x hx).trans (Nat.lt_succ_self _)⟩, hsnoc w hw⟩
  refine ⟨⟨hd.template, hd.batch, hd.sameSql, hline⟩, rfl, Nat.lt_succ_self _, ?_⟩
  show Slate.of d.line.session.nextHandle w.link.seen = _
  rw [hw, Slate.of_concat, Slate.next, if_pos rfl]

/-- A statement that holds a handle for the SQL. -/
def ServesWith (t : Template) (v : Vendor) (P : String → List Value → Prop) (start : List Watch) (sql : String)
    (handle : Nat) (d : Desk (Watched σ)) : Prop :=
  Serves t v P start d ∧ d.statement.handle = some (handle, sql)

theorem ServesWith.text (h : ServesWith t v P start sql handle d) :
    (Slate.of handle d.line.world.link.seen).text = some sql := by
  obtain ⟨calls, hseen, hcalls⟩ := h.1.line.world
  rw [hseen]
  exact hcalls.2 (handle, sql) h.2

theorem serves_prepareFor (hd : Serves t v P start d) (sql : String) :
    ends (prepareFor b.watched sql) (ServesWith t v P start sql) (fun _ => Serves t v P start)
      (Serves t v P start) d := by
  unfold prepareFor
  refine (serves_openHandle hd sql).bind ?_
  rintro handle d' ⟨hd', -, hnext, hslate⟩
  obtain ⟨calls, hseen, hcalls⟩ := hd'.line.world
  have hheld (x : Nat × String) (hx : x ∈ some (handle, sql)) : (handle, sql) = x := Option.some.inj hx
  refine ⟨⟨hd'.template, hd'.batch, hd'.sameSql, ⟨hd'.line.session.1, fun x hx => ?_⟩,
    calls, hseen, hcalls.1, fun x hx => ?_⟩, rfl⟩
  · rw [← hheld x hx]
    exact hnext
  · rw [← hheld x hx, ← hseen, hslate]

theorem serves_ensureHandle (hd : Serves t v P start d) (sql : String) :
    ends (ensureHandle b.watched sql) (ServesWith t v P start sql) (fun _ => Serves t v P start)
      (Serves t v P start) d := by
  have hgiven : Serves t v P start { d with statement := { d.statement with handle := none } } :=
    hd.withStatement hd.template hd.batch hd.sameSql fun x hx => absurd hx (Option.not_mem_none x)
  exact ends_ensureHandle hd (fun _ hhandle => ⟨hd, hhandle⟩) hgiven serves_release fun _ h => serves_prepareFor h sql

/-- A call in time keeps what the call keeps, where the handle carries what it carried before. -/
theorem serves_callInTime {c : Call (Watched σ) α} (hd : Serves t v P start d) (parameters : Option String)
    (hc : ∀ w, KeptOn P d.statement.handle start w →
      Slate.of handle w.link.seen = Slate.of handle d.line.world.link.seen →
      ends c (fun _ => KeptOn P d.statement.handle start) (fun _ => KeptOn P d.statement.handle start)
        (KeptOn P d.statement.handle start) w) :
    ends (callInTime b.watched handle sql parameters c) (fun _ => Serves t v P start)
      (fun _ => Serves t v P start) (Serves t v P start) d := by
  refine ends_callInTime _ _ (fun _ => hd) hd fun before _ _ => ?_
  rw [ends_bind]
  refine ends_mono (keptOn_limitTime before hd.line.world) ?_ (fun _ _ hw => hd.withWorld hw)
    fun _ hw => hd.withWorld hw
  rintro - w ⟨hw, hslate⟩
  refine ends_mono (hc w hw (hslate handle)) (fun _ w' hw' => ?_) (fun _ _ hw' => hd.withWorld hw')
    fun _ hw' => hd.withWorld hw'
  split
  · exact hd.withWorld hw'
  · exact hd.withWorld hw'

/-- Executing on the handle of the statement, whose SQL is prepared if need be, and then further work. -/
theorem serves_onHandle {β : Type} {c : Nat → Call (Watched σ) β} {f : Nat → β → Work (Watched σ) α}
    (hd : Serves t v P start d) (sql : String) (shown : Option String) (activity : Activity)
    (window : Option Window)
    (hc : ∀ held handle w, KeptOn P held start w → (Slate.of handle w.link.seen).text = some sql →
      ends (c handle) (fun _ => KeptOn P held start) (fun _ => KeptOn P held start) (KeptOn P held start) w)
    (hf : ∀ handle x, Obeys (.always Failure (Serves t v P start)) (f handle x)) :
    ends (checkTime sql shown >>= fun _ => ensureHandle b.watched sql >>= fun handle =>
        recordStart activity sql shown window >>= fun _ =>
          callInTime b.watched handle sql shown (c handle) >>= f handle)
      (fun _ => Serves t v P start) (fun _ => Serves t v P start) (Serves t v P start) d := by
  refine (obeys_checkTime _ _).thenEnds hd (fun _ _ h => h) (fun _ h => h) fun _ d₁ h₁ => ?_
  refine (serves_ensureHandle h₁ sql).bind fun handle d₂ h₂ => ?_
  rw [ends_bind]
  refine ends_recordStart fun log => ?_
  refine (serves_callInTime h₂.1.withLog shown fun w hw hslate => ?_).bind fun x => hf handle x
  exact hc _ handle w hw (hslate ▸ h₂.text)

/-! ### Operations -/

/-- The SQL that is executed for a filled one: itself, or a page of it. -/
def Executable (v : Vendor) (sql executed : String) : Prop :=
  executed = sql ∨ ∃ page, executed = v.pageSql sql page

theorem executable_executableSql (st : Statement) (v : Vendor) (sql : String) :
    Executable v sql (st.executableSql v sql) := by
  unfold executableSql
  split
  · next page _ _ => exact .inr ⟨page, rfl⟩
  · exact .inl rfl

theorem exists_entry_of_boundAs {entries : List Filled} {bound : List (List Value)} (h : BoundAs v entries bound) :
    ∀ values ∈ bound, ∃ entry ∈ entries, boundValues v entry.values = .ok values := by
  induction h with
  | nil => exact List.forall_mem_nil _
  | cons hentry _ ih =>
    refine List.forall_mem_cons.2 ⟨⟨_, List.mem_cons_self, hentry⟩, fun values hvalues => ?_⟩
    obtain ⟨entry, hmem, hentry⟩ := ih values hvalues
    exact ⟨entry, List.mem_cons_of_mem _ hmem, hentry⟩

section
variable (hP : ∀ filled values sql, Fills t filled → boundValues v filled.values = .ok values →
  Executable v filled.sql sql → P sql values)
include hP

theorem serves_run (activity : Activity) (bindings : Bindings) {filled : Filled} (window : Option Window)
    (hfilled : Fills t filled) :
    Obeys (.always Failure (Serves t v P start)) (run b.watched activity bindings filled window) := by
  intro d hd
  unfold run
  rw [ends_bind, statement, ends_read, ends_bind, ends_session, ends_bind, ends_ofExcept, hd.line.session.1]
  split
  · next values hvalues =>
    have hsql : P (d.statement.executableSql v filled.sql) values :=
      hP _ _ _ hfilled hvalues (executable_executableSql _ _ _)
    rw [ends_bind, ends_shownParameters]
    exact serves_onHandle hd _ _ _ _ (fun _ _ _ hw htext => keptOn_execute _ hw htext hsql) fun _ _ => .pure _
  · exact hd

theorem serves_executeBatch : Obeys (.always Failure (Serves t v P start)) (executeBatch b.watched) := by
  intro d hd
  unfold executeBatch
  rw [ends_bind, ends_checkOpen]
  split
  · exact hd
  rw [ends_bind, statement, ends_read]
  split
  · exact hd
  · next first rest hbatch =>
    rw [ends_bind, ends_session, ends_bind, ends_ofExcept, hd.line.session.1]
    split
    · next entries hentries =>
      have hsql : ∀ values ∈ entries, P (d.statement.executableSql v first.sql) values := by
        intro values hvalues
        obtain ⟨entry, hentry, hbound⟩ := exists_entry_of_boundAs (mapM_eq_ok.1 hentries) values hvalues
        have hfirst : first.sql = entry.sql := hd.sameSql first (hbatch ▸ List.mem_cons_self) entry hentry
        rw [hfirst]
        exact hP _ _ _ (hd.batch entry hentry) hbound (executable_executableSql _ _ _)
      rw [ends_bind, ends_shownParameters]
      refine serves_onHandle hd _ _ _ _ (fun _ _ _ hw htext => keptOn_executeBatch hw htext hsql) fun _ counts => ?_
      refine Obeys.bind (.modify fun d₁ h₁ => ?_) fun _ => (serves_record _).bind fun _ => .pure counts
      exact Serves.withStatement h₁ h₁.template (List.forall_mem_nil _) (List.forall_mem_nil _) fun _ hx => hx
    · exact hd

end

theorem serves_countFilled (hP : ∀ filled values, Fills t filled → boundValues v filled.values = .ok values →
      P (v.countSql filled.sql) values) (label : String) (bindings : Bindings) {filled : Filled}
    (hfilled : Fills t filled) :
    Obeys (.always Failure (Serves t v P start)) (countFilled b.watched label bindings filled) := by
  refine fun d hd => ends_countFilled label bindings hd serves_record serves_release fun values hvalues d₁ h₁ => ?_
  rw [hd.line.session.1] at hvalues ⊢
  refine ends_mono (serves_openHandle h₁ _) ?_ (fun _ _ h => h) fun _ h => h
  rintro handle d₂ ⟨h₂, -, -, hslate⟩ shown log
  have hlogged : Serves t v P start { d₂ with line := { d₂.line with log } } := h₂.withLog
  unfold countRow
  refine (serves_callInTime hlogged shown fun w hw hw' =>
    keptOn_executeBound hw (hw'.trans hslate) (hP filled values hfilled hvalues)).bind fun reply d₃ h₃ => ?_
  cases reply with
  | rows feed => exact serves_readOut (fun _ => Cursor.minds_nextRow keptOn_nextRow) _ d₃ h₃
  | count n => exact h₃

theorem fills_of_resolved {d : Desk α} {filled : Filled} (h : d.resolved = some filled) :
    Fills d.statement.template filled := by
  unfold Desk.resolved at h
  split at h
  · next bindings _ =>
    rcases hfill : d.statement.template.fill bindings with e | f
    · rw [hfill] at h
      cases h
    · rw [hfill] at h
      obtain rfl : f = filled := Option.some.inj h
      exact ⟨bindings, hfill⟩
  · cases h

theorem Serves.fills (hd : Serves t v P start d) {filled : Filled} (h : d.resolved = some filled) :
    Fills t filled :=
  hd.template ▸ fills_of_resolved h

theorem serves_addBatch : Obeys (.always Failure (Serves (σ := σ) t v P start)) addBatch := by
  intro d hd
  refine ends_mono (ends_addBatch d) ?_ (fun _ d' h => h ▸ hd) fun d' h => h ▸ hd
  rintro - d' ⟨filled, hresolved, hfirst, rfl⟩
  exact hd.withStatement hd.template
    (List.forall_mem_append.2 ⟨hd.batch, List.forall_mem_singleton.2 (hd.fills hresolved)⟩)
    (hd.sameSql.concat hfirst) fun _ hx => hx

theorem serves_close : Obeys (.always Failure (Serves t v P start)) (close b.watched) := by
  intro d hd
  unfold close
  rw [ends_bind, statement, ends_read]
  split
  · rw [ends_bind, modifyStatement, ends_modify]
    have hgiven : Serves t v P start { d with statement := { d.statement with
        closed := true, bindings := .empty, batch := [], handle := none } } :=
      hd.withStatement hd.template (List.forall_mem_nil _) (List.forall_mem_nil _) fun x hx =>
        absurd hx (Option.not_mem_none x)
    split
    · exact serves_release _ _ _ hgiven
    · exact hgiven
  · exact hd

theorem serves_perform (action : Action)
    (hP : action ≠ .count → ∀ filled values sql, Fills t filled → boundValues v filled.values = .ok values →
      Executable v filled.sql sql → P sql values)
    (hcount : action = .count → ∀ filled values, Fills t filled → boundValues v filled.values = .ok values →
      P (v.countSql filled.sql) values) :
    Obeys (.always Failure (Serves t v P start)) (action.perform b.watched) := by
  have hlawful (h : action ≠ .count) :
      Lawful b.watched (.always Failure (Serves t v P start)) fun filled _ => Fills t filled :=
    { setMemo := serves_setMemo
      record := serves_record
      run activity bindings _ window hfilled := serves_run (hP h) activity bindings window hfilled
      readAll := serves_readOut fun _ => Cursor.minds_readAll keptOn_nextRow
      nextRow := serves_readOut fun _ => Cursor.minds_nextRow keptOn_nextRow }
  refine obeys_action (fun _ => .modify fun _ hd => ?_) (fun _ => serves_addBatch) (fun _ => serves_close)
    fun hexecutes => ?_
  · exact Serves.withStatement hd hd.template hd.batch hd.sameSql fun _ hx => hx
  · by_cases h : action = .count
    · subst h
      refine Obeys.map (fun d hd => ends_count hd fun label bindings filled hresolved => ?_) _
      exact serves_countFilled (hcount rfl) label bindings (Serves.fills hd hresolved) d hd
    · exact (hlawful h).perform (fun _ hd _ hresolved _ => Serves.fills hd hresolved) hexecutes
        (fun hcount => absurd hcount h) fun _ => serves_executeBatch (hP h)

theorem serves_prepareNew : Obeys (.always Failure (Serves t v P start)) (prepareNew b.watched) := by
  intro d hd
  unfold prepareNew
  rw [ends_bind, statement, ends_read, ends_bind, ends_session]
  split
  · exact (ends_map _ _).2 (ends_mono (serves_ensureHandle hd _) (fun _ _ h => h.1) (fun _ _ h => h) fun _ h => h)
  · exact hd

theorem serves_create (page : Option Page) (memos : List Memo) :
    ends (create b.watched t page)
      (fun st l' => Serves t l.session.vendor P l.world.link.seen ⟨st, memos, l'⟩) (fun _ _ => True)
      (fun _ => True) l := by
  have hnew : Serves t l.session.vendor P l.world.link.seen ⟨ofTemplate l.session.vendor t page, [], l⟩ :=
    ⟨rfl, List.forall_mem_nil _, List.forall_mem_nil _, ⟨rfl, nofun⟩, Since.refl ⟨trivial, nofun⟩⟩
  refine ends_create (fun _ => trivial) (ends_mono (serves_prepareNew _ hnew) (fun _ d hd => ?_)
    (fun _ _ _ => trivial) fun _ _ => trivial)
  exact ⟨hd.template, hd.batch, hd.sameSql, hd.line⟩

end

end Statement

end NamedSql
