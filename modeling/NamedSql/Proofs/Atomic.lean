import NamedSql.Proofs.Embedded
import NamedSql.Proofs.Executed
import NamedSql.Proofs.Fresh
import NamedSql.Proofs.KeyTables
import NamedSql.Proofs.Placeholders

/-!
# Batches are atomic

On a database in a library a batch is executed as a whole (`batches_atomic`): one that succeeds is what its entries are
one after another and leaves nothing to execute, and one that fails leaves the tables and its entries, so that it can be
executed again. Only if the time of a transaction runs out during the call, the batch is executed and fails.
-/

namespace NamedSql

open NamedSql.Flow

variable {δ κ γ : Type} {L : Library δ κ} {content : δ → γ} {marked : γ → δ → Prop} {changing : κ → Prop}

namespace Statement

/-- A statement of the template whose batch has the same SQL for all entries. -/
structure Batched (t : Template) (st : Statement) : Prop where
  template : st.template = t
  batch : ∀ entry ∈ st.batch, Fills t entry
  sameSql : SameSql st.batch

section
variable {t : Template} {v : Vendor} {st : Statement}

theorem Batched.withoutBatch {other : Statement} (h : Batched t st) (htemplate : other.template = st.template)
    (hbatch : other.batch = []) : Batched t other := by
  refine ⟨htemplate.trans h.template, ?_, ?_⟩
  · rw [hbatch]
    exact List.forall_mem_nil _
  · rw [hbatch]
    exact List.forall_mem_nil _

theorem batched_addBatch {W : World (Embedded δ) → Prop} :
    Obeys (.always Failure (Holds Embedded.carried (Batched t) v W)) addBatch := by
  intro d hd
  refine ends_mono (ends_addBatch d) ?_ (fun _ d' h => h ▸ hd) fun d' h => h ▸ hd
  rintro - d' ⟨filled, hresolved, hfirst, rfl⟩
  have hst : Batched t d.statement := hd.statement
  have hfilled : Fills t filled := hst.template ▸ fills_of_resolved hresolved
  exact ⟨⟨hst.template, List.forall_mem_append.2 ⟨hst.batch, List.forall_mem_singleton.2 hfilled⟩,
    hst.sameSql.concat hfirst⟩, hd.line⟩

/-- All entries have as many values. -/
theorem Batched.length_eq (h : Batched t st) {entries : List (List Value)} (hbound : BoundAs v st.batch entries) :
    ∃ count, ∀ values ∈ entries, values.length = count := by
  rcases hbatch : st.batch with _ | ⟨first, rest⟩
  · rw [hbatch] at hbound
    cases hbound
    exact ⟨0, List.forall_mem_nil _⟩
  · have hmem : first ∈ st.batch := hbatch ▸ List.mem_cons_self
    refine ⟨first.values.length, fun values hvalues => ?_⟩
    obtain ⟨entry, hentry, hvalues⟩ := exists_entry_of_boundAs hbound values hvalues
    obtain ⟨bindings, hfill⟩ := h.batch entry hentry
    obtain ⟨bindings', hfill'⟩ := h.batch first hmem
    rw [← Template.length_values_of_sql hfill hfill' (h.sameSql entry hentry first hmem)]
    exact (mapM_eq_ok.1 hvalues).length_eq.symm

end

/-! ### One execution -/

/-- The SQL of the batch. -/
def batchSql (st : Statement) (v : Vendor) : String :=
  st.executableSql v ((st.batch.head?.map Filled.sql).getD "")

/-- The entries of the batch were executed one after another, each once. -/
def AppliesBatch (L : Library δ κ) (content : δ → γ) (d d' : Desk (Embedded δ)) (counts : List UInt64) : Prop :=
  counts.length = d.statement.batch.length ∧ ∃ entries, BoundAs d.line.session.vendor d.statement.batch entries ∧
    L.Applied content (d.statement.batchSql d.line.session.vendor) entries (content d.line.world.link.data) counts
      (content d'.line.world.link.data)

/-- How the execution of a batch ends, and what it leaves. -/
def Attempt (L : Library δ κ) (content : δ → γ) (d d' : Desk (Embedded δ)) : Outcome Failure (List UInt64) → Prop
  | .done counts => AppliesBatch L content d d' counts ∧ d'.statement.batch = []
  | .failed e => d'.statement.batch = d.statement.batch ∧
    (content d'.line.world.link.data = content d.line.world.link.data ∨
      ∃ counts shown, AppliesBatch L content d d' counts ∧
        RanOut (d.statement.batchSql d.line.session.vendor) shown e d')
  | .overflow => d'.statement.batch = d.statement.batch ∧
    content d'.line.world.link.data = content d.line.world.link.data

theorem attempt_of_ends {d : Desk (Embedded δ)} {m : Work (Embedded δ) (List UInt64)}
    (h : ends m (fun counts d' => Attempt L content d d' (.done counts))
      (fun e d' => Attempt L content d d' (.failed e)) (fun d' => Attempt L content d d' .overflow) d)
    {r : Outcome Failure (List UInt64)} {d' : Desk (Embedded δ)} (hm : m d = (r, d')) : Attempt L content d d' r := by
  unfold ends at h
  rw [hm] at h
  cases r <;> exact h

section
variable (hL : L.Restores content marked changing) {t : Template} {v : Vendor} {d : Desk (Embedded δ)}
include hL

/-- The call of a batch on a handle that is held for its SQL. -/
theorem ends_batchCall {S : Statement → Prop} {sql : String} {handle count : Nat} {entries : List (List Value)} {g : γ}
    (hsql : ∀ s, L.Compiles sql s → changing s) (hcount : ∀ values ∈ entries, values.length = count)
    (hd : Holds Embedded.carried S v (fun w => content w.link.data = g) d)
    (hhandle : d.statement.handle = some (handle, sql)) (shown : Option String) :
    let applied (counts : List UInt64) (w : World (Embedded δ)) :=
      counts.length = entries.length ∧ L.Applied content sql entries g counts (content w.link.data)
    ends (callInTime L.backend handle sql shown (L.backend.executeBatch handle entries))
      (fun counts => Holds Embedded.carried S v (applied counts))
      (fun e d' => Holds Embedded.carried S v (fun w => content w.link.data = g) d' ∨
        RanOut sql shown e d' ∧ ∃ counts, Holds Embedded.carried S v (applied counts) d')
      (Holds Embedded.carried S v fun w => content w.link.data = g) d := by
  refine holds_callInTime L.keeping_backend hd (fun _ hw => hw) shown (Library.limitTime_leaves L g handle)
    (L.keeping_backend.executeBatch handle entries) fun w hopen hcarried hw => ?_
  -- the handle carries the SQL of the batch
  have htext := (congrFun (texts_of_carried hcarried) handle).trans (hd.line.text _ hhandle hopen)
  have hbody (p : Prepared String) (hp : w.link.statements.get? handle = some p) : p.body = sql := by
    unfold texts Embedded.carried Script.carriedOn at htext
    rw [hp] at htext
    exact Option.some.inj htext
  refine ends_mono (hL.ends_executeBatch entries fun p s hp hs => hsql s (hbody p hp ▸ hs)) ?_ (fun _ _ h => h.trans hw)
    fun _ h => h.trans hw
  rintro counts u ⟨p, hp, happlied⟩
  rw [hbody p hp, hw] at happlied
  exact ⟨happlied.length_eq, hL.applied_of_inTurn hcount happlied⟩

theorem ends_executeBatch_embedded (hd : Holds Embedded.carried (Batched t) v (fun _ => True) d)
    (hsql : ∀ s, L.Compiles (d.statement.batchSql d.line.session.vendor) s → changing s) :
    ends (executeBatch L.backend) (fun counts d' => Attempt L content d d' (.done counts))
      (fun e d' => Attempt L content d d' (.failed e)) (fun d' => Attempt L content d d' .overflow) d := by
  let g : γ := content d.line.world.link.data
  -- until the call only the handle of the statement changes
  let Before : Desk (Embedded δ) → Prop := Holds Embedded.carried (fun st => st.batch = d.statement.batch) v
    fun w => content w.link.data = g
  have hstart : Before d := ⟨rfl, hd.line.mono fun _ => rfl⟩
  have hkept (e : Failure) (d' : Desk (Embedded δ)) (h : Before d') : Attempt L content d d' (.failed e) :=
    ⟨h.statement, .inl h.line.world⟩
  have hstopped (d' : Desk (Embedded δ)) (h : Before d') : Attempt L content d d' .overflow :=
    ⟨h.statement, h.line.world⟩
  unfold executeBatch
  rw [ends_bind, ends_checkOpen]
  split
  · exact hkept _ d hstart
  rw [ends_bind, statement, ends_read]
  split
  · next hbatch =>
    refine ⟨⟨by rw [hbatch]; rfl, [], ?_, [], .nil, .nil _⟩, hbatch⟩
    rw [hbatch]
    exact .nil
  next first rest hbatch =>
  rw [ends_bind, ends_session, ends_bind, ends_ofExcept]
  split
  rotate_left
  · exact hkept _ d hstart
  next entries hentries =>
  have hbound : BoundAs d.line.session.vendor d.statement.batch entries := mapM_eq_ok.1 hentries
  obtain ⟨count, hcount⟩ := hd.statement.length_eq hbound
  have hfirst : d.statement.batchSql d.line.session.vendor =
      d.statement.executableSql d.line.session.vendor first.sql := by
    unfold batchSql
    rw [hbatch]
    rfl
  rw [ends_bind, ends_shownParameters, ← hfirst]
  refine holds_beforeCall L.keeping_backend (fun _ _ h => h) (Library.prepare_leaves hL g) (Library.close_leaves L g)
    hstart hkept hstopped _ _ _ none fun handle d' hd' hhandle => ?_
  rw [ends_bind]
  refine ends_mono (ends_batchCall hL hsql hcount hd' hhandle _) (fun counts d₁ h₁ => ?_) (fun e d₁ h₁ => ?_) hstopped
  · obtain ⟨hlength, happlied⟩ := h₁.line.world
    exact ⟨⟨hlength.trans hbound.length_eq.symm, entries, hbound, happlied⟩, rfl⟩
  · rcases h₁ with h₁ | ⟨hover, counts, h₁⟩
    · exact hkept e d₁ h₁
    · obtain ⟨hlength, happlied⟩ := h₁.line.world
      exact ⟨h₁.statement, .inr ⟨counts, _, ⟨hlength.trans hbound.length_eq.symm, entries, hbound, happlied⟩, hover⟩⟩

end

/-! ### Histories -/

/-- What happens beside leaves the statement, the session and what is prepared. The tables may change. -/
structure Beside (d d' : Desk (Embedded δ)) : Prop where
  statement : d'.statement = d.statement
  session : d'.line.session = d.line.session
  prepared : d'.line.world.link.statements = d.line.world.link.statements

/-- Whatever is done with the session and other statements, and with the statement itself unless it is for the batch. -/
def Doing.SparesBatch : Doing → Prop
  | .own action => action.changesBatch = false
  | .other _ => True

section
variable {t : Template} {v : Vendor} {d d' : Desk (Embedded δ)}

abbrev HoldsBatch (t : Template) (v : Vendor) : Desk (Embedded δ) → Prop :=
  Holds Embedded.carried (Batched t) v fun _ => True

theorem Beside.holdsBatch (h : Beside d d') (hd : HoldsBatch t v d) : HoldsBatch t v d' := by
  obtain ⟨hstatement, hsession, hprepared⟩ := h
  have htexts : texts Embedded.carried d'.line.world.link = texts Embedded.carried d.line.world.link :=
    texts_of_carried (congrArg Script.carriedOn hprepared)
  refine ⟨hstatement ▸ hd.statement, hsession ▸ hd.line.vendor, hsession ▸ hd.line.session, ?_, ?_, trivial⟩
  · rw [hstatement, hsession]
    exact hd.line.older
  · rw [hstatement, hsession, htexts]
    exact hd.line.text

theorem holdsBatch_perform (L : Library δ κ) (doing : Doing) (hd : HoldsBatch t v d) :
    HoldsBatch t v (doing.perform L.backend d).2 := by
  have hany : L.backend.Minds fun _ => True := .trivially _
  cases doing with
  | own action =>
    have hperform : Obeys (.always Failure (HoldsBatch t v)) (action.perform L.backend) := by
      refine holds_perform L.keeping_backend hany (fun _ _ h => ⟨h.template, h.batch, h.sameSql⟩)
        (fun _ _ h => ⟨h.template, h.batch, h.sameSql⟩) (fun _ h => h.withoutBatch rfl rfl) batched_addBatch
        (fun _ h => h.withoutBatch rfl rfl) (fun _ _ _ _ => ?_) action
      exact ends_of_forall (fun _ _ => trivial) (fun _ _ => trivial) fun _ => trivial
    exact (hperform.discard d hd).left
  | other deed =>
    have hline := (Session.carries_deed L.keeping_backend deed d.line hd.line).left
    exact ⟨hd.statement, hline⟩

theorem perform_executeBatch {b : Backend δ} {d d' : Desk δ} {r : Outcome Failure (List UInt64)}
    (h : executeBatch b d = (r, d')) : (Doing.own .executeBatch).perform b d = (r.map fun _ => (), d') := by
  show Flow.bind (Flow.bind (executeBatch b) _) _ d = _
  unfold Flow.bind
  rw [h]
  cases r <;> rfl

theorem batch_of_spares (b : Backend δ) {doing : Doing} (hspares : doing.SparesBatch) (d : Desk δ) :
    (doing.perform b d).2.statement.batch = d.statement.batch := by
  cases doing with
  | own action =>
    have hperform : Obeys (.always Failure (HasBatch d.statement.batch d.line.session.vendor fun _ => True))
        (action.perform b) := keepsBatch_perform hspares
    exact (hperform.discard d ⟨rfl, rfl, trivial⟩).left.statement
  | other deed => rfl

end

/-- What waits when nothing was done with the batch meanwhile. -/
theorem batch_of_play {b : Backend (Embedded δ)} {turns : List (NamedSql.Turn (Desk (Embedded δ)) Doing)}
    (hturns : ∀ change, .meanwhile change ∈ turns → ∀ d, Beside d (change d)) {d last : Desk (Embedded δ)}
    {played : List (NamedSql.Played Failure (Desk (Embedded δ)) Doing Unit)}
    (hspares : ∀ p ∈ played, p.action.SparesBatch) (h : play (Doing.perform b) turns d = (played, last)) :
    last.statement.batch = d.statement.batch := by
  refine (play_keeps (I := fun d' => d'.statement.batch = d.statement.batch) (fun p hmem hp _ hfound => ?_)
    (fun change hchange d' hd' => ?_) rfl h).2
  · rw [← hp.left_eq]
    exact (batch_of_spares b (hspares p hmem) p.found).trans hfound
  · show (change d').statement.batch = _
    rw [(hturns change hchange d').statement]
    exact hd'

/-- A session is started on a database in a library that restores its tables, anything is done with it before a
statement is created, and then with the statement and, in between, with the session and other statements, inside and
outside of transactions. Batches that change data are executed as a whole: the counts and the tables are what the
entries give one after another, or the tables stay. When the statement executes its batch and that succeeds, each entry
was executed once and none is left; if it fails, all entries are left, also for the next execution unless something else
is done with the batch in between. Only if the time of the transaction ran out during the call, the entries were
executed and the execution fails. -/
theorem batches_atomic (hL : L.Restores content marked changing) {name : String} {settings : Settings}
    {fresh l l' : Line (Embedded δ)} (hfresh : fresh.session = .start name settings)
    {earlier : List (NamedSql.Turn (Line (Embedded δ)) Session.Deed)}
    (hearlier : ∀ change, .meanwhile change ∈ earlier → ∀ l, (change l).session = l.session)
    {before : List (NamedSql.Played Failure (Line (Embedded δ)) Session.Deed Unit)}
    (hbefore : play (Session.Deed.perform L.backend) earlier fresh = (before, l)) {t : Template} {page : Option Page}
    {st : Statement} (hcreate : create L.backend t page l = (.done st, l'))
    {turns : List (NamedSql.Turn (Desk (Embedded δ)) Doing)}
    (hturns : ∀ change, .meanwhile change ∈ turns → ∀ d, Beside d (change d)) {memos : List Memo}
    {last : Desk (Embedded δ)} {played : List (NamedSql.Played Failure (Desk (Embedded δ)) Doing Unit)}
    (h : play (Doing.perform L.backend) turns ⟨st, memos, l'⟩ = (played, last)) :
    (∀ handle p entries w, w.link.statements.get? handle = some p → (∀ s, L.Compiles p.body s → changing s) →
      L.Whole content p.body entries (content w.link.data) (content (L.executeBatch handle entries w).2.link.data)
        (L.executeBatch handle entries w).1) ∧
    ∀ front p rest, played = front ++ p :: rest → p.action = .own .executeBatch →
      (∀ s, L.Compiles (p.found.statement.batchSql p.found.line.session.vendor) s → changing s) →
      (∃ r, executeBatch L.backend p.found = (r, p.left) ∧ Attempt L content p.found p.left r) ∧
      (p.outcome ≠ .done () → ∀ between q later, rest = between ++ q :: later →
        (∀ x ∈ between, x.action.SparesBatch) → q.found.statement.batch = p.found.statement.batch) := by
  have hany : L.backend.Minds fun _ => True := .trivially _
  have hstart : Carries Embedded.carried settings.vendor (fun _ => True) none fresh :=
    ⟨congrArg Session.vendor hfresh, hfresh ▸ Session.given_start name settings, nofun, nofun, trivial⟩
  have hcreated (hl : Carries Embedded.carried settings.vendor (fun _ => True) none l) :
      HoldsBatch t settings.vendor ⟨st, memos, l'⟩ :=
    holds_create L.keeping_backend (fun _ _ h => ⟨h.template, h.batch, h.sameSql⟩) hany.prepare hany.close hl
      ⟨rfl, List.forall_mem_nil _, List.forall_mem_nil _⟩ memos hcreate
  have hrun := Doing.keeps_play hstart (fun deed l hl => (Session.carries_deed L.keeping_backend deed l hl).left)
    (fun change hchange l hl => hl.ofSession (hearlier change hchange l) trivial) hbefore hcreated
    (fun doing d hd => holdsBatch_perform L doing hd) (fun change hchange d hd => (hturns change hchange d).holdsBatch hd)
    h
  refine ⟨fun handle p entries w hp hchanging => hL.whole_executeBatch hp hchanging entries, ?_⟩
  rintro front p rest rfl haction hsql
  obtain ⟨hhonest, hfound, -⟩ := hrun p (List.mem_append_right front List.mem_cons_self)
  rcases hexecuted : executeBatch L.backend p.found with ⟨r, d'⟩
  have hperformed : (p.outcome, p.left) = (r.map fun _ => (), d') := by
    rw [← perform_executeBatch hexecuted, ← haction]
    exact hhonest.symm
  obtain ⟨houtcome, rfl⟩ := Prod.mk.inj hperformed
  have hattempt := attempt_of_ends (ends_executeBatch_embedded hL hfound hsql) hexecuted
  refine ⟨⟨r, rfl, hattempt⟩, ?_⟩
  rintro hfailed between q later rfl hspares
  have hkept : p.left.statement.batch = p.found.statement.batch := by
    cases r with
    | done counts => exact absurd houtcome hfailed
    | failed e => exact hattempt.1
    | overflow => exact hattempt.1
  -- between the two executions nothing was done with the batch
  obtain ⟨earlier, _, rfl, -, -, hafter⟩ := play_split h
  obtain ⟨meantime, _, rfl, hmeantime, -, -⟩ := play_split hafter
  refine (batch_of_play (fun change hchange => ?_) hspares hmeantime).trans hkept
  exact hturns change (List.mem_append_right earlier (List.mem_cons_of_mem _ (List.mem_append_left _ hchange)))

def insertTemplate : Template :=
  ⟨"INSERT INTO kv (k, v) VALUES (:k, :v)", '\\', "INSERT INTO kv (k, v) VALUES (".toList.map .sql ++
    [.marker ⟨"k", false, false, none⟩, .sql ',', .sql ' ', .marker ⟨"v", false, false, none⟩, .sql ')']⟩

/-- A table with one row, whose key is 1. -/
def keyLine : Line KeyDatabase :=
  ⟨.start "main" .default, ⟨⟨{ KeyStore.empty with table := [(1, .text "a")] }, []⟩, .epoch⟩, []⟩

/-- Entries for new rows with the given keys. -/
def addRows (keys : List Int64) : List (NamedSql.Turn (Desk KeyDatabase) Doing) :=
  keys.flatMap fun k => [.act (.own (.bind (.name "k") (.value (.integer k)))),
    .act (.own (.bind (.name "v") (.value (.text "b")))), .act (.own .addBatch)]

def deleteRows (d : Desk KeyDatabase) : Desk KeyDatabase :=
  { d with line := { d.line with world := { d.line.world with link := { d.line.world.link with
    data := { d.line.world.link.data with table := [] } } } } }

/-- A row of the batch has a key that is taken. The batch fails outside of a transaction and in one, and succeeds when
the key is free. -/
def retriedRows : List (NamedSql.Turn (Desk KeyDatabase) Doing) :=
  addRows [5, 6, 1] ++ [.act (.own .executeBatch), .act (.other (.begin none)), .act (.own .executeBatch),
    .meanwhile deleteRows, .act (.own .executeBatch), .act (.other .commit)]

/-- The keys of the table and the number of entries that wait. -/
def keysAndWaiting (d : Desk KeyDatabase) : List Int64 × Nat :=
  (d.line.world.link.data.table.map Prod.fst, d.statement.batch.length)

theorem batches_atomic_of_retry : ∃ before l st l' played last,
    play (Session.Deed.perform KeyDatabase.backend) [.act .ping] keyLine = (before, l) ∧
    create KeyDatabase.backend insertTemplate none l = (.done st, l') ∧
    play (Doing.perform KeyDatabase.backend) retriedRows ⟨st, [], l'⟩ = (played, last) ∧
    (played.drop 9).map (fun p => (keysAndWaiting p.found, keysAndWaiting p.left)) =
      [(([1], 3), ([1], 3)), (([1], 3), ([1], 3)), (([1], 3), ([1], 3)), (([], 3), ([1, 5, 6], 0)),
        (([1, 5, 6], 0), ([1, 5, 6], 0))] ∧
    ∀ p ∈ played, p.action = .own .executeBatch → ∃ r, executeBatch KeyDatabase.backend p.found = (r, p.left) ∧
      Attempt KeyStore.library KeyStore.table p.found p.left r := by
  obtain ⟨before, l, st, l', played, last, hbefore, hcreate, hplay, hkeys, hsql⟩ : ∃ before l st l' played last,
      play (Session.Deed.perform KeyDatabase.backend) [.act .ping] keyLine = (before, l) ∧
      create KeyDatabase.backend insertTemplate none l = (.done st, l') ∧
      play (Doing.perform KeyDatabase.backend) retriedRows ⟨st, [], l'⟩ = (played, last) ∧
      (played.drop 9).map (fun p => (keysAndWaiting p.found, keysAndWaiting p.left)) =
        [(([1], 3), ([1], 3)), (([1], 3), ([1], 3)), (([1], 3), ([1], 3)), (([], 3), ([1, 5, 6], 0)),
          (([1, 5, 6], 0), ([1, 5, 6], 0))] ∧
      ∀ sql ∈ played.map fun p => p.found.statement.batchSql p.found.line.session.vendor,
        sql = "" ∨ sql = "INSERT INTO kv (k, v) VALUES (?, ?)" :=
    ⟨_, _, _, _, _, _, rfl, rfl, rfl, by decide +kernel, by decide +kernel⟩
  refine ⟨before, l, st, l', played, last, hbefore, hcreate, hplay, hkeys, fun p hp haction => ?_⟩
  have hearlier : ∀ change, .meanwhile change ∈ [NamedSql.Turn.act Session.Deed.ping] →
      ∀ l : Line KeyDatabase, (change l).session = l.session := by
    intro change hchange
    cases List.mem_singleton.1 hchange
  have hturns : ∀ change, .meanwhile change ∈ retriedRows → ∀ d, Beside d (change d) := by
    intro change hchange d
    simp only [retriedRows, addRows, List.flatMap_cons, List.flatMap_nil, List.cons_append, List.nil_append,
      List.mem_cons, reduceCtorEq, Turn.meanwhile.injEq, List.not_mem_nil, or_false, false_or] at hchange
    subst hchange
    exact ⟨rfl, rfl, rfl⟩
  have hchanging : ∀ s, KeyStore.library.Compiles (p.found.statement.batchSql p.found.line.session.vendor) s →
      KeyStore.Changing s := by
    intro s hs
    refine KeyStore.changing_of_compiles (fun command hcommand => ?_) hs
    rcases hsql _ (List.mem_map_of_mem hp) with hempty | hinsert
    · rw [hempty] at hcommand
      cases hcommand
    · rw [hinsert] at hcommand
      exact ⟨.insert, (Except.ok.inj hcommand).symm⟩
  obtain ⟨front, rest, hplayed⟩ := List.append_of_mem hp
  have hbatches := (batches_atomic KeyStore.restores rfl hearlier hbefore hcreate hturns hplay).2
  exact (hbatches front p rest hplayed haction hchanging).1

end Statement

end NamedSql
