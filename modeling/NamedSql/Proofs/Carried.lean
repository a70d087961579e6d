import Mathlib.Logic.Function.Basic
import NamedSql.Proofs.Transactions

/-!
# What handles carry

A database keeps for a handle the SQL that was prepared, the values that were bound and the limit of rows, each
until it is changed (`Backend.Keeping`). What a session does prepares under new handles only, and it forgets a
handle before it closes it. So an open handle carries the SQL that it was prepared from, whatever is done with
the session by others (`Session.carries_deed`).
-/

namespace NamedSql

open NamedSql.Flow

variable {σ α : Type} {b : Backend σ}

/-- What a database keeps for a handle: its SQL, the values by their positions, and the limit of rows. -/
structure Carried where
  sql : String
  bound : Nat → Option Value
  maxRows : Option UInt64

namespace Carried

def fresh (sql : String) : Carried :=
  ⟨sql, fun _ => none, none⟩

def bind (position : Nat) (v : Value) (c : Carried) : Carried :=
  { c with bound := Function.update c.bound position (some v) }

def clear (c : Carried) : Carried :=
  { c with bound := fun _ => none }

def limit (n : Option UInt64) (c : Carried) : Carried :=
  { c with maxRows := n }

/-- Values at the positions from one on. -/
def numbered (values : List Value) : Nat → Option Value
  | 0 => none
  | n + 1 => values[n]?

/-- The SQL with these values and no others. -/
def exactly (sql : String) (values : List Value) (maxRows : Option UInt64) : Carried :=
  ⟨sql, numbered values, maxRows⟩

theorem numbered_nil : numbered [] = fun _ => none := by
  funext n
  cases n <;> rfl

theorem numbered_concat (values : List Value) (v : Value) :
    numbered (values ++ [v]) = Function.update (numbered values) (values.length + 1) (some v) := by
  funext n
  cases n with
  | zero => exact (Function.update_of_ne (Nat.succ_ne_zero _).symm _ _).symm
  | succ n =>
    show (values ++ [v])[n]? = _
    rcases Nat.lt_trichotomy n values.length with hlt | rfl | hgt
    · rw [Function.update_of_ne (by omega), List.getElem?_append_left hlt]
      rfl
    · rw [Function.update_self, List.getElem?_concat_length]
    · rw [Function.update_of_ne (by omega), List.getElem?_eq_none (by simp; omega)]
      exact (List.getElem?_eq_none hgt.le).symm

theorem clear_eq (c : Carried) : c.clear = exactly c.sql [] c.maxRows := by
  rw [exactly, numbered_nil]
  rfl

theorem fresh_eq (sql : String) : fresh sql = exactly sql [] none := by
  rw [exactly, numbered_nil]
  rfl

theorem bind_exactly (sql : String) (values : List Value) (v : Value) (maxRows : Option UInt64) :
    (exactly sql values maxRows).bind (values.length + 1) v = exactly sql (values ++ [v]) maxRows := by
  rw [exactly, exactly, numbered_concat]
  rfl

end Carried

/-! ### Databases that keep what was set -/

section
variable (carried : σ → Nat → Option Carried)

/-- The SQL of each handle. -/
def texts (l : σ) (handle : Nat) : Option String :=
  (carried l handle).map Carried.sql

/-- What is kept for one handle changes, and everything else stays. -/
def Alters (handle : Nat) (f : Carried → Carried) (l l' : σ) : Prop :=
  carried l' = Function.update (carried l) handle ((carried l handle).map f)

/-- The other handles have the SQL that they had. -/
def SparesOthers (handle : Nat) (l l' : σ) : Prop :=
  ∀ other, other ≠ handle → texts carried l' other = texts carried l other

/-- Calls that leave the SQL of all handles alone. -/
def Quiet (c : Call σ α) : Prop :=
  ∀ sqls, Obeys (.always NativeFault fun w => texts carried w.link = sqls) c

/-- A database that keeps for each handle what is set for it. Binding that does not succeed may leave anything
bound, and so may executing. -/
structure Backend.Keeping (b : Backend σ) : Prop where
  prepare : ∀ handle sql w, ends (b.prepare handle sql)
    (fun _ v => carried v.link = Function.update (carried w.link) handle (some (.fresh sql)))
    (fun _ v => SparesOthers carried handle w.link v.link) (fun v => SparesOthers carried handle w.link v.link) w
  bind : ∀ handle position v w, ends (b.bind handle position v)
    (fun _ u => Alters carried handle (.bind position v) w.link u.link)
    (fun _ u => texts carried u.link = texts carried w.link) (fun u => texts carried u.link = texts carried w.link) w
  clearBindings : ∀ handle l, Alters carried handle .clear l (b.clearBindings handle l)
  limitRows : ∀ handle n l, Alters carried handle (.limit n) l (b.limitRows handle n l)
  limitTime : ∀ handle millis l, carried (b.limitTime handle millis l) = carried l
  execute : ∀ handle, Quiet carried (b.execute handle)
  executeBatch : ∀ handle entries, Quiet carried (b.executeBatch handle entries)
  fetch : ∀ handle, Quiet carried (b.fetch handle)
  close : ∀ handle w, ends (b.close handle) (fun _ v => SparesOthers carried handle w.link v.link)
    (fun _ v => SparesOthers carried handle w.link v.link) (fun v => SparesOthers carried handle w.link v.link) w

end

section
variable {carried : σ → Nat → Option Carried} {handle : Nat} {f : Carried → Carried} {l l' : σ}

theorem Alters.self (h : Alters carried handle f l l') : carried l' handle = (carried l handle).map f := by
  unfold Alters at h
  rw [h, Function.update_self]

theorem Alters.texts_eq (h : Alters carried handle f l l') (hf : ∀ c, (f c).sql = c.sql) :
    texts carried l' = texts carried l := by
  funext n
  unfold texts
  unfold Alters at h
  rw [h]
  by_cases hn : n = handle
  · rw [hn, Function.update_self, Option.map_map, show Carried.sql ∘ f = Carried.sql from funext hf]
  · rw [Function.update_of_ne hn]

theorem texts_of_carried (h : carried l' = carried l) : texts carried l' = texts carried l :=
  congrArg (fun kept n => (kept n).map Carried.sql) h

/-- What the calls of a batch, one entry after another, leave alone. -/
theorem Backend.obeys_executeEach {W : World σ → Prop} {handle : Nat}
    (hclear : Obeys (.always NativeFault W) (Call.modifyLink (b.clearBindings handle)))
    (hbind : ∀ position v, Obeys (.always NativeFault W) (b.bind handle position v))
    (hexecute : Obeys (.always NativeFault W) (b.execute handle)) (entries : List (List Value)) :
    Obeys (.always NativeFault W) (b.executeEach handle entries) := by
  have hentries : Obeys (.always NativeFault W) (b.executeEntries handle entries) := by
    induction entries with
    | nil => exact .pure _
    | cons entry entries ih =>
      refine hclear.bind fun _ => (b.obeys_bindFrom hbind 1 entry).bind fun _ => hexecute.bind fun reply => ?_
      cases reply with
      | count n => exact (Obeys.pure _).bind fun _ => ih.bind fun _ => .pure _
      | rows feed => exact (Obeys.pure _).bind fun _ => ih.bind fun _ => .pure _
  exact hentries.bind fun counts => hclear.bind fun _ => .pure _

theorem Backend.MindsOpen.executeEach {W : World σ → Prop} (h : b.MindsOpen W) (handle : Nat)
    (entries : List (List Value)) : Obeys (.always NativeFault W) (b.executeEach handle entries) :=
  Backend.obeys_executeEach (h.clearBindings handle) (h.bind handle) (h.execute handle) entries

namespace Backend.Keeping

variable (h : b.Keeping carried)
include h

theorem carried_limitTime (handle : Nat) (budget : TimeLimit.Budget) (kept : Nat → Option Carried) :
    Obeys (.always NativeFault fun w => carried w.link = kept) (Statement.limitTime b handle budget) := by
  cases budget with
  | left millis => exact .modify fun w hw => (h.limitTime handle _ w.link).trans hw
  | _ => exact .pure _

/-- Only preparing and closing change the SQL of a handle. -/
theorem mindsOpen (sqls : Nat → Option String) : b.MindsOpen fun w => texts carried w.link = sqls where
  bind handle position v w hw :=
    ends_mono (h.bind handle position v w) (fun _ _ hu => (hu.texts_eq fun _ => rfl).trans hw)
      (fun _ _ hu => hu.trans hw) fun _ hu => hu.trans hw
  clearBindings handle := .modify fun w hw => ((h.clearBindings handle w.link).texts_eq fun _ => rfl).trans hw
  execute handle := h.execute handle sqls
  limitRows handle n := .modify fun w hw => ((h.limitRows handle n w.link).texts_eq fun _ => rfl).trans hw
  limitTime handle budget w hw := by
    have hsame (v : World σ) (hv : carried v.link = carried w.link) : texts carried v.link = sqls :=
      (texts_of_carried hv).trans hw
    exact ends_mono (h.carried_limitTime handle budget _ w rfl) (fun _ => hsame) (fun _ => hsame) hsame
  fetch handle := h.fetch handle sqls

theorem quiet_nextRow (feed : Feed) : Quiet carried (b.nextRow feed) := fun sqls =>
  b.obeys_nextRow (h.mindsOpen sqls).fetch feed

/-- Binding values goes on after those that are bound already. -/
theorem ends_bindFrom {handle : Nat} {sql : String} {maxRows : Option UInt64} (values : List Value)
    {before : List Value} {w : World σ} (hw : carried w.link handle = some (.exactly sql before maxRows)) :
    ends (b.bindFrom handle (before.length + 1) values)
      (fun _ v => carried v.link handle = some (.exactly sql (before ++ values) maxRows)) (fun _ _ => True)
      (fun _ => True) w := by
  induction values generalizing before w with
  | nil =>
    rw [List.append_nil]
    exact hw
  | cons v values ih =>
    unfold Backend.bindFrom
    rw [ends_bind]
    refine ends_mono (h.bind handle _ v w) (fun _ u hu => ?_) (fun _ _ _ => trivial) fun _ _ => trivial
    have hbound : carried u.link handle = some (.exactly sql (before ++ [v]) maxRows) := by
      rw [hu.self, hw, Option.map_some, Carried.bind_exactly]
    have hrest := ih hbound
    rwa [List.length_append, List.append_assoc] at hrest

end Backend.Keeping

end

/-! ### Sessions -/

section
variable {carried : σ → Nat → Option Carried} {v : Vendor} {W : World σ → Prop} {held : Option (Nat × String)}
  {l : Line σ} {d : Desk σ}

/-- A session whose handles are among those that were given, and the handle that is held as well, which carries
its SQL as long as it is open. -/
structure Carries (carried : σ → Nat → Option Carried) (v : Vendor) (W : World σ → Prop)
    (held : Option (Nat × String)) (l : Line σ) : Prop where
  vendor : l.session.vendor = v
  session : l.session.Given
  older : ∀ x ∈ held, x.1 < l.session.nextHandle
  text : ∀ x ∈ held, x.1 ∈ l.session.handles → texts carried l.world.link x.1 = some x.2
  world : W l.world

theorem Carries.unheld (h : Carries carried v W held l) : Carries carried v W none l :=
  ⟨h.vendor, h.session, nofun, nofun, h.world⟩

theorem Carries.mono {W' : World σ → Prop} (h : Carries carried v W held l) (hW : W l.world → W' l.world) :
    Carries carried v W' held l :=
  ⟨h.vendor, h.session, h.older, h.text, hW h.world⟩

theorem Carries.ofVendor (h : Carries carried v W held l) : Carries carried l.session.vendor W held l :=
  ⟨rfl, h.session, h.older, h.text, h.world⟩

/-- As long as no handle is held only the session matters. -/
theorem Carries.ofSession {l' : Line σ} (h : Carries carried v W none l) (hsession : l'.session = l.session)
    (hw : W l'.world) : Carries carried v W none l' :=
  ⟨hsession ▸ h.vendor, hsession ▸ h.session, nofun, nofun, hw⟩

/-- A handle that was given may be held from now on. -/
theorem Carries.hold {handle : Nat} {sql : String} (h : Carries carried v W held l)
    (hgiven : handle < l.session.nextHandle) (htext : texts carried l.world.link handle = some sql) :
    Carries carried v W (some (handle, sql)) l := by
  have hx (x : Nat × String) (hx : x ∈ some (handle, sql)) : (handle, sql) = x := Option.some.inj hx
  exact ⟨h.vendor, h.session, fun x hmem => hx x hmem ▸ hgiven, fun x hmem _ => hx x hmem ▸ htext, h.world⟩

theorem Carries.withWorld {W' : World σ → Prop} {w : World σ} (h : Carries carried v W held l)
    (htexts : texts carried w.link = texts carried l.world.link) (hw : W' w) :
    Carries carried v W' held { l with world := w } := by
  refine ⟨h.vendor, h.session, h.older, fun x hx hopen => ?_, hw⟩
  show texts carried w.link x.1 = _
  rw [htexts]
  exact h.text x hx hopen

theorem Carries.withLog {log : List Event} (h : Carries carried v W held l) :
    Carries carried v W held { l with log } :=
  ⟨h.vendor, h.session, h.older, h.text, h.world⟩

theorem Carries.reading {m : Cursor.Reading σ α} (h : Carries carried v W held l)
    (hquiet : ∀ sqls, Cursor.Minds (fun w => texts carried w.link = sqls) m) (hm : Cursor.Minds W m) (c : Cursor) :
    ends m (fun _ s => Carries carried v W held { l with world := s.2 })
      (fun _ s => Carries carried v W held { l with world := s.2 })
      (fun s => Carries carried v W held { l with world := s.2 }) (c, l.world) :=
  ends_mono ((hquiet _ (c, l.world) rfl).and (hm (c, l.world) h.world)) (fun _ _ hs => h.withWorld hs.1 hs.2)
    (fun _ _ hs => h.withWorld hs.1 hs.2) fun _ hs => h.withWorld hs.1 hs.2

theorem carries_record (e : Event) : Obeys (.always Failure (Carries carried v W held)) (Dialog.record e) :=
  .modify fun _ hl => ⟨hl.vendor, hl.session, hl.older, hl.text, hl.world⟩

theorem carries_call {c : Call σ α} (hc : Quiet carried c) (hW : Obeys (.always NativeFault W) c) :
    Obeys (.always Failure (Carries carried v W held)) (Dialog.call c) := by
  refine .within fun l hl => (ends_attempt c).2 ?_
  exact ends_mono ((hc _ l.world rfl).and (hW l.world hl.world)) (fun _ w hw => hl.withWorld hw.1 hw.2)
    (fun _ w hw => hl.withWorld hw.1 hw.2) fun w hw => hl.withWorld hw.1 hw.2

namespace Session

/-- What preparing under the next handle leaves, and what it leaves if nothing came of it. -/
theorem ends_prepareHandle_carries (hb : b.Keeping carried) (hl : Carries carried v W held l) (sql : String)
    (hW : ∀ handle, Obeys (.always NativeFault W) (b.prepare handle sql)) :
    ends (prepareHandle b sql)
      (fun handle l' => Carries carried v W held l' ∧ handle < l'.session.nextHandle ∧
        carried l'.world.link handle = some (.fresh sql))
      (fun _ => Carries carried v W held) (Carries carried v W held) l := by
  have hold : ∀ x ∈ held, x.1 ≠ l.session.nextHandle := fun x hx => (hl.older x hx).ne
  have hspared (w : World σ) (hw : SparesOthers carried l.session.nextHandle l.world.link w.link) (hWw : W w) :
      Carries carried v W held { l with world := w } :=
    ⟨hl.vendor, hl.session, hl.older, fun x hx hopen => (hw x.1 (hold x hx)).trans (hl.text x hx hopen), hWw⟩
  refine ends_prepareHandle ?_
  refine ends_mono ((hb.prepare l.session.nextHandle sql l.world).and (hW _ l.world hl.world)) ?_
    (fun _ w hw => hspared w hw.1 hw.2) fun w hw => hspared w hw.1 hw.2
  rintro - w ⟨hw, hWw⟩ log
  refine ⟨⟨hl.vendor, steady_given.opened _ hl.session, fun x hx => (hl.older x hx).trans (Nat.lt_succ_self _),
    fun x hx hopen => ?_, hWw⟩, Nat.lt_succ_self _, ?_⟩
  · have hbefore : x.1 ∈ l.session.handles :=
      (List.mem_append.1 hopen).resolve_right fun hmem => hold x hx (List.mem_singleton.1 hmem)
    show texts carried w.link x.1 = _
    unfold texts
    rw [hw, Function.update_of_ne (hold x hx)]
    exact hl.text x hx hbefore
  · show carried w.link l.session.nextHandle = _
    rw [hw, Function.update_self]

theorem carries_release (hb : b.Keeping carried) (hW : ∀ handle, Obeys (.always NativeFault W) (b.close handle))
    (handle : Nat) (sql : String) : Obeys (.always Failure (Carries carried v W held)) (release b handle sql) := by
  intro l hl
  -- the handle is not open any more when it is closed
  have hleft (w : World σ) (hw : SparesOthers carried handle l.world.link w.link) (hWw : W w) :
      Carries carried v W held (l.without handle w) := by
    refine ⟨hl.vendor, steady_given.released _ handle hl.session, hl.older, fun x hx hopen => ?_, hWw⟩
    obtain ⟨hne, hmem⟩ := (List.Nodup.mem_erase_iff hl.session.nodup).1 hopen
    exact (hw x.1 hne).trans (hl.text x hx hmem)
  refine ends_release hl ?_
  exact ends_mono ((hb.close handle l.world).and (hW handle l.world hl.world)) (fun _ w hw => hleft w hw.1 hw.2)
    (fun _ w hw => hleft w hw.1 hw.2) fun w hw => hleft w hw.1 hw.2

theorem upholds_carries (hb : b.Keeping carried) (hW : b.Minds W) :
    Upholds b (Carries carried v W held) where
  record := carries_record
  prepareHandle sql _ hl :=
    ends_mono (ends_prepareHandle_carries hb hl sql fun handle => hW.prepare handle sql) (fun _ _ h => h.1)
      (fun _ _ h => h) fun _ h => h
  executeFirst handle := by
    refine obeys_withHandle ?_ handle
    exact carries_call (fun sqls => (hb.mindsOpen sqls).executeFirst handle) (hW.executeFirst handle)
  release := carries_release hb hW.close

/-- Handles that the session has forgotten may be closed. -/
theorem carries_closeAll (hb : ∀ handle, Obeys (.always NativeFault W) (b.close handle)) (first : Option Failure)
    (handles : List Nat) (hl : Carries carried v W held l) (hnone : l.session.handles = []) :
    ends (closeAll b first handles) (fun _ => Carries carried v W held) (fun _ => Carries carried v W held)
      (Carries carried v W held) l := by
  have hback (l' : Line σ) (h : l'.Has (l.session = ·) W) : Carries carried v W held l' := by
    obtain ⟨hs, hw⟩ := h
    refine ⟨hs ▸ hl.vendor, hs ▸ hl.session, hs ▸ hl.older, fun x _ hopen => ?_, hw⟩
    rw [← hs, hnone] at hopen
    exact absurd hopen List.not_mem_nil
  exact ends_mono (has_closeAll hb first handles l ⟨rfl, hl.world⟩) (fun _ => hback) (fun _ => hback) hback

theorem abandons_carries (hW : b.Minds W) : Abandons b (Carries carried v W held) where
  ended _ hl := ⟨hl.vendor, ⟨hl.session.nodup, hl.session.given⟩, hl.older, hl.text, hl.world⟩
  free _ hl := ⟨hl.vendor, ⟨List.nodup_nil, List.forall_mem_nil _⟩, hl.older,
    fun _ _ hopen => absurd hopen List.not_mem_nil, hl.world⟩
  closeAll first handles _ hl hnone := carries_closeAll hW.close first handles hl hnone

end Session

/-! ### Statements of others -/

namespace Statement

theorem carries_readOut {m : Cursor.Reading σ α} (hquiet : ∀ sqls, Cursor.Minds (fun w => texts carried w.link = sqls) m)
    (hm : Cursor.Minds W m) (c : Cursor) : Obeys (keepingLine (Carries carried v W held)) (readOut c m) :=
  fun _ hd => (ends_readOut c m).2 (Carries.reading hd hquiet hm c)

theorem carries_callInTime {c : Call σ α} (hb : b.Keeping carried) (hW : b.MindsOpen W) (hquiet : Quiet carried c)
    (hc : Obeys (.always NativeFault W) c) (handle : Nat) (sql : String) (parameters : Option String) :
    Obeys (keepingLine (Carries carried v W held)) (callInTime b handle sql parameters c) := by
  intro d hd
  refine ends_callInTime sql parameters (fun _ => hd) hd fun before _ _ => ?_
  have hends := ((((hb.mindsOpen _).limitTime handle before).bind fun _ => hquiet _) d.line.world rfl).and
    (((hW.limitTime handle before).bind fun _ => hc) d.line.world hd.world)
  refine ends_mono hends (fun _ w hw => ?_) (fun _ w hw => hd.withWorld hw.1 hw.2) fun w hw => hd.withWorld hw.1 hw.2
  split
  · exact hd.withWorld hw.1 hw.2
  · exact hd.withWorld hw.1 hw.2

theorem obeys_onLine {I : Line σ → Prop} {m : Dialog σ α} (hm : Obeys (.always Failure I) m) :
    Obeys (keepingLine I) (onLine m) :=
  .within fun d hd => hm d.line hd

theorem carries_callByCall (hb : b.Keeping carried) (hW : b.Minds W) :
    CallByCall b (keepingLine (Carries carried v W held)) where
  setHandle _ := .modify fun _ hd => hd
  setMemo _ _ := .within fun _ hd => hd
  record e := obeys_onLine (carries_record e)
  openHandle sql := obeys_onLine (Session.obeys_checkOpen.bind fun _ => (Session.upholds_carries hb hW).prepareHandle sql)
  release handle sql := obeys_onLine (Session.carries_release hb hW.close handle sql)
  readAll := carries_readOut (fun sqls => Cursor.minds_readAll fun feed => hb.quiet_nextRow feed sqls)
    (Cursor.minds_readAll (b.obeys_nextRow hW.fetch))
  nextRow := carries_readOut (fun sqls => Cursor.minds_nextRow fun feed => hb.quiet_nextRow feed sqls)
    (Cursor.minds_nextRow (b.obeys_nextRow hW.fetch))
  execute handle sql parameters values maxRows :=
    carries_callInTime hb hW.toMindsOpen (fun sqls => (hb.mindsOpen sqls).executeWith handle values maxRows)
      (hW.executeWith handle values maxRows) handle sql parameters
  executeBound handle sql parameters values :=
    carries_callInTime hb hW.toMindsOpen (fun sqls => (hb.mindsOpen sqls).executeBound handle values)
      (hW.executeBound handle values) handle sql parameters
  recordFailed _ _ _ hd := hd.withLog
  releaseFailed _ handle sql d hd := obeys_onLine (Session.carries_release hb hW.close handle sql) d hd

end Statement

/-- Whatever others do with a session, the SQL of a handle stays until they close it. -/
theorem Session.carries_deed (hb : b.Keeping carried) (deed : Deed) :
    Obeys (.always Failure (Carries carried v (fun _ => True) held)) (deed.perform b) := by
  have hany : b.Minds fun _ => True := .trivially b
  have hstatement : Statement.CallByCall b (Statement.keepingLine (Carries carried v (fun _ => True) held)) :=
    Statement.carries_callByCall hb hany
  refine (upholds_carries hb hany).deed (fun l transaction hl => ?_) (Statement.obeys_create hstatement.toHandling)
    (fun st memos action => Statement.obeys_atDesk ?_ st memos) fun hcloses => ?_
  · exact ⟨hl.vendor, ⟨hl.session.nodup, hl.session.given⟩, hl.older, hl.text, hl.world⟩
  · refine hstatement.obeys_perform (fun _ _ _ _ _ hd => hd) (fun handle sql shown entries => ?_) action
    exact Statement.carries_callInTime hb hany.toMindsOpen (hb.executeBatch handle entries)
      (fun _ _ => ends_of_forall (fun _ _ => trivial) (fun _ _ => trivial) fun _ => trivial) handle sql shown
  · cases deed with
    | terminate => exact (upholds_carries hb hany).terminate (abandons_carries hany)
    | drop => exact (upholds_carries hb hany).drop (abandons_carries hany)
    | _ => cases hcloses

end

end NamedSql
