import NamedSql.Proofs.Likeness.Workbench
import NamedSql.Proofs.Recall
import NamedSql.Proofs.Turns

/-!
# Reusing tables

The statements of a workbench share its memos. In every history of steps a table that a statement retrieves
without asking the database is the one that an earlier retrieval got from the database and stored under the
same key; it has not expired, and in between it was found all the time and nothing else was stored under that
key (`retrievals_sound`). A transaction is played as its beginning, the steps of its body and its end.
-/

namespace NamedSql

open NamedSql.Flow

variable {σ α : Type} {b : Backend σ}

namespace Statement

variable {memos : List Memo}

theorem memos_drop : Obeys (keepingMemos σ memos) (drop b) := by
  refine memos_close.attempt.bind fun r => ?_
  cases r with
  | ok _ => exact .pure _
  | error e => exact (Obeys.read _).bind fun _ => memos_onLine _

end Statement

namespace Workbench

/-! ### What makes nothing new be found -/

/-- Work after which nothing is found in the memos but what was found there before. -/
abbrev forgetting (σ : Type) (memos : List Memo) : Law Failure (Workbench σ) :=
  .always Failure fun w => Memo.AllForget memos w.memos

section
variable {memos : List Memo}

theorem forgets_onLine (m : Dialog σ α) : Obeys (forgetting σ memos) (onLine m) :=
  .within fun _ hw => ends_of_forall (fun _ _ => hw) (fun _ _ => hw) fun _ => hw

theorem forgets_modify {f : Workbench σ → Workbench σ} (hf : ∀ w, (f w).memos = w.memos) :
    Obeys (forgetting σ memos) (Flow.modify f) := by
  refine .modify fun w hw => ?_
  show Memo.AllForget memos (f w).memos
  rw [hf w]
  exact hw

theorem memos_useStatement (name : String) {m : Work σ α} {w : Workbench σ}
    (hm : Obeys (Statement.keepingMemos σ w.memos) m) : (useStatement name m w).2.memos = w.memos := by
  unfold useStatement
  rcases w.statements.get? name with _ | st
  · rfl
  · exact (hm (w.desk st) rfl).left

theorem forgets_useStatement (name : String) {m : Work σ α}
    (hm : ∀ memos, Obeys (Statement.keepingMemos σ memos) m) : Obeys (forgetting σ memos) (useStatement name m) := by
  intro w hw
  have hleft : Memo.AllForget memos (useStatement name m w).2.memos := memos_useStatement name (hm w.memos) ▸ hw
  unfold ends
  rcases hv : useStatement name m w with ⟨_ | _ | _, v⟩ <;> rw [hv] at hleft <;> exact hleft

theorem forgets_dropStatement (name : String) : Obeys (forgetting σ memos) (dropStatement b name) := by
  intro w hw
  unfold ends dropStatement
  rcases w.statements.get? name with _ | st
  · exact hw
  · have hdrop : Obeys (Statement.keepingMemos σ w.memos) (Statement.drop b) := Statement.memos_drop
    have hleft : (Statement.drop b (w.desk st)).2.memos = w.memos := (hdrop (w.desk st) rfl).left
    have hd : Memo.AllForget memos (Statement.drop b (w.desk st)).2.memos := hleft ▸ hw
    dsimp only
    rcases hmd : Statement.drop b (w.desk st) with ⟨_ | _ | _, d⟩ <;> rw [hmd] at hd <;> exact hd

theorem forgets_addStatement (name : String) (template : Template) (page : Option Page)
    (equip : Statement → Statement) : Obeys (forgetting σ memos) (addStatement b name template page equip) := by
  refine (forgets_onLine _).bind fun _ => (forgets_dropStatement name).bind fun _ => Obeys.bind ?_ fun _ => .pure _
  exact forgets_modify fun _ => rfl

theorem forgets_parse (source : String) : Obeys (forgetting σ memos) (parse source) :=
  (forgets_onLine _).bind fun _ => .ofExcept _

theorem forgets_useCursor (name : String) (m : Cursor.Reading σ α) :
    Obeys (forgetting σ memos) (useCursor name m) := by
  intro w hw
  unfold ends useCursor
  dsimp only
  rcases Cursor.use _ m w.line with ⟨_ | _ | _, c, l⟩ <;> exact hw

theorem forgets_openCursor (name cursor : String) : Obeys (forgetting σ memos) (openCursor b name cursor) := by
  refine (forgets_useStatement name fun _ => Statement.memos_query).bind fun _ => Obeys.bind ?_ fun _ => .pure _
  exact forgets_modify fun _ => rfl

theorem forgets_drain (cursor : String) : Obeys (forgetting σ memos) (drain b cursor) := by
  refine (forgets_useCursor cursor _).attempt.bind fun _ => Obeys.bind ?_ fun _ => .ofExcept _
  exact forgets_modify fun _ => rfl

theorem forgets_loadResource (resource text : String) :
    Obeys (forgetting σ memos) (loadResource resource text) := by
  refine (Obeys.read _).bind fun _ => (Obeys.ofExcept _).bind fun _ => Obeys.bind ?_ fun _ => .pure _
  exact forgets_modify fun _ => rfl

theorem forgets_addFromCatalog (name resource statement : String) (page : Option Page)
    (equip : Statement → Statement) :
    Obeys (forgetting σ memos) (addFromCatalog b name resource statement page equip) :=
  (Obeys.read _).bind fun _ => (Obeys.ofExcept _).bind fun _ => forgets_addStatement _ _ _ _

theorem forgets_memo (n : Nat) {action : Memo.Action} (haction : action.puts = false) :
    Obeys (forgetting σ memos) (Step.perform b (.memo n action)) := by
  intro w hw
  show ends (Flow.read Workbench.memos >>= _) _ _ _ w
  rw [ends_bind, ends_read]
  rcases hm : w.memos[n]? with _ | m
  · exact hw
  · have hset (s : Memo.Timed) (hs : Memo.Forgets m s.memo) : Memo.AllForget memos (w.memos.set n s.memo) :=
      hw.trans (Memo.allForget_set hm hs)
    refine (ends_map _ _).2 ((ends_within _ _).2 ?_)
    exact ends_mono (Memo.forgets_perform haction ⟨m, w.line.world.now⟩ (.refl m)) (fun _ => hset) (fun _ => hset)
      hset

end

end Workbench

/-- Steps that store tables in memos which were not retrieved. -/
def Step.puts : Step σ → Bool
  | .memo _ action => action.puts
  | _ => false

def Step.retrieves : Step σ → Bool
  | .use _ action => action.retrieves
  | _ => false

open Workbench in
theorem Step.forgets_perform {step : Step σ} (hputs : step.puts = false) (hretrieves : step.retrieves = false)
    (memos : List Memo) : Obeys (forgetting σ memos) (step.perform b) := by
  have hpass (millis : Int) : Obeys (forgetting σ memos) (passTime millis) := forgets_onLine _
  cases step with
  | look => exact .pure _
  | refuse cause => exact .fail _
  | addStatement name sql page equipment =>
    exact (Obeys.ofExcept _).bind fun _ => (forgets_parse sql).bind fun _ => (forgets_addStatement _ _ _ _).map _
  | addFromCatalog name resource statement page equipment =>
    exact (Obeys.ofExcept _).bind fun _ => (forgets_addFromCatalog _ _ _ _ _).map _
  | dropStatement name => exact (forgets_dropStatement name).bind fun _ => .pure _
  | use statement action => exact (forgets_useStatement _ fun _ => Statement.memos_perform hretrieves).map _
  | openCursor statement cursor => exact (forgets_openCursor _ _).bind fun _ => .pure _
  | nextRow cursor => exact (forgets_useCursor _ _).map _
  | drain cursor => exact (forgets_drain _).map _
  | parse sql => exact (forgets_parse sql).map _
  | load resource text => exact (forgets_loadResource _ _).bind fun _ => .pure _
  | pass millis => exact (hpass _).bind fun _ => .pure _
  | setClock millis => exact (forgets_onLine _).bind fun _ => (hpass _).bind fun _ => .pure _
  | change f => exact (forgets_onLine _).bind fun _ => .pure _
  | memo n action => exact forgets_memo n hputs
  | begin seconds => exact (forgets_onLine _).bind fun _ => .pure _
  | expiry => exact (forgets_onLine _).map _
  | commit => exact (forgets_onLine _).bind fun _ => .pure _
  | rollback => exact (forgets_onLine _).bind fun _ => .pure _
  | ping => exact (forgets_onLine _).bind fun _ => .pure _
  | nextValue sequence => exact (forgets_onLine _).bind fun _ => .pure _
  | terminate => exact (forgets_onLine _).attempt.bind fun _ => .pure _
  | transaction seconds body => exact .pure _

namespace Workbench

/-! ### Played steps -/

abbrev Turn (σ : Type) := NamedSql.Turn (Workbench (Watched σ)) (Step (Watched σ))

abbrev Played (σ : Type) :=
  NamedSql.Played Failure (Workbench (Watched σ)) (Step (Watched σ)) (Step.Result (Watched σ))

/-- Steps that store nothing but what was retrieved; what happens meanwhile stores nothing. -/
def Turn.Sparing : Turn σ → Prop
  | .act step => step.puts = false
  | .meanwhile change => ∀ w, Memo.AllForget w.memos (change w).memos

/-- The step retrieved a page of this statement as this table. -/
def Played.Retrieved (p : Played σ) (st : Statement) (page : Option Page) (t : Table) : Prop :=
  ∃ name action, p.action = .use name action ∧ p.found.statements.get? name = some st ∧
    action.page? st = some page ∧ p.outcome = .done (.used (.table t))

/-- The step got a table from the database and stored it. -/
def Played.Stored (p : Played σ) (n : Nat) (key : MemoKey) (e : MemoEntry) : Prop :=
  ∃ st page, p.Retrieved st page e.table ∧ Statement.Stores (p.found.desk st) page n key e (p.left.desk st)

/-- The entry is found all the time, and nothing is stored under a key that is the same. -/
def Undisturbed (n : Nat) (key : MemoKey) (e : MemoEntry) (played : List (Played σ)) : Prop :=
  ∀ p ∈ played, Memo.findIn p.found.memos n key = some e ∧ Memo.findIn p.left.memos n key = some e ∧
    ∀ key' e', p.Stored n key' e' → key'.same key = false

/-- The entry was got from the database by one of the played steps, under a key that is the same. -/
def StoredBefore (n : Nat) (key : MemoKey) (e : MemoEntry) (played : List (Played σ)) : Prop :=
  ∃ before p after, played = before ++ p :: after ∧ (∃ key', key'.same key = true ∧ p.Stored n key' e) ∧
    Memo.findIn p.left.memos n key = some e ∧ Undisturbed n key e after

variable {w last : Workbench (Watched σ)} {n : Nat} {key : MemoKey} {e : MemoEntry}

/-- A step that retrieves gives a table, or leaves the memos as they were. -/
theorem ends_retrieving (name : String) {action : Statement.Action} (haction : action.retrieves = true)
    (w : Workbench (Watched σ)) :
    ends (Step.perform b.watched (.use name action))
      (fun r w' => ∃ st page t, w.statements.get? name = some st ∧ action.page? st = some page ∧
        r = .used (.table t) ∧ Statement.Dealt (w.desk st) page t (w'.desk st))
      (fun _ w' => w'.memos = w.memos) (fun w' => w'.memos = w.memos) w := by
  refine (ends_map _ _).2 ?_
  unfold ends useStatement
  rcases hst : w.statements.get? name with _ | st
  · rfl
  · have hdesk := Statement.ends_retrieving (b := b) haction (w.desk st)
    unfold ends at hdesk
    dsimp only
    rcases hd : action.perform b.watched (w.desk st) with ⟨r | _ | _, d⟩ <;> rw [hd] at hdesk
    · obtain ⟨page, t, hpage, rfl, hdealt⟩ := hdesk
      exact ⟨st, page, t, rfl, hpage, rfl, hdealt.withStatement st⟩
    · exact hdesk
    · exact hdesk

theorem stored_or_forgets {p : Played σ} (hhonest : p.Honest (Step.perform b.watched))
    (hputs : p.action.puts = false) : (∃ n key e, p.Stored n key e) ∨ Memo.AllForget p.found.memos p.left.memos := by
  obtain ⟨step, found, r, left⟩ := p
  cases hretrieves : step.retrieves with
  | false =>
    have hleft := (Step.forgets_perform (b := b.watched) hputs hretrieves found.memos found (.refl _)).left
    rw [show step.perform b.watched found = (r, left) from hhonest] at hleft
    exact .inr hleft
  | true =>
    cases step with
    | use name action =>
      have hkept (h : left.memos = found.memos) : Memo.AllForget found.memos left.memos := h ▸ .refl _
      have hends := ends_retrieving (b := b) name hretrieves found
      unfold ends at hends
      rw [show Step.perform b.watched (.use name action) found = (r, left) from hhonest] at hends
      cases r with
      | done x =>
        obtain ⟨st, page, t, hst, hpage, rfl, hdealt⟩ := hends
        cases hdealt with
        | fetched _ hleft => exact .inr (hkept hleft)
        | stored h => exact .inl ⟨_, _, _, st, page, ⟨name, action, rfl, hst, hpage, rfl⟩, h⟩
        | recalled _ hleft => exact .inr (hkept hleft)
      | failed e => exact .inr (hkept hends)
      | overflow => exact .inr (hkept hends)
    | _ => cases hretrieves

/-- What is found after a step was stored by it, or was found before and was not disturbed. -/
theorem found_after {p : Played σ} (hhonest : p.Honest (Step.perform b.watched)) (hputs : p.action.puts = false)
    (h : Memo.findIn p.left.memos n key = some e) :
    (∃ key', key'.same key = true ∧ p.Stored n key' e) ∨ Undisturbed n key e [p] := by
  by_cases hstored : ∃ key' e', key'.same key = true ∧ p.Stored n key' e'
  · obtain ⟨key', e', hsame, hp⟩ := hstored
    obtain ⟨st, page, hretrieved, hstores⟩ := hp
    obtain ⟨use, memo, memo', -, -, hmemo, -, hput, hleft⟩ := hstores.put
    rw [show p.left.memos = p.found.memos.set n memo' from hleft] at h
    rcases Memo.findIn_of_put hmemo hput hstores.storable h with ⟨-, -, rfl⟩ | ⟨hother, -⟩
    · exact .inl ⟨key', hsame, st, page, hretrieved, hstores⟩
    · rw [hother rfl] at hsame
      cases hsame
  · have hnone (key' : MemoKey) (e' : MemoEntry) (hp : p.Stored n key' e') : key'.same key = false :=
      Bool.eq_false_iff.2 fun hsame => hstored ⟨key', e', hsame, hp⟩
    refine .inr (List.forall_mem_singleton.2 ⟨?_, h, hnone⟩)
    rcases stored_or_forgets hhonest hputs with ⟨m, key', e', hp⟩ | hforgets
    · obtain ⟨st, page, hretrieved, hstores⟩ := id hp
      obtain ⟨use, memo, memo', -, -, hmemo, -, hput, hleft⟩ := hstores.put
      rw [show p.left.memos = p.found.memos.set m memo' from hleft] at h
      rcases Memo.findIn_of_put hmemo hput hstores.storable h with ⟨rfl, hsame, -⟩ | ⟨-, hold⟩
      · rw [hnone key' e' hp] at hsame
        cases hsame
      · exact hold
    · exact hforgets n key e h

/-- What is found after a history was stored in it, or was found at its start and was not disturbed. -/
theorem found_after_play {turns : List (Turn σ)} (hturns : ∀ turn ∈ turns, turn.Sparing)
    {played : List (Played σ)} (hplay : play (Step.perform b.watched) turns w = (played, last))
    (h : Memo.findIn last.memos n key = some e) :
    StoredBefore n key e played ∨ (Memo.findIn w.memos n key = some e ∧ Undisturbed n key e played) := by
  induction turns generalizing w played with
  | nil =>
    obtain ⟨rfl, rfl⟩ := Prod.mk.inj hplay
    exact .inr ⟨h, List.forall_mem_nil _⟩
  | cons turn rest ih =>
    obtain ⟨hturn, hrest⟩ := List.forall_mem_cons.1 hturns
    cases turn with
    | act step =>
      obtain ⟨p, others, rfl, rfl, hhonest, hothers, rfl⟩ := play_act hplay
      rcases ih hrest hothers with ⟨before, q, after, rfl, hq⟩ | ⟨hleft, hundisturbed⟩
      · exact .inl ⟨p :: before, q, after, rfl, hq⟩
      · rcases found_after hhonest hturn hleft with hstored | hp
        · exact .inl ⟨[], p, others, rfl, hstored, hleft, hundisturbed⟩
        · have hfirst := List.forall_mem_singleton.1 hp
          exact .inr ⟨hfirst.1, List.forall_mem_cons.2 ⟨hfirst, hundisturbed⟩⟩
    | meanwhile change =>
      rcases ih hrest hplay with hstored | ⟨hfound, hundisturbed⟩
      · exact .inl hstored
      · exact .inr ⟨hturn w n key e hfound, hundisturbed⟩

/-! ### Histories -/

def unwatched (w : Workbench (Watched σ)) : Workbench σ :=
  ⟨w.line.unwatched, w.memos, w.statements, w.cursors, w.catalog⟩

theorem alike_unwatched (w : Workbench (Watched σ)) : w.unwatched.Alike Watched.Under w :=
  ⟨Line.alike_unwatched_iff.2 rfl, rfl, rfl, rfl, rfl⟩

theorem eq_unwatched {w : Workbench σ} {v : Workbench (Watched σ)} (h : w.Alike Watched.Under v) :
    w = v.unwatched := by
  obtain ⟨line, memos, statements, cursors, catalog⟩ := w
  obtain ⟨hline, rfl, rfl, rfl, rfl⟩ := h
  obtain rfl : line = v.line.unwatched := Line.alike_unwatched_iff.1 hline
  rfl

theorem perform_use {b : Backend σ} {name : String} {action : Statement.Action} {w w' : Workbench σ}
    {r : Outcome Failure (Step.Result σ)} (h : Step.perform b (.use name action) w = (r, w')) :
    ∃ x, useStatement name (action.perform b) w = (x, w') ∧ r = x.map .used := by
  rcases hx : useStatement name (action.perform b) w with ⟨x, v⟩
  have hmap : Step.perform b (.use name action) w = (x.map .used, v) := by
    show Flow.bind _ _ w = _
    unfold Flow.bind
    rw [hx]
    cases x <;> rfl
  obtain ⟨rfl, rfl⟩ := Prod.mk.inj (hmap.symm.trans h)
  exact ⟨x, rfl, rfl⟩

/-- Using a statement does what it does on the database itself. -/
theorem use_unwatched {name : String} {action : Statement.Action} {w w' : Workbench (Watched σ)}
    {r : Outcome Failure (Step.Result (Watched σ))} (h : Step.perform b.watched (.use name action) w = (r, w')) :
    ∃ x, useStatement name (action.perform b) w.unwatched = (x, w'.unwatched) ∧ r = x.map .used := by
  obtain ⟨x, hx, rfl⟩ := perform_use h
  obtain ⟨hr, hw⟩ := alike_useStatement name (Statement.alike_perform b.alike_watched action) (alike_unwatched w)
  rw [hx] at hr hw
  exact ⟨x, Prod.ext hr (eq_unwatched hw), rfl⟩

theorem findIn_of_empty {memos : List Memo} (hempty : ∀ m ∈ memos, m.entries = []) :
    Memo.findIn memos n key = none := by
  cases h : Memo.findIn memos n key with
  | none => rfl
  | some e =>
    obtain ⟨m, hm, hfind⟩ := Memo.findIn_eq_some.1 h
    rw [Memo.find?, hempty m (List.mem_of_getElem? hm)] at hfind
    cases hfind

/-- Memos that start empty hold nothing but what was stored. -/
theorem storedBefore_of_empty {turns : List (Turn σ)} (hturns : ∀ turn ∈ turns, turn.Sparing)
    (hempty : ∀ m ∈ w.memos, m.entries = []) {played : List (Played σ)}
    (hplay : play (Step.perform b.watched) turns w = (played, last)) (h : Memo.findIn last.memos n key = some e) :
    StoredBefore n key e played := by
  rcases found_after_play hturns hplay h with hstored | ⟨hfound, -⟩
  · exact hstored
  · rw [findIn_of_empty hempty] at hfound
    cases hfound

theorem memos_of_unfinished {name : String} {action : Statement.Action} {w w' : Workbench (Watched σ)}
    {r : Outcome Failure (Step.Result (Watched σ))} (h : Step.perform b.watched (.use name action) w = (r, w'))
    (hr : ∀ x, r ≠ .done x) : w'.memos = w.memos := by
  cases hretrieves : action.retrieves with
  | false =>
    obtain ⟨x, hx, rfl⟩ := perform_use h
    have hkept := memos_useStatement (w := w) name (Statement.memos_perform (b := b.watched) hretrieves)
    rwa [hx] at hkept
  | true =>
    have hends := ends_retrieving (b := b) name hretrieves w
    unfold ends at hends
    rw [h] at hends
    cases r with
    | done x => exact absurd rfl (hr x)
    | failed e => exact hends
    | overflow => exact hends

theorem dealt_of_done {name : String} {action : Statement.Action} {w w' : Workbench (Watched σ)} {st : Statement}
    {page : Option Page} {x : Step.Result (Watched σ)}
    (h : Step.perform b.watched (.use name action) w = (.done x, w')) (hst : w.statements.get? name = some st)
    (hpage : action.page? st = some page) :
    ∃ t, x = .used (.table t) ∧ Statement.Dealt (w.desk st) page t (w'.desk st) := by
  have hends := ends_retrieving (b := b) name (Statement.Action.retrieves_of_page hpage) w
  unfold ends at hends
  rw [h] at hends
  obtain ⟨st', page', t, hst', hpage', rfl, hdealt⟩ := hends
  obtain rfl : st' = st := Option.some.inj (hst'.symm.trans hst)
  obtain rfl : page' = page := Option.some.inj (hpage'.symm.trans hpage)
  exact ⟨t, rfl, hdealt⟩

/-- The memos of a workbench are empty and its database is watched, which changes nothing. Whatever its
statements do after that, whatever else is done, and however the database answers, a step that retrieves a
page of a statement and gives a table has executed something on the database, or the table was found: the
bindings after the hooks, the statement and the page make a key, under which an earlier retrieval got just
this table from the database and stored it until a time that has not come yet, and since then the entry was
found all the time and no other one was stored. What fails stores nothing, and bindings that hold a stream
after the hooks neither store nor find anything. -/
theorem retrievals_sound (b : Backend σ) {turns : List (Turn σ)} (hturns : ∀ turn ∈ turns, turn.Sparing)
    {w last : Workbench (Watched σ)} (hempty : ∀ m ∈ w.memos, m.entries = []) {front rest : List (Played σ)}
    {p : Played σ} (hplay : play (Step.perform b.watched) turns w = (front ++ p :: rest, last)) {name : String}
    {action : Statement.Action} (haction : p.action = .use name action) :
    (∃ x, useStatement name (action.perform b) p.found.unwatched = (x, p.left.unwatched) ∧
      p.outcome = x.map .used) ∧
    ((∀ r, p.outcome ≠ .done r) → p.left.memos = p.found.memos) ∧
    ∀ st page, p.found.statements.get? name = some st → action.page? st = some page →
      (∀ r, p.outcome = .done r → ∃ t, r = .used (.table t) ∧
        (Statement.Fetched (p.found.desk st) (p.left.desk st) ∨
          ∃ n key expires, Statement.Recalls (p.found.desk st) page n key ⟨t, expires⟩ ∧
            StoredBefore n key ⟨t, expires⟩ front)) ∧
      (∀ bindings, Hook.applyAll p.found.line.world.now st.hooks st.bindings = .done bindings →
        bindings.hasStream = true → p.left.memos = p.found.memos ∧
          ∀ r, p.outcome = .done r → Statement.Fetched (p.found.desk st) (p.left.desk st)) := by
  obtain ⟨earlier, later, rfl, hearlier, hhonest, -⟩ := play_split hplay
  obtain ⟨step, found, r, left⟩ := p
  obtain rfl : step = .use name action := haction
  have hperform : Step.perform b.watched (.use name action) found = (r, left) := hhonest
  have hunfinished : (∀ x, r ≠ .done x) → left.memos = found.memos := memos_of_unfinished hperform
  refine ⟨use_unwatched hperform, hunfinished, fun st page hst hpage => ?_⟩
  refine ⟨fun x hx => ?_, fun bindings hbindings hstream => ?_⟩
  · obtain rfl : r = .done x := hx
    obtain ⟨t, rfl, hdealt⟩ := dealt_of_done hperform hst hpage
    refine ⟨t, rfl, ?_⟩
    cases hdealt with
    | fetched hfetched _ => exact .inl hfetched
    | stored hstores => exact .inl hstores.fetched
    | @recalled n key expires hrecalls _ =>
      have hearlierTurns : ∀ turn ∈ earlier, Turn.Sparing turn := fun turn hturn =>
        hturns turn (List.mem_append_left _ hturn)
      exact .inr ⟨n, key, expires, hrecalls, storedBefore_of_empty hearlierTurns hempty hearlier hrecalls.found⟩
  · have hdone (x : Step.Result (Watched σ)) (hx : r = .done x) :
        Statement.Fetched (found.desk st) (left.desk st) ∧ left.memos = found.memos := by
      obtain rfl := hx
      obtain ⟨t, -, hdealt⟩ := dealt_of_done hperform hst hpage
      exact hdealt.of_stream hbindings hstream
    refine ⟨?_, fun x hx => (hdone x hx).1⟩
    by_cases hended : ∃ x, r = .done x
    · obtain ⟨x, hx⟩ := hended
      exact (hdone x hx).2
    · exact hunfinished (not_exists.1 hended)

/-- Two statements of the same text share a memo, and the database has rows for one execution only. -/
def sharedBench : Workbench (Watched Script) :=
  let template : Template := ⟨"SELECT k FROM t", '\\', "SELECT k FROM t".toList.map .sql⟩
  let st : Statement := { Statement.ofTemplate .sqlite template none with memo := some ⟨0, none⟩ }
  { line := freshLine .default (Script.empty.push ⟨0, .rows ["k"] [[.integer 1]] none⟩)
    memos := [⟨2, 60000, [], [], false⟩]
    statements := [("a", st), ("b", st)]
    cursors := []
    catalog := Catalog.empty '\\' }

def sharedTurns : List (Turn Script) :=
  [.act (.use "a" .retrieve), .act (.pass 1000), .act (.use "b" .retrieve)]

/-- The second statement is given the table that the first one got. -/
theorem retrievals_sound_of_shared : ∃ q x p last t n key expires,
    play (Step.perform Script.streaming.watched) sharedTurns sharedBench = ([q, x, p], last) ∧
    p.left.line.world.link.seen.length = p.found.line.world.link.seen.length ∧
    p.outcome = .done (.used (.table t)) ∧ StoredBefore n key ⟨t, expires⟩ [q, x] := by
  obtain ⟨q, x, p, last, hplay, haction, hstatement, ⟨r, hr⟩, hseen⟩ : ∃ q x p last,
      play (Step.perform Script.streaming.watched) sharedTurns sharedBench = ([q, x, p], last) ∧
      p.action = .use "b" .retrieve ∧ (p.found.statements.get? "b").isSome = true ∧
      (∃ r, p.outcome = .done r) ∧
      p.left.line.world.link.seen.length = p.found.line.world.link.seen.length :=
    ⟨_, _, _, _, rfl, rfl, by decide +kernel, by decide +kernel, by decide +kernel⟩
  obtain ⟨st, hst⟩ := Option.isSome_iff_exists.1 hstatement
  have hturns : ∀ turn ∈ sharedTurns, turn.Sparing := by
    simp only [sharedTurns, List.forall_mem_cons]
    exact ⟨rfl, rfl, rfl, List.forall_mem_nil _⟩
  have hempty : ∀ m ∈ sharedBench.memos, m.entries = [] := List.forall_mem_singleton.2 rfl
  have hsplit : play (Step.perform Script.streaming.watched) sharedTurns sharedBench = ([q, x] ++ p :: [], last) :=
    hplay
  obtain ⟨-, -, hretrieval⟩ := retrievals_sound Script.streaming hturns hempty hsplit haction
  obtain ⟨t, rfl, hsource⟩ := (hretrieval st st.page hst rfl).1 r hr
  rcases hsource with ⟨calls, hcalls, handle, now, hmem⟩ | ⟨n, key, expires, -, hstored⟩
  · -- nothing was asked of the database
    have hcalls : p.left.line.world.link.seen = p.found.line.world.link.seen ++ calls := hcalls
    rw [hcalls, List.length_append] at hseen
    obtain rfl : calls = [] := List.length_eq_zero_iff.1 (by omega)
    cases hmem
  · exact ⟨q, x, p, last, t, n, key, expires, hplay, hseen, hr, hstored⟩

end Workbench

end NamedSql
