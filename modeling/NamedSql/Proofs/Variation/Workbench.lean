import NamedSql.Proofs.Likeness.Workbench
import NamedSql.Proofs.Variation.Statement

/-!
# Workbenches with values that vary

Jobs on workbenches without memos, and the steps that have no steps of their own, end in the same way and record
the same events where parameters vary (`Workbench.Varies`).
-/

namespace NamedSql

open NamedSql.Flow

variable {σ τ α α' : Type} {r : σ → τ → Prop} {b : Backend σ} {c : Backend τ} {V : Variation}

theorem Roster.keyed_put {β : Type} {R : α → β → Prop} {x : Roster α} {y : Roster β} (h : Keyed R x y) (name : String)
    {a : α} {a' : β} (ha : R a a') : Keyed R (x.put name a) (y.put name a') := by
  induction h with
  | nil => exact .cons ⟨rfl, ha⟩ .nil
  | @cons e f _ _ hef hrest ih =>
    obtain ⟨other, o⟩ := e
    obtain ⟨other', o'⟩ := f
    obtain ⟨rfl, ho⟩ : other = other' ∧ R o o' := hef
    rw [Roster.put, Roster.put]
    split_ifs
    · exact .cons ⟨rfl, ha⟩ (.cons ⟨rfl, ho⟩ hrest)
    · exact .cons ⟨rfl, ha⟩ hrest
    · exact .cons ⟨rfl, ho⟩ ih

/-! ### Jobs -/

/-- Workbenches without memos whose statements vary. -/
structure Workbench.Varies (V : Variation) (r : σ → τ → Prop) (w : Workbench σ) (v : Workbench τ) : Prop where
  line : w.line.Varies V r v.line
  noMemos : w.memos = []
  noMemos' : v.memos = []
  statements : Keyed (Statement.Varies V) w.statements v.statements
  cursors : w.cursors = v.cursors
  catalog : w.catalog = v.catalog

/-- Equipment that differs in its hooks at most. -/
structure Equipment.Varies (V : Variation) (e e' : Equipment) : Prop where
  label : e.label = e'.label
  memo : e.memo = e'.memo
  hooks : List.Forall₂ (Hook.Varies V) e.hooks e'.hooks

/-- The same new statement with hooks that vary. -/
theorem Equipment.Varies.apply {e e' : Equipment} (h : e.Varies V e') (st : Statement) :
    (e.apply st).Varies V (e'.apply st) where
  template := rfl
  label := congrArg (fun label : Option String => label.getD st.label) h.label
  page := rfl
  paging := rfl
  handle := rfl
  memo := h.memo
  closed := rfl
  bindings := .refl st.bindings
  batch := List.forall₂_same.2 fun _ _ => ⟨rfl, List.forall₂_same.2 fun v _ => V.refl v⟩
  hooks := h.hooks

namespace Workbench

theorem Varies.desk {w : Workbench σ} {v : Workbench τ} (h : w.Varies V r v) {st st' : Statement}
    (hst : st.Varies V st') : (w.desk st).Varies V r (v.desk st') := ⟨hst, h.noMemos, h.noMemos', h.line⟩

theorem varies_onLine {m : Dialog σ α} {n : Dialog τ α} (h : Flow.Alike (Line.Alike r) m n)
    (hm : Dialog.Settled m) : Flow.Alike (Workbench.Varies V r) (onLine m) (onLine n) :=
  .within (Line.varies_of_settled h hm) (fun _ _ hw => hw.line) fun _ _ _ _ hw hl =>
    ⟨hl, hw.noMemos, hw.noMemos', hw.statements, hw.cursors, hw.catalog⟩

theorem varies_useStatement (name : String) {A : α → α' → Prop} {m : Work σ α} {n : Work τ α'}
    (h : Flow.Varies V (Desk.Varies V r) A m n) :
    Flow.Varies V (Workbench.Varies V r) A (useStatement name m) (useStatement name n) := by
  intro w v hw
  unfold useStatement
  have hfound := hw.statements.lookup name
  unfold Roster.get?
  generalize w.statements.lookup name = x, v.statements.lookup name = y at hfound ⊢
  cases hfound with
  | none => exact ⟨.failed (.refl _), hw⟩
  | some hst =>
    obtain ⟨hr, hd⟩ := h (hw.desk hst)
    exact ⟨hr, hd.line, hd.noMemos, hd.noMemos', Roster.keyed_put hw.statements name hd.statement, hw.cursors,
      hw.catalog⟩

theorem varies_useCursor (name : String) {m : Cursor.Reading σ α} {n : Cursor.Reading τ α}
    (h : Flow.Alike (Cursor.OnAlike r) m n) :
    Flow.Alike (Workbench.Varies V r) (useCursor name m) (useCursor name n) := by
  intro w v hw
  unfold useCursor
  rw [hw.cursors, hw.line.session]
  obtain ⟨hr, hc, hl⟩ := Cursor.use_alike h
    ((v.cursors.get? name).getD (Cursor.empty v.line.session.vendor)) hw.line.toAlike
  exact ⟨hr, ⟨hl, hw.line.masked⟩, hw.noMemos, hw.noMemos', hw.statements, congrArg (Roster.put _ name) hc, hw.catalog⟩

theorem varies_putStatement (name : String) {st st' : Statement} (hst : st.Varies V st') :
    Flow.Alike (Workbench.Varies V r)
      (Flow.modify fun w => { w with statements := w.statements.put name st } : Job σ _)
      (Flow.modify fun w => { w with statements := w.statements.put name st' }) :=
  .modify fun _ _ h => ⟨h.line, h.noMemos, h.noMemos', Roster.keyed_put h.statements name hst, h.cursors, h.catalog⟩

theorem varies_modifyCursors (f : Roster Cursor → Roster Cursor) :
    Flow.Alike (Workbench.Varies V r) (Flow.modify fun w => { w with cursors := f w.cursors } : Job σ _)
      (Flow.modify fun w => { w with cursors := f w.cursors }) :=
  .modify fun _ _ h => ⟨h.line, h.noMemos, h.noMemos', h.statements, congrArg f h.cursors, h.catalog⟩

theorem varies_parse (source : String) : Flow.Alike (Workbench.Varies V r) (parse source) (parse source) :=
  (varies_onLine Dialog.alike_session (.read _)).bind fun _ => .ofExcept _

theorem varies_catalog :
    Flow.Alike (Workbench.Varies V r) (Flow.read Workbench.catalog : Job σ _) (Flow.read Workbench.catalog) :=
  .read fun _ _ h => h.catalog

theorem varies_loadResource (resource text : String) :
    Flow.Alike (Workbench.Varies V r) (loadResource resource text) (loadResource resource text) :=
  varies_catalog.bind fun _ => (Flow.Alike.ofExcept _).bind fun _ =>
    (Flow.Alike.modify fun _ _ h => ⟨h.line, h.noMemos, h.noMemos', h.statements, h.cursors, rfl⟩).bind fun _ =>
      .pure _

variable (h : b.Blind V r c)
include h

theorem varies_dropStatement (name : String) :
    Flow.Alike (Workbench.Varies V r) (dropStatement b name) (dropStatement c name) := by
  intro w v hw
  unfold dropStatement
  have hfound := hw.statements.lookup name
  unfold Roster.get?
  generalize w.statements.lookup name = x, v.statements.lookup name = y at hfound ⊢
  cases hfound with
  | none => exact ⟨rfl, hw⟩
  | some hst =>
    obtain ⟨hr, hd⟩ := Statement.varies_drop h (hw.desk hst)
    exact ⟨hr, hd.line, hd.noMemos, hd.noMemos', hw.statements.filter (· != name), hw.cursors, hw.catalog⟩

theorem varies_addStatement (name : String) (template : Template) (page : Option Page)
    {equip equip' : Statement → Statement} (hequip : ∀ st, (equip st).Varies V (equip' st)) :
    Flow.Varies V (Workbench.Varies V r) (Statement.Varies V) (addStatement b name template page equip)
      (addStatement c name template page equip') :=
  (varies_onLine (Statement.alike_create h.toAlike template page) (Statement.settled_create b template page)).thenVaries
    fun st => (varies_dropStatement h name).thenVaries fun _ =>
      (varies_putStatement name (hequip st)).thenVaries fun _ => .pure (hequip st)

theorem varies_addFromCatalog (name resource statement : String) (page : Option Page)
    {equip equip' : Statement → Statement} (hequip : ∀ st, (equip st).Varies V (equip' st)) :
    Flow.Varies V (Workbench.Varies V r) (Statement.Varies V)
      (addFromCatalog b name resource statement page equip) (addFromCatalog c name resource statement page equip') :=
  varies_catalog.thenVaries fun _ => (Flow.Alike.ofExcept _).thenVaries fun _ =>
    varies_addStatement h name _ page fun _ => hequip _

theorem varies_openCursor (name cursor : String) :
    Flow.Varies V (Workbench.Varies V r) Eq (openCursor b name cursor) (openCursor c name cursor) := by
  refine (varies_useStatement name (Statement.varies_query h)).bind ?_
  rintro cur _ rfl
  exact ((varies_modifyCursors (·.put cursor cur)).bind fun _ => .pure _).varies

theorem varies_drain (cursor : String) :
    Flow.Alike (Workbench.Varies V r) (drain b cursor) (drain c cursor) :=
  (varies_useCursor cursor (Cursor.alike_readAll h.toAlike)).attempt.bind fun _ =>
    (varies_modifyCursors (·.erase cursor)).bind fun _ => .ofExcept _

theorem varies_dropStatements (names : List String) :
    Flow.Alike (Workbench.Varies V r) (dropStatements b names) (dropStatements c names) := by
  induction names with
  | nil => exact .pure _
  | cons name rest ih => exact (varies_dropStatement h name).bind fun _ => ih

theorem varies_drop : Flow.Alike (Workbench.Varies V r) (drop b) (drop c) := by
  refine (varies_modifyCursors fun _ => []).bind fun _ => ?_
  refine (Flow.Alike.read fun _ _ hw => hw.statements.keys).bind fun names => ?_
  exact (varies_dropStatements h names).bind fun _ =>
    varies_onLine (Session.alike_drop h.toAlike) (Session.settled_drop b)

end Workbench

end NamedSql
