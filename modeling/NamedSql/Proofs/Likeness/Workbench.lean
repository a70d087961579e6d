import NamedSql.Workbench.Step
import NamedSql.Proofs.Likeness.Statement

/-!
# Workbenches on databases that are alike

Jobs on workbenches, and the steps that have no steps of their own, end in the same way on databases that
are alike.
-/

namespace NamedSql

open NamedSql.Flow

variable {σ τ α : Type} {r : σ → τ → Prop} {b : Backend σ} {c : Backend τ}

/-- Workbenches with the same things on lines that are alike. -/
structure Workbench.Alike (r : σ → τ → Prop) (w : Workbench σ) (v : Workbench τ) : Prop where
  line : w.line.Alike r v.line
  memos : w.memos = v.memos
  statements : w.statements = v.statements
  cursors : w.cursors = v.cursors
  catalog : w.catalog = v.catalog

namespace Workbench

theorem Alike.desk {w : Workbench σ} {v : Workbench τ} (h : w.Alike r v) (st : Statement) :
    (w.desk st).Alike r (v.desk st) := ⟨rfl, h.memos, h.line⟩

theorem alike_onLine {m : Dialog σ α} {n : Dialog τ α} (h : Flow.Alike (Line.Alike r) m n) :
    Flow.Alike (Workbench.Alike r) (onLine m) (onLine n) :=
  .within h (fun _ _ hw => hw.line) fun _ _ _ _ hw hl => ⟨hl, hw.memos, hw.statements, hw.cursors, hw.catalog⟩

theorem alike_useStatement (name : String) {m : Work σ α} {n : Work τ α} (h : Flow.Alike (Desk.Alike r) m n) :
    Flow.Alike (Workbench.Alike r) (useStatement name m) (useStatement name n) := by
  intro w v hw
  unfold useStatement
  rw [hw.statements]
  cases v.statements.get? name with
  | none => exact ⟨rfl, hw⟩
  | some st =>
    obtain ⟨hr, hd⟩ := h (hw.desk st)
    exact ⟨hr, hd.line, hd.memos, congrArg (Roster.put _ name) hd.statement, hw.cursors, hw.catalog⟩

theorem alike_useCursor (name : String) {m : Cursor.Reading σ α} {n : Cursor.Reading τ α}
    (h : Flow.Alike (Cursor.OnAlike r) m n) :
    Flow.Alike (Workbench.Alike r) (useCursor name m) (useCursor name n) := by
  intro w v hw
  unfold useCursor
  rw [hw.cursors, hw.line.session]
  obtain ⟨hr, hc, hl⟩ := Cursor.use_alike h
    ((v.cursors.get? name).getD (Cursor.empty v.line.session.vendor)) hw.line
  exact ⟨hr, hl, hw.memos, hw.statements, congrArg (Roster.put _ name) hc, hw.catalog⟩

theorem alike_putStatement (name : String) (st : Statement) :
    Flow.Alike (Workbench.Alike r)
      (Flow.modify fun w => { w with statements := w.statements.put name st } : Job σ _)
      (Flow.modify fun w => { w with statements := w.statements.put name st }) :=
  .modify fun _ _ h => ⟨h.line, h.memos, congrArg (Roster.put · name st) h.statements, h.cursors, h.catalog⟩

theorem alike_modifyCursors (f : Roster Cursor → Roster Cursor) :
    Flow.Alike (Workbench.Alike r) (Flow.modify fun w => { w with cursors := f w.cursors } : Job σ _)
      (Flow.modify fun w => { w with cursors := f w.cursors }) :=
  .modify fun _ _ h => ⟨h.line, h.memos, h.statements, congrArg f h.cursors, h.catalog⟩

theorem alike_parse (source : String) : Flow.Alike (Workbench.Alike r) (parse source) (parse source) :=
  (alike_onLine Dialog.alike_session).bind fun _ => .ofExcept _

theorem alike_catalog :
    Flow.Alike (Workbench.Alike r) (Flow.read Workbench.catalog : Job σ _) (Flow.read Workbench.catalog) :=
  .read fun _ _ h => h.catalog

theorem alike_loadResource (resource text : String) :
    Flow.Alike (Workbench.Alike r) (loadResource resource text) (loadResource resource text) :=
  alike_catalog.bind fun _ => (Flow.Alike.ofExcept _).bind fun _ =>
    (Flow.Alike.modify fun _ _ h => ⟨h.line, h.memos, h.statements, h.cursors, rfl⟩).bind fun _ => .pure _

variable (h : b.Alike r c)
include h

theorem alike_dropStatement (name : String) :
    Flow.Alike (Workbench.Alike r) (dropStatement b name) (dropStatement c name) := by
  intro w v hw
  unfold dropStatement
  rw [hw.statements]
  cases v.statements.get? name with
  | none => exact ⟨rfl, hw⟩
  | some st =>
    obtain ⟨hr, hd⟩ := Statement.alike_drop h (hw.desk st)
    exact ⟨hr, hd.line, hd.memos, rfl, hw.cursors, hw.catalog⟩

theorem alike_addStatement (name : String) (template : Template) (page : Option Page)
    (equip : Statement → Statement) :
    Flow.Alike (Workbench.Alike r) (addStatement b name template page equip)
      (addStatement c name template page equip) :=
  (alike_onLine (Statement.alike_create h template page)).bind fun _ =>
    (alike_dropStatement h name).bind fun _ => (alike_putStatement name _).bind fun _ => .pure _

theorem alike_addFromCatalog (name resource statement : String) (page : Option Page)
    (equip : Statement → Statement) :
    Flow.Alike (Workbench.Alike r) (addFromCatalog b name resource statement page equip)
      (addFromCatalog c name resource statement page equip) :=
  alike_catalog.bind fun _ => (Flow.Alike.ofExcept _).bind fun _ => alike_addStatement h _ _ _ _

theorem alike_openCursor (name cursor : String) :
    Flow.Alike (Workbench.Alike r) (openCursor b name cursor) (openCursor c name cursor) :=
  (alike_useStatement name (Statement.alike_query h)).bind fun cur =>
    (alike_modifyCursors (·.put cursor cur)).bind fun _ => .pure _

theorem alike_drain (cursor : String) : Flow.Alike (Workbench.Alike r) (drain b cursor) (drain c cursor) :=
  (alike_useCursor cursor (Cursor.alike_readAll h)).attempt.bind fun _ => (alike_modifyCursors _).bind fun _ =>
    .ofExcept _

theorem alike_dropStatements (names : List String) :
    Flow.Alike (Workbench.Alike r) (dropStatements b names) (dropStatements c names) := by
  induction names with
  | nil => exact .pure _
  | cons name rest ih => exact (alike_dropStatement h name).bind fun _ => ih

theorem alike_drop : Flow.Alike (Workbench.Alike r) (drop b) (drop c) := by
  refine (alike_modifyCursors fun _ => []).bind fun _ => ?_
  refine (Flow.Alike.read fun _ _ hw => congrArg Roster.names hw.statements).bind fun names => ?_
  exact (alike_dropStatements h names).bind fun _ => alike_onLine (Session.alike_drop h)

end Workbench

end NamedSql
