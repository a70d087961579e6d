import NamedSql.Catalog
import NamedSql.Roster
import NamedSql.Statement.Operations

/-!
# Workbenches

A session together with all that is used on it: the statements and the cursors under their names, the
memos by number, and a catalog.
-/

namespace NamedSql

structure Workbench (σ : Type) where
  line : Line σ
  memos : List Memo
  statements : Roster Statement
  cursors : Roster Cursor
  catalog : Catalog

/-- Work on a workbench. -/
abbrev Job (σ α : Type) := Flow Failure (Workbench σ) α

namespace Workbench

variable {σ α : Type} (b : Backend σ)

def start (line : Line σ) (memos : List Memo) : Workbench σ :=
  ⟨line, memos, [], [], Catalog.empty line.session.settings.escape⟩

/-! ### Parts -/

def linePart : Part (Workbench σ) (Line σ) :=
  ⟨Workbench.line, fun l w => { w with line := l }⟩

def onLine (d : Dialog σ α) : Job σ α :=
  Flow.within linePart d

/-- The desk on which a statement of the workbench lies. -/
def desk (w : Workbench σ) (st : Statement) : Desk σ :=
  ⟨st, w.memos, w.line⟩

/-- The workbench after work on a desk, whose statement may be one that is not entered. -/
def noteDesk (w : Workbench σ) (d : Desk σ) : Workbench σ :=
  { w with memos := d.memos, line := d.line }

/-! ### Statements -/

/-- Work with the statement of a name, which is entered as the work leaves it, however that ends. A
name without a statement counts as closed. -/
def useStatement (name : String) (m : Work σ α) : Job σ α := fun w =>
  match w.statements.get? name with
  | none => (.failed (.state (.statementClosed name)), w)
  | some st =>
    match m (w.desk st) with
    | (r, d) => (r, { w.noteDesk d with statements := w.statements.put name d.statement })

/-- Gives up the statement of a name, if there is one. -/
def dropStatement (name : String) : Job σ Unit := fun w =>
  match w.statements.get? name with
  | none => (.done (), w)
  | some st =>
    match Statement.drop b (w.desk st) with
    | (r, d) => (r, { w.noteDesk d with statements := w.statements.erase name })

/-- Makes a statement of a template and enters it, with its properties set by `equip`. One that had
the name is given up after the new one is there. -/
def addStatement (name : String) (template : Template) (page : Option Page)
    (equip : Statement → Statement) : Job σ Statement := do
  let st ← onLine (Statement.create b template page)
  let st := equip st
  dropStatement b name
  Flow.modify fun w => { w with statements := w.statements.put name st }
  pure st

/-- The template of a text under the settings of the session. -/
def parse (source : String) : Job σ Template := do
  let s ← onLine Dialog.session
  Flow.ofExcept (s.settings.parse source)

/-! ### The catalog -/

/-- Takes in a resource; gives the number of its statements. -/
def loadResource (resource text : String) : Job σ Nat := do
  let catalog ← Flow.read Workbench.catalog
  let (count, catalog) ← Flow.ofExcept (catalog.load resource text)
  Flow.modify fun w => { w with catalog }
  pure count

/-- Makes a statement of one in the catalog, labelled by its full name. -/
def addFromCatalog (name resource statement : String) (page : Option Page)
    (equip : Statement → Statement) : Job σ Statement := do
  let catalog ← Flow.read Workbench.catalog
  let template ← Flow.ofExcept (catalog.template resource statement)
  addStatement b name template page fun st =>
    equip { st with label := Catalog.fullName resource statement }

/-! ### Cursors -/

/-- Opens a cursor over the rows of a statement. -/
def openCursor (name cursor : String) : Job σ Cursor := do
  let c ← useStatement name (Statement.query b)
  Flow.modify fun w => { w with cursors := w.cursors.put cursor c }
  pure c

/-- Work with the cursor of a name, which is entered as the work leaves it, however that ends. A name
without a cursor gives an empty one. -/
def useCursor (name : String) (m : Cursor.Reading σ α) : Job σ α := fun w =>
  let c := (w.cursors.get? name).getD (Cursor.empty w.line.session.vendor)
  match c.use m w.line with
  | (r, c, line) => (r, { w with line, cursors := w.cursors.put name c })

/-- The next row of a cursor. -/
def nextRow (cursor : String) : Job σ (Option Row) :=
  useCursor cursor (Cursor.nextRow b)

/-- The rows that a cursor still has; it is gone then. -/
def drain (cursor : String) : Job σ Table := do
  let result ← (useCursor cursor (Cursor.readAll b)).attempt
  Flow.modify fun w => { w with cursors := w.cursors.erase cursor }
  Flow.ofExcept result

/-! ### Memos -/

/-- Work with a memo by its number; without one nothing is done. -/
def useMemo (n : Nat) (f : Instant → Memo → Except Failure (α × Memo)) : Job σ (Option α) := do
  let now ← onLine Dialog.now
  match (← Flow.read Workbench.memos)[n]? with
  | none => pure none
  | some memo =>
    let (a, memo) ← Flow.ofExcept (f now memo)
    Flow.modify fun w => { w with memos := w.memos.set n memo }
    pure (some a)

/-! ### Transactions and the end -/

/-- A job within a transaction, committed if it succeeds and rolled back if it fails. -/
def inTransaction (seconds : Option Int) (body : Job σ α) : Job σ α :=
  Session.withTransaction b linePart seconds body

/-- Gives up the statements of names. -/
def dropStatements : List String → Job σ Unit
  | [] => pure ()
  | name :: rest => do
    dropStatement b name
    dropStatements rest

/-- Gives up everything: the cursors, the statements in the order of their names, and the session. -/
def drop : Job σ Unit := do
  Flow.modify fun w => { w with cursors := [] }
  let names ← Flow.read fun w => w.statements.names
  dropStatements b names
  onLine (Session.drop b)

end Workbench

end NamedSql
