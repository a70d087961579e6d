import NamedSql.Cursor
import NamedSql.Hook
import NamedSql.Memo
import NamedSql.Template.Filling

/-!
# Statements

A statement is a template with its bindings on a session, to be executed any number of times until it
is closed. It holds at most one handle, which is prepared anew when the SQL changes. Every execution
fills the template first, then looks at the time limit, and calls the database last.
-/

namespace NamedSql

/-- How the page of a statement is cut out. -/
inductive Paging where
  | none
  | inSql
  | byClient
deriving DecidableEq, Repr

/-- The memo of a statement, by its number, and the lifetime of what is stored there. -/
structure MemoUse where
  memo : Nat
  lifetime : Option Int
deriving DecidableEq, Repr

structure Statement where
  template : Template
  label : String
  page : Option Page
  paging : Paging
  handle : Option (Nat × String)
  bindings : Bindings
  batch : List Filled
  hooks : List Hook
  memo : Option MemoUse
  closed : Bool

/-- The kinds of executions in the record. -/
inductive Activity where
  | retrieve
  | query
  | update
  | batch
  | count
deriving DecidableEq, Repr

def Activity.name : Activity → String
  | retrieve => "retrieve"
  | query => "query"
  | update => "update"
  | batch => "batch"
  | count => "count"

/-- A statement with the memos and the line that it works on. -/
structure Desk (σ : Type) where
  statement : Statement
  memos : List Memo
  line : Line σ

/-- Work with a statement. -/
abbrev Work (σ α : Type) := Flow Failure (Desk σ) α

namespace Desk

variable {σ : Type}

def linePart : Part (Desk σ) (Line σ) :=
  ⟨Desk.line, fun l d => { d with line := l }⟩

def memosPart : Part (Desk σ) (List Memo) :=
  ⟨Desk.memos, fun m d => { d with memos := m }⟩

end Desk

namespace Statement

/-! ### Properties -/

def pagingOf (vendor : Vendor) (page : Option Page) : Paging :=
  match page with
  | none => .none
  | some _ => if vendor.pagesInSql then .inSql else .byClient

/-- A statement that has no handle yet. -/
def ofTemplate (vendor : Vendor) (template : Template) (page : Option Page) : Statement where
  template
  label := template.source
  page
  paging := pagingOf vendor page
  handle := none
  bindings := Bindings.empty
  batch := []
  hooks := []
  memo := none
  closed := false

/-- The SQL that is executed for the SQL of a filled template. -/
def executableSql (st : Statement) (vendor : Vendor) (sql : String) : String :=
  match st.page, st.paging with
  | some page, .inSql => vendor.pageSql sql page
  | _, _ => sql

/-- The window of an execution. -/
def window (st : Statement) : Window :=
  match st.page, st.paging with
  | some page, .inSql => Window.ofSql page
  | some page, .byClient => Window.ofClient page
  | _, _ => Window.all

section

variable {σ : Type}

def statement : Work σ Statement :=
  Flow.read Desk.statement

def modifyStatement (f : Statement → Statement) : Work σ Unit :=
  Flow.modify fun d => { d with statement := f d.statement }

/-- Work on the session of the statement. -/
def onLine {α : Type} (m : Dialog σ α) : Work σ α :=
  Flow.within Desk.linePart m

def session : Work σ Session :=
  onLine Dialog.session

def checkOpen : Work σ Unit := do
  let st ← statement
  Flow.require (!st.closed) (.state (.statementClosed st.label))

/-! ### Bindings -/

def bind (key : Key) (p : Param) : Work σ Unit := do
  checkOpen
  modifyStatement fun st => { st with bindings := st.bindings.insert key p }

def bindAll (other : Bindings) : Work σ Unit := do
  checkOpen
  modifyStatement fun st => { st with bindings := st.bindings.union other }

def clearBindings : Work σ Unit :=
  modifyStatement fun st => { st with bindings := Bindings.empty }

/-- The bindings after the hooks, and the template filled with them. -/
def resolve : Work σ (Bindings × Filled) := do
  let st ← statement
  let now ← onLine Dialog.now
  let bindings ← Flow.ofOutcome (Hook.applyAll now st.hooks st.bindings)
  let filled ← Flow.ofExcept (st.template.fill bindings)
  pure (bindings, filled)

/-- Values as the database gets them. -/
def boundValues (vendor : Vendor) (values : List Value) : Except Failure (List Value) :=
  values.mapM vendor.toBound

end

end Statement

end NamedSql
