import NamedSql.Memo.Action
import NamedSql.Statement.Action
import NamedSql.Workbench

/-!
# Steps on workbenches

A step is anything that can be done on a workbench, as data; a transaction is a step that holds the
steps of its body. Running steps leaves a trace: the outcome of each, and the workbench as it was
around it.
-/

namespace NamedSql

/-- What is set on a new statement: a label of its own, a memo, and hooks. -/
structure Equipment where
  label : Option String
  memo : Option MemoUse
  hooks : List Hook

def Equipment.apply (e : Equipment) (st : Statement) : Statement :=
  { st with label := e.label.getD st.label, memo := e.memo, hooks := e.hooks }

inductive Step (σ : Type) where
  /-- Nothing is done. -/
  | look
  /-- The step fails for a reason that was known before. -/
  | refuse (cause : Failure)
  | addStatement (name sql : String) (page : Option PageRequest) (equipment : Equipment)
  | addFromCatalog (name resource statement : String) (page : Option PageRequest)
      (equipment : Equipment)
  | dropStatement (name : String)
  | use (statement : String) (action : Statement.Action)
  | openCursor (statement cursor : String)
  | nextRow (cursor : String)
  | drain (cursor : String)
  | parse (sql : String)
  | load (resource text : String)
  | pass (millis : Int)
  | setClock (millis : Int)
  /-- Something happens to the connection from outside. -/
  | change (f : σ → σ)
  | memo (n : Nat) (action : Memo.Action)
  | begin (seconds : Option Int)
  | expiry
  | commit
  | rollback
  | ping
  | nextValue (sequence : String)
  | terminate
  | transaction (seconds : Option Int) (body : List (Step σ))

namespace Step

/-- What became of a step with results `ρ`: how it ended, and the workbench as the step found it, as
it was when the trace was entered last, and as the step left it. -/
structure Record (σ ρ : Type) where
  outcome : Outcome Failure ρ
  found : Workbench σ
  entered : Workbench σ
  left : Workbench σ

/-- What a step gives. Terminating never fails but tells what failed; so does a transaction, which has
the trace of its body. -/
inductive Result (σ : Type) where
  | nothing
  | statement (st : Statement)
  | used (r : Statement.Result)
  | columns (names : List String)
  | row (r : Option Row)
  | table (t : Table)
  | template (t : Template)
  | number (n : Int)
  | expiry (t : Option Instant)
  | memo (r : Memo.Result)
  | terminated (cause : Option Failure)
  | transaction (body : List (Record σ (Result σ))) (cause : Option Failure)

/-- The records of steps. -/
abbrev Trace (σ : Type) := List (Record σ (Result σ))

/-- A workbench with the trace of the body that is running, and the workbench as it was when a trace
was entered last. -/
structure Scene (σ : Type) where
  bench : Workbench σ
  trace : Trace σ
  entered : Workbench σ

abbrev Play (σ α : Type) := Flow Failure (Scene σ) α

variable {σ α : Type} (b : Backend σ)

def benchPart : Part (Scene σ) (Workbench σ) :=
  ⟨Scene.bench, fun w s => { s with bench := w }⟩

def linePart : Part (Scene σ) (Line σ) :=
  ⟨fun s => s.bench.line, fun l s => { s with bench := { s.bench with line := l } }⟩

/-- A memo and the clock as a part. -/
def memoPart (n : Nat) (memo : Memo) : Part (Workbench σ) Memo.Timed where
  get w := ⟨memo, w.line.world.now⟩
  set m w :=
    { w with
      memos := w.memos.set n m.memo
      line := { w.line with world := { w.line.world with now := m.now } } }

/-- The failure, if there was one. -/
def cause? (r : Except Failure α) : Option Failure :=
  match r with
  | .ok _ => none
  | .error e => some e

/-- The page that a request asks for, if there is one. -/
def page? (r : Option PageRequest) : Except Failure (Option Page) :=
  match r with
  | none => .ok none
  | some r => r.page.map some

/-- Lets time pass on a workbench. -/
def passTime (millis : Int) : Job σ Unit :=
  Workbench.onLine (discard <| Dialog.call (Call.pass millis))

/-- A step without steps of its own. -/
def perform : Step σ → Job σ (Result σ)
  | look => pure .nothing
  | refuse cause => Flow.fail cause
  | addStatement name sql page equipment => do
    let page ← Flow.ofExcept (page? page)
    let template ← Workbench.parse sql
    .statement <$> Workbench.addStatement b name template page equipment.apply
  | addFromCatalog name resource statement page equipment => do
    let page ← Flow.ofExcept (page? page)
    .statement <$> Workbench.addFromCatalog b name resource statement page equipment.apply
  | dropStatement name => do
    Workbench.dropStatement b name
    pure .nothing
  | use statement action => .used <$> Workbench.useStatement statement (action.perform b)
  | openCursor statement cursor => do
    let c ← Workbench.openCursor b statement cursor
    pure (.columns c.columns.names)
  | nextRow cursor => .row <$> Workbench.nextRow b cursor
  | drain cursor => .table <$> Workbench.drain b cursor
  | parse sql => .template <$> Workbench.parse sql
  | load resource text => do
    let n ← Workbench.loadResource resource text
    pure (.number n)
  | pass millis => do
    passTime millis
    pure .nothing
  | setClock millis => do
    let now ← Workbench.onLine Dialog.now
    passTime (millis - now.millis)
    pure .nothing
  | change f => do
    Workbench.onLine (discard <| Dialog.call (Call.modifyLink f))
    pure .nothing
  | memo n action => do
    match (← Flow.read Workbench.memos)[n]? with
    | none => pure .nothing
    | some m => .memo <$> Flow.within (memoPart n m) action.perform
  | begin seconds => do
    Workbench.onLine (Session.begin b seconds)
    pure .nothing
  | expiry => .expiry <$> Workbench.onLine Session.expiry
  | commit => do
    Workbench.onLine (Session.commit b)
    pure .nothing
  | rollback => do
    Workbench.onLine (Session.rollback b)
    pure .nothing
  | ping => do
    Workbench.onLine (Session.ping b)
    pure .nothing
  | nextValue sequence => do
    let n ← Workbench.onLine (Session.nextValue b sequence)
    pure (.number n.toInt)
  | terminate => do
    let r ← (Workbench.onLine (Session.terminate b)).attempt
    pure (.terminated (cause? r))
  | transaction _ _ => pure .nothing

mutual

/-- Runs a step. -/
def run : Step σ → Play σ (Result σ)
  | transaction seconds body => do
    let outer ← Flow.read Scene.trace
    Flow.modify fun s => { s with trace := [] }
    let r ← (Session.withTransaction b linePart seconds (runBody body)).attempt
    let trace ← Flow.read Scene.trace
    Flow.modify fun s => { s with trace := outer }
    pure (.transaction trace (cause? r))
  | step => Flow.within benchPart (step.perform b)

/-- Runs steps up to the first one that fails, and enters them in the trace. -/
def runBody : List (Step σ) → Play σ Unit
  | [] => pure ()
  | step :: rest => do
    let found ← Flow.read Scene.bench
    let r ← (run step).attempt
    Flow.modify fun s =>
      { s with trace := s.trace ++ [⟨.ofExcept r, found, s.entered, s.bench⟩], entered := s.bench }
    match r with
    | .ok _ => runBody rest
    | .error e => Flow.fail e

end

/-- Runs a step on a workbench. -/
def runOn (w : Workbench σ) (step : Step σ) : Record σ (Result σ) :=
  let (r, s) := run b step ⟨w, [], w⟩
  ⟨r, w, s.entered, s.bench⟩

/-- Runs steps one after another, whatever becomes of each. -/
def runAll (w : Workbench σ) : List (Step σ) → Trace σ
  | [] => []
  | step :: rest =>
    let r := runOn b w step
    r :: runAll r.left rest

end Step

end NamedSql
