import NamedSql.Statement

/-!
# Executing statements

What all executions share: the handle, the time limit before and after the call on the database, and
the record of start and end.
-/

namespace NamedSql.Statement

variable {σ : Type} (b : Backend σ)

/-! ### Handles -/

/-- Prepares a SQL text and holds its handle. -/
def prepareFor (sql : String) : Work σ Nat := do
  let handle ← onLine (Session.openHandle b sql)
  modifyStatement fun st => { st with handle := some (handle, sql) }
  pure handle

/-- The handle for a SQL text. One for another text is released first. -/
def ensureHandle (sql : String) : Work σ Nat := do
  match (← statement).handle with
  | some (handle, prepared) =>
    if prepared == sql then pure handle
    else do
      modifyStatement fun st => { st with handle := none }
      onLine (Session.release b handle prepared)
      prepareFor b sql
  | none => prepareFor b sql

/-- Prepares a new statement, unless its SQL depends on the bindings. -/
def prepareNew : Work σ Unit := do
  let st ← statement
  let s ← session
  if !st.template.hasSequences then
    discard <| ensureHandle b (st.executableSql s.vendor st.template.sql)

/-- A statement of a template on an open session. -/
def create (template : Template) (page : Option Page) : Dialog σ Statement := do
  Session.checkOpen
  let s ← Dialog.session
  fun l =>
    match prepareNew b ⟨ofTemplate s.vendor template page, [], l⟩ with
    | (r, d) => (r.map fun () => d.statement, d.line)

/-- Closes the statement: its bindings and its batch are given up and its handle is released. -/
def close : Work σ Unit := do
  let st ← statement
  if !st.closed then
    modifyStatement fun st =>
      { st with closed := true, bindings := Bindings.empty, batch := [], handle := none }
    match st.handle with
    | some (handle, sql) => onLine (Session.release b handle sql)
    | none => pure ()

/-- Closes a statement that is given up; a failure is only recorded. -/
def drop : Work σ Unit := do
  match ← (close b).attempt with
  | .ok () => pure ()
  | .error e =>
    let st ← statement
    onLine <| Dialog.record ⟨.warn, "failed to close statement",
      [("statement", .text st.label), ("error", .text e.message)]⟩

/-! ### Time limits -/

/-- The time that the running transaction has left. -/
def budget : Work σ TimeLimit.Budget := do
  let s ← session
  let now ← onLine Dialog.now
  Flow.ofCalendar (TimeLimit.budget? s.timeLimit now)

/-- Fails if no time is left. -/
def checkTime (sql : String) (parameters : Option String) : Work σ Unit := do
  match ← budget with
  | .exhausted => Flow.fail (.timeout ⟨sql, parameters, none⟩)
  | _ => pure ()

/-- Bounds the time of a statement by what is left, if that is bounded. -/
def limitTime (handle : Nat) : TimeLimit.Budget → Call σ Unit
  | .left millis =>
    Call.modifyLink fun l =>
      b.limitTime handle (some (TimeLimit.tighten (b.timeout handle l) millis)) l
  | _ => pure ()

/-- A call on the statement's handle within the time that is left. When the time is over afterwards,
success and the database's own timeouts are timeouts, and other errors stay what they are. -/
def callInTime {α : Type} (handle : Nat) (sql : String) (parameters : Option String)
    (c : Call σ α) : Work σ α := do
  let s ← session
  let before ← budget
  if before = .exhausted then
    Flow.fail (.timeout ⟨sql, parameters, none⟩)
  else
    let result ← onLine <| Session.withHandle handle do
      limitTime b handle before
      c
    let late := (← budget) = .exhausted
    match result with
    | .ok a => if late then Flow.fail (.timeout ⟨sql, parameters, none⟩) else pure a
    | .error fault =>
      if late && s.vendor.isTimeout fault then
        Flow.fail (.timeout ⟨sql, parameters, some fault⟩)
      else
        Flow.fail (s.vendor.failure sql parameters fault)

/-! ### The record -/

/-- The parameters as failures and events show them, if the settings allow it. -/
def shownParameters (text : String) : Work σ (Option String) := do
  let s ← session
  pure (if s.settings.logParameters then some text else none)

/-- Records the start of an execution, with its window if it has one. -/
def recordStart (activity : Activity) (sql : String) (parameters : Option String)
    (window : Option Window) : Work σ Unit := do
  let st ← statement
  let number (n : UInt64) : Detail := .number n.toNat
  onLine <| Dialog.record ⟨.debug, "statement start",
    [("kind", .text activity.name), ("statement", .text st.label), ("sql", .text sql)]
      ++ Event.detail? "params" (parameters.map .text)
      ++ Event.detail? "offset" (window.map fun w => number w.skip)
      ++ Event.detail? "limit" ((window.bind Window.limit).map number)⟩

/-- Records the end of an execution that succeeded. -/
def recordEnd (activity : Activity) (count : Option UInt64) : Work σ Unit :=
  onLine <| Dialog.record ⟨.debug, "statement end",
    ("kind", .text activity.name)
      :: Event.detail? "count" (count.map fun n => .number n.toNat)⟩

/-! ### Calls -/

/-- Binds the values of one execution in place of all former ones, and executes. -/
def execute (handle : Nat) (values : List Value) (maxRows : Option UInt64) : Call σ Reply := do
  Call.modifyLink (b.clearBindings handle)
  b.bindFrom handle 1 values
  Call.modifyLink (b.limitRows handle maxRows)
  b.execute handle

/-- Executes a filled template; gives the SQL and what came of it. -/
def run (activity : Activity) (bindings : Bindings) (filled : Filled) (window : Option Window) :
    Work σ (String × Reply) := do
  let st ← statement
  let s ← session
  let values ← Flow.ofExcept (boundValues s.vendor filled.values)
  let sql := st.executableSql s.vendor filled.sql
  let shown ← shownParameters bindings.render
  checkTime sql shown
  let handle ← ensureHandle b sql
  recordStart activity sql shown window
  let reply ← callInTime b handle sql shown
    (execute b handle values (window.bind Window.maxRows))
  pure (sql, reply)

/-- Work with a cursor that is not used any more. -/
def readOut {α : Type} (c : Cursor) (m : Cursor.Reading σ α) : Work σ α := fun d =>
  match c.use m d.line with
  | (r, _, line) => (r, { d with line })

/-- Executes a filled template; gives a cursor over the window. -/
def openCursor (activity : Activity) (bindings : Bindings) (filled : Filled) (window : Window) :
    Work σ Cursor := do
  let s ← session
  let (sql, reply) ← run b activity bindings filled (some window)
  let feed :=
    match reply with
    | .rows feed => feed
    | .count _ => Feed.empty
  pure (Cursor.ofFeed feed s.vendor sql window.skip window.limit)

end NamedSql.Statement
