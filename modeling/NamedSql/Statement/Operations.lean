import NamedSql.Statement.Execution

/-!
# Operations on statements

Reading all rows, a range of them, the first one, or one at a time; changing data, alone or in
batches; counting.
-/

namespace NamedSql.Statement

variable {σ : Type} (b : Backend σ)

/-! ### Reading -/

/-- Executes and reads all rows of a window. -/
def fetch (bindings : Bindings) (filled : Filled) (window : Window) : Work σ Table := do
  let c ← openCursor b .retrieve bindings filled window
  let table ← readOut c (Cursor.readAll b)
  recordEnd .retrieve (some (UInt64.ofNat table.size))
  pure table

/-- Stores a table in the memo of the statement, for the statement's lifetime or the memo's. -/
def store (use : MemoUse) (memo : Memo) (key : MemoKey) (table : Table) : Work σ Unit := do
  let now ← onLine Dialog.now
  let expires ← Flow.ofCalendar (now.add? (use.lifetime.getD memo.lifetime))
  let memo ← Flow.ofExcept (memo.put key table expires)
  Flow.within Desk.memosPart (Flow.modify fun memos => memos.set use.memo memo)

/-- The rows of a window, from the memo if it has them. They are stored under the bindings after the
hooks and the given page. -/
def fetchMemo (window : Window) (page : Option Page) : Work σ Table := do
  let st ← statement
  let (bindings, filled) ← resolve
  let memos ← Flow.read Desk.memos
  match st.memo.bind fun use => (memos[use.memo]?).map (use, ·) with
  | none => fetch b bindings filled window
  | some (use, memo) =>
    let key := MemoKey.ofPage st.label bindings page
    let now ← onLine Dialog.now
    match ← Flow.ofExcept (memo.get now key) with
    | some table =>
      onLine <| Dialog.record ⟨.debug, "cache hit",
        [("statement", .text st.label), ("rows", .number table.size)]⟩
      pure table
    | none =>
      let table ← fetch b bindings filled window
      store use memo key table
      pure table

/-- All rows of the statement's page. -/
def retrieve : Work σ Table := do
  checkOpen
  let st ← statement
  fetchMemo b st.window st.page

/-- The rows from a start position on, at most so many if the number is not zero. A statement with a
page of its own has no ranges. -/
def retrieveRange (start count : UInt64) : Work σ Table := do
  checkOpen
  let st ← statement
  Flow.require st.page.isNone (.usage (.pagedStatement st.label))
  let page ← Flow.ofExcept (Page.ofStart start (some count))
  fetchMemo b (Window.ofClient page) (some page)

/-- The first row of the statement's page, never from a memo. -/
def retrieveFirst : Work σ (Option Record) := do
  checkOpen
  let st ← statement
  let (bindings, filled) ← resolve
  let c ← openCursor b .retrieve bindings filled st.window.first
  let row ← readOut c (Cursor.nextRow b)
  recordEnd .retrieve (some (if row.isSome then 1 else 0))
  pure (row.map (⟨c.columns, ·⟩))

/-- A cursor over the statement's page, never from a memo. -/
def query : Work σ Cursor := do
  checkOpen
  let st ← statement
  let (bindings, filled) ← resolve
  let c ← openCursor b .query bindings filled st.window
  recordEnd .query none
  pure c

/-! ### Changing data -/

/-- Executes a statement that changes data; gives the number of changes, which is zero if it gave
rows. -/
def update : Work σ UInt64 := do
  checkOpen
  let (bindings, filled) ← resolve
  let (_, reply) ← run b .update bindings filled none
  let count :=
    match reply with
    | .count n => n
    | .rows _ => 0
  recordEnd .update (some count)
  pure count

/-- Takes the bindings as an entry of the batch and clears them for the next one. All entries must
have the same SQL. -/
def addBatch : Work σ Unit := do
  checkOpen
  let (_, filled) ← resolve
  let st ← statement
  match st.batch with
  | first :: _ => Flow.require (first.sql == filled.sql) (.binding (.otherText filled.sql))
  | [] => pure ()
  modifyStatement fun st =>
    { st with batch := st.batch ++ [filled], bindings := Bindings.empty }

/-- Executes the batch; gives the number of changes of each entry. If it fails the entries stay. -/
def executeBatch : Work σ (List UInt64) := do
  checkOpen
  let st ← statement
  match st.batch with
  | [] => pure []
  | first :: _ =>
    let s ← session
    let sql := st.executableSql s.vendor first.sql
    let entries ← Flow.ofExcept (st.batch.mapM fun entry => boundValues s.vendor entry.values)
    let shown ← shownParameters (toString entries.length ++ " entries")
    checkTime sql shown
    let handle ← ensureHandle b sql
    recordStart .batch sql shown none
    let counts ← callInTime b handle sql shown (b.executeBatch handle entries)
    modifyStatement fun st => { st with batch := [] }
    recordEnd .batch (some (counts.foldl (· + ·) 0))
    pure counts

/-! ### Counting -/

/-- Executes on a new handle; gives the first row. -/
def countRow (vendor : Vendor) (handle : Nat) (sql : String) (parameters : Option String)
    (values : List Value) : Work σ (Option Row) := do
  let reply ← callInTime b handle sql parameters do
    b.bindFrom handle 1 values
    b.execute handle
  match reply with
  | .rows feed => readOut (Cursor.ofFeed feed vendor sql 0 (some 1)) (Cursor.nextRow b)
  | .count _ => pure none

/-- The number that a row of a count starts with; NULL and negative numbers count as zero. -/
def countOf (row : Option Row) : Except Failure UInt64 :=
  match row with
  | none => .ok 0
  | some values =>
    match Record.readAt ⟨Columns.ofNames [], values⟩ 0 .integer with
    | .error e => .error e
    | .ok (.integer n) => .ok (UInt64.ofNat n.toInt.toNat)
    | .ok _ => .ok 0

/-- The number of rows of the statement without its page. -/
def count : Work σ UInt64 := do
  checkOpen
  let st ← statement
  let (bindings, filled) ← resolve
  let s ← session
  let values ← Flow.ofExcept (boundValues s.vendor filled.values)
  let sql := s.vendor.countSql filled.sql
  let shown ← shownParameters bindings.render
  checkTime sql shown
  let handle ← onLine (Session.openHandle b sql)
  recordStart .count sql shown none
  let counted ← (countRow b s.vendor handle sql shown values).attempt
  let closed ← (onLine (Session.release b handle sql)).attempt
  let row ← onLine <| Session.settle counted closed fun e =>
    ⟨.warn, "failed to close count statement after error",
      [("statement", .text st.label), ("error", .text e.message)]⟩
  let n ← Flow.ofExcept (countOf row)
  recordEnd .count (some n)
  pure n

end NamedSql.Statement
