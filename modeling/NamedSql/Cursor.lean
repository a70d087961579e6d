import NamedSql.Session
import NamedSql.Table

/-!
# Cursors

The rows of one execution, read one at a time: some are skipped first, and no more than a limit are
given out. After its end or a failure a cursor gives nothing and reads nothing.
-/

namespace NamedSql

structure Cursor where
  feed : Feed
  columns : Columns
  vendor : Vendor
  sql : String
  skip : UInt64
  remaining : Option UInt64
  finished : Bool
deriving Repr

namespace Cursor

def ofFeed (feed : Feed) (vendor : Vendor) (sql : String) (skip : UInt64)
    (limit : Option UInt64) : Cursor :=
  ⟨feed, Columns.ofNames feed.columns, vendor, sql, skip, limit, false⟩

/-- A cursor without rows. -/
def empty (vendor : Vendor) : Cursor :=
  ofFeed Feed.empty vendor "" 0 none

variable {σ : Type} (b : Backend σ)

/-- Work with a cursor on a connection. -/
abbrev Reading (σ α : Type) := Flow Failure (Cursor × World σ) α

/-- The connection behind a cursor, as a part of both. -/
def worldPart : Part (Cursor × World σ) (World σ) :=
  ⟨Prod.snd, fun w s => (s.1, w)⟩

def cursor : Reading σ Cursor :=
  Flow.read Prod.fst

def modifyCursor (f : Cursor → Cursor) : Reading σ Unit :=
  Flow.modify fun s => (f s.1, s.2)

/-- The next row of the feed. Its end and its failures finish the cursor. -/
def readRow : Reading σ (Option Row) := do
  let c ← cursor
  match ← Flow.within worldPart (b.nextRow c.feed).attempt with
  | .ok (row, feed) => do
    modifyCursor fun c => { c with feed, finished := row.isNone }
    pure row
  | .error fault => do
    modifyCursor fun c => { c with finished := true }
    Flow.fail (c.vendor.failure c.sql none fault)

/-- Skips up to `count` rows, and tells whether there were so many. -/
def skipRows : (count : Nat) → Reading σ Bool
  | 0 => pure true
  | count + 1 => do
    match ← readRow b with
    | none => pure false
    | some _ => do
      modifyCursor fun c => { c with skip := c.skip - 1 }
      skipRows count

/-- The next row of the cursor's window. -/
def nextRow : Reading σ (Option Row) := do
  let c ← cursor
  if c.finished || c.remaining == some 0 then pure none
  else if ← skipRows b c.skip.toNat then
    match ← readRow b with
    | none => pure none
    | some row => do
      modifyCursor fun c => { c with remaining := c.remaining.map (· - 1) }
      pure (some row)
  else
    pure none

/-- Up to `count` further rows. -/
def readRows : (count : Nat) → Reading σ (List Row)
  | 0 => pure []
  | count + 1 => do
    match ← nextRow b with
    | none => pure []
    | some row => do
      let rows ← readRows count
      pure (row :: rows)

/-- All further rows; there are no more than the feed holds, and reading on finds its end. -/
def readAll : Reading σ Table := do
  let c ← cursor
  let rows ← readRows b (c.feed.rows.length + 1)
  pure ⟨c.columns, rows⟩

/-- Work with a cursor on a line; gives the cursor and the line as the work leaves them. -/
def use {α : Type} (c : Cursor) (m : Reading σ α) (l : Line σ) :
    Outcome Failure α × Cursor × Line σ :=
  match m (c, l.world) with
  | (r, c, world) => (r, c, { l with world })

end Cursor

end NamedSql
