import NamedSql.Statement.Operations

/-!
# Actions on statements

Everything that can be done with a statement, as data, so that histories of a statement can be spoken
of. `Action.perform` does it.
-/

namespace NamedSql.Statement

inductive Action where
  | bind (key : Key) (p : Param)
  | bindAll (other : Bindings)
  | clearBindings
  | retrieve
  | retrieveRange (start limit : UInt64)
  | retrieveFirst
  | query
  | update
  | count
  | addBatch
  | executeBatch
  | close

/-- What an action gives. -/
inductive Result where
  | nothing
  | bindings (b : Bindings)
  | table (t : Table)
  | record (r : Option Record)
  | cursor (c : Cursor)
  | count (n : UInt64)
  | counts (ns : List UInt64)
  | pending (n : Nat)

variable {σ : Type} (b : Backend σ)

def Action.perform : Action → Work σ Result
  | bind key p => do
    Statement.bind key p
    pure (.bindings (← statement).bindings)
  | bindAll other => do
    Statement.bindAll other
    pure (.bindings (← statement).bindings)
  | clearBindings => do
    Statement.clearBindings
    pure .nothing
  | retrieve => .table <$> Statement.retrieve b
  | retrieveRange start limit => .table <$> Statement.retrieveRange b start limit
  | retrieveFirst => .record <$> Statement.retrieveFirst b
  | query => .cursor <$> Statement.query b
  | update => .count <$> Statement.update b
  | count => .count <$> Statement.count b
  | addBatch => do
    Statement.addBatch
    pure (.pending (← statement).batch.length)
  | executeBatch => .counts <$> Statement.executeBatch b
  | close => do
    Statement.close b
    pure .nothing

end NamedSql.Statement
