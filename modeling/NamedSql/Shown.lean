import NamedSql.Statement
import NamedSql.Text.Quoted

/-!
# Descriptions

How sessions, statements, cursors and replies are described to a person who looks for a fault. A
description names the fields that matter, and two points stand for the others.
-/

namespace NamedSql

namespace Shown

def text (s : String) : String :=
  String.ofList (Text.quote '"' s.toList)

def list (items : List String) : String :=
  "[" ++ String.intercalate ", " items ++ "]"

def texts (items : List String) : String :=
  list (items.map text)

def number (n : UInt64) : String :=
  toString n.toNat

def option {α : Type} (f : α → String) : Option α → String
  | some a => "Some(" ++ f a ++ ")"
  | none => "None"

/-- The name of a type with some of its fields. -/
def record (name : String) (fields : List (String × String)) (complete : Bool) : String :=
  name ++ " \x7b " ++ String.intercalate ", " (fields.map fun f => f.1 ++ ": " ++ f.2)
    ++ (if complete then " \x7d" else ", .. \x7d")

end Shown

open Shown

def Page.shown (p : Page) : String :=
  record "SelectOption"
    [("start_position", number p.start), ("limit", option number p.limit)] true

def Paging.name : Paging → String
  | .none => "None"
  | .inSql => "SqlLevel"
  | .byClient => "ClientSide"

def Converters.shown (c : Converters) : String :=
  record "AttributeConverterRegistry" [("semantic_types", texts c.names)] true

def Session.shown (s : Session) : String :=
  record "ConnectionContext"
    [("name", text s.name),
      ("dialect", s.vendor.title ++ "(" ++ s.vendor.title ++ "Dialect)"),
      ("open_handles", toString s.handles.length),
      ("terminated", Value.ofBool s.terminated)] false

/-- The description of a statement on a session. -/
def Statement.shown (st : Statement) (session : Session) : String :=
  record "StatementExecutor"
    [("context", text session.name),
      ("statement_id", text st.label),
      ("pagination", st.paging.name),
      ("select", option Page.shown st.page),
      ("pending_batch", toString st.batch.length),
      ("closed", Value.ofBool st.closed)] false

def Cursor.shown (c : Cursor) : String :=
  record "RowCursor"
    [("columns", texts c.columns.names),
      ("sql", text c.sql),
      ("skip", number c.skip),
      ("remaining", option number c.remaining),
      ("done", Value.ofBool c.finished)] false

def Reply.shown : Reply → String
  | .rows feed => "Rows(" ++ texts feed.columns ++ ")"
  | .count n => "UpdateCount(" ++ number n ++ ")"

end NamedSql
