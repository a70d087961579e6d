import NamedSql.Binary64.Shortest
import NamedSql.Calendar.Written
import NamedSql.Json

/-!
# Values

What a database column holds and what a parameter is bound to. `Value.render` is the text of a value
in messages and logs, where bytes are never shown.
-/

namespace NamedSql

/-- The categories of values. -/
inductive Kind where
  | numeric
  | boolean
  | text
  | bytes
  | date
  | timestamp
  | json
deriving DecidableEq, Repr

/-- The forms in which a value can be asked for. -/
inductive Representation where
  | integer
  | float
  | text
  | boolean
  | bytes
  | date
  | timestamp
  | json
deriving DecidableEq, Repr

inductive Value where
  | null
  | integer (n : Int64)
  | float (x : Binary64)
  | text (s : String)
  | boolean (b : Bool)
  | date (d : Date)
  | timestamp (t : Timestamp)
  | json (j : Json)
  | blob (bytes : List UInt8)
deriving Repr

namespace Kind

def all : List Kind :=
  [.numeric, .boolean, .text, .bytes, .date, .timestamp, .json]

def name : Kind → String
  | .numeric => "Numeric"
  | .boolean => "Boolean"
  | .text => "Text"
  | .bytes => "Bytes"
  | .date => "Date"
  | .timestamp => "Timestamp"
  | .json => "Json"

end Kind

namespace Representation

def all : List Representation :=
  [.integer, .float, .text, .boolean, .bytes, .date, .timestamp, .json]

def name : Representation → String
  | .integer => "Integer"
  | .float => "Float"
  | .text => "Text"
  | .boolean => "Boolean"
  | .bytes => "Bytes"
  | .date => "Date"
  | .timestamp => "Timestamp"
  | .json => "Json"

end Representation

namespace Value

/-- The category of a value; NULL has none. -/
def kind? : Value → Option Kind
  | .null => none
  | .integer _ | .float _ => some .numeric
  | .text _ => some .text
  | .boolean _ => some .boolean
  | .date _ => some .date
  | .timestamp _ => some .timestamp
  | .json _ => some .json
  | .blob _ => some .bytes

/-- The form of a value; NULL has none. -/
def representation? : Value → Option Representation
  | .null => none
  | .integer _ => some .integer
  | .float _ => some .float
  | .text _ => some .text
  | .boolean _ => some .boolean
  | .date _ => some .date
  | .timestamp _ => some .timestamp
  | .json _ => some .json
  | .blob _ => some .bytes

def ofBool (b : Bool) : String :=
  if b then "true" else "false"

/-- The text of a value in messages and logs: texts stand in quotes, bytes are hidden. -/
def render : Value → String
  | .null => "NULL"
  | .integer n => toString n.toInt
  | .float x => String.ofList x.render
  | .text s => "'" ++ s ++ "'"
  | .boolean b => ofBool b
  | .date d => String.ofList d.render
  | .timestamp t => String.ofList t.render
  | .json j => String.ofList j.render
  | .blob _ => "<binary>"

/-- Equality of values. Floating point numbers are equal when their bits are; within JSON documents
they are compared by value. -/
def same : Value → Value → Bool
  | .null, .null => true
  | .integer m, .integer n => m == n
  | .float x, .float y => x == y
  | .text s, .text t => s == t
  | .boolean a, .boolean b => a == b
  | .date c, .date d => c == d
  | .timestamp t, .timestamp u => t == u
  | .json j, .json k => j.same k
  | .blob a, .blob b => a == b
  | _, _ => false

end Value

end NamedSql
