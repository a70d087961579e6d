import NamedSql.Binary64.Decimal
import NamedSql.Value.Conversion
import NamedSql.Value.Plain

/-!
# A table of keys and values

A table `kv` with an integer primary key `k` and a column `v` that holds any plain value. Rows stand
in the order of their keys. `KeyTable.change` is what one statement does that changes data.
-/

namespace NamedSql

abbrev KeyTable := List (Int64 × Value)

namespace KeyTable

/-! ### Keys -/

/-- White space around a number. -/
def isSpace (c : Char) : Bool :=
  c == ' ' || ('\t' ≤ c && c ≤ '\r')

/-- An integral number as a key. The least and the greatest integer are no floating point numbers to
the database. -/
def keyOfFloat? (x : Binary64) : Option Int64 :=
  x.toInt?.bind fun n =>
    if minInteger < n ∧ n < maxInteger then some (Int64.ofInt n) else none

/-- A text that is a number as a key. -/
def keyOfText? (s : List Char) : Option Int64 :=
  let s := ((s.dropWhile isSpace).reverse.dropWhile isSpace).reverse
  match (Decimal.toInt? s).bind integer? with
  | some n => some n
  | none => (Binary64.ofText? s).bind keyOfFloat?

/-- The key that a plain value stands for. -/
def key? : Value → Option Int64
  | .integer n => some n
  | .float x => keyOfFloat? x
  | .text s => keyOfText? s.toList
  | _ => none

/-! ### Rows -/

def get? (t : KeyTable) (k : Int64) : Option Value :=
  t.lookup k

/-- A key for a row that is given none: the one behind the last or, if there is none, the least free
one from 1 on. -/
def nextKey? (t : KeyTable) : Option Int64 :=
  match t.getLast? with
  | none => some 1
  | some (k, _) =>
    if k.toInt = maxInteger then
      ((List.range (t.length + 1)).map fun i => Int64.ofNat (i + 1)).find? fun k => (t.get? k).isNone
    else some (k + 1)

/-- Enters a row with a new key. -/
def insert (t : KeyTable) (k : Int64) (v : Value) : KeyTable :=
  match t with
  | [] => [(k, v)]
  | (l, w) :: rest => if k < l then (k, v) :: (l, w) :: rest else (l, w) :: insert rest k v

/-! ### Changes -/

/-- A statement that changes data. -/
inductive Change where
  | insert
  | update
  | delete
deriving DecidableEq, Repr

def duplicateKey : NativeFault :=
  ⟨none, 1555, "UNIQUE constraint failed: kv.k"⟩

def mismatch : NativeFault :=
  ⟨none, 20, "datatype mismatch"⟩

def full : NativeFault :=
  ⟨none, 13, "database or disk is full"⟩

/-- Inserts a row; NULL as a key asks for a new one. -/
def insertRow (t : KeyTable) (k v : Value) : Except NativeFault (Nat × KeyTable) :=
  match k with
  | .null =>
    match t.nextKey? with
    | some k => .ok (1, t.insert k v)
    | none => .error full
  | k =>
    match key? k with
    | none => .error mismatch
    | some k => if (t.get? k).isSome then .error duplicateKey else .ok (1, t.insert k v)

/-- Changes the row of a key, if there is one. -/
def updateRow (t : KeyTable) (k v : Value) : Nat × KeyTable :=
  match (key? k).filter fun k => (t.get? k).isSome with
  | some k => (1, t.map fun r => if r.1 = k then (k, v) else r)
  | none => (0, t)

/-- Deletes the row of a key, if there is one. -/
def deleteRow (t : KeyTable) (k : Value) : Nat × KeyTable :=
  match (key? k).filter fun k => (t.get? k).isSome with
  | some k => (1, t.filter (·.1 != k))
  | none => (0, t)

/-- The number of values that a change takes. -/
def Change.width : Change → Nat
  | .insert => 2
  | .update => 2
  | .delete => 1

/-- The number of changed rows and the table after a change with its values, or the reason why the
table stays as it is. -/
def change (t : KeyTable) (c : Change) (values : List Value) : Except NativeFault (Nat × KeyTable) :=
  match c, values with
  | .insert, [k, v] => t.insertRow k v
  | .update, [v, k] => .ok (t.updateRow k v)
  | .delete, [k] => .ok (t.deleteRow k)
  | _, _ => .error mismatch

end KeyTable

end NamedSql
