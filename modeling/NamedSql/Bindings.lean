import NamedSql.Value

/-!
# Bound parameters

A parameter is bound under a name or under the position of a placeholder. `Bindings` keeps its
entries in the order of the keys, so that two histories with the same outcome give the same bindings.
-/

namespace NamedSql

/-- What a parameter is bound to. -/
inductive Param where
  | value (v : Value)
  | sequence (items : List Value)
  | stream (payload : List UInt8)
deriving Repr

namespace Param

def isStream : Param → Bool
  | .stream _ => true
  | _ => false

/-- The text of a parameter in messages and logs; the content of a stream is hidden. -/
def render : Param → String
  | .value v => v.render
  | .sequence items => "[" ++ String.intercalate ", " (items.map Value.render) ++ "]"
  | .stream _ => "<stream>"

/-- Equality of lists item by item. -/
def sameItems : List Value → List Value → Bool
  | [], [] => true
  | v :: vs, w :: ws => v.same w && sameItems vs ws
  | _, _ => false

/-- Equality of parameters. A stream equals nothing, itself included. -/
def same : Param → Param → Bool
  | .value v, .value w => v.same w
  | .sequence vs, .sequence ws => sameItems vs ws
  | _, _ => false

end Param

/-- Under what a parameter is bound. -/
inductive Key where
  | index (n : Nat)
  | name (s : String)
deriving DecidableEq, Repr

namespace Key

/-- Positions come before names, positions by number and names by their characters. -/
def before : Key → Key → Bool
  | .index m, .index n => m < n
  | .index _, .name _ => true
  | .name _, .index _ => false
  | .name s, .name t => s < t

def render : Key → String
  | .index n => toString n
  | .name s => s

end Key

/-- Parameters in the order of their keys. -/
structure Bindings where
  entries : List (Key × Param)
deriving Repr

namespace Bindings

def empty : Bindings := ⟨[]⟩

/-- Puts an entry into its place among ordered ones, in place of one with the same key. -/
def putEntry (key : Key) (p : Param) : List (Key × Param) → List (Key × Param)
  | [] => [(key, p)]
  | (k, q) :: rest =>
    if key = k then (key, p) :: rest
    else if key.before k then (key, p) :: (k, q) :: rest
    else (k, q) :: putEntry key p rest

def insert (b : Bindings) (key : Key) (p : Param) : Bindings :=
  ⟨putEntry key p b.entries⟩

def get? (b : Bindings) (key : Key) : Option Param :=
  (b.entries.find? fun e => e.1 = key).map (·.2)

def erase (b : Bindings) (key : Key) : Bindings :=
  ⟨b.entries.filter fun e => e.1 ≠ key⟩

/-- Binds every entry of the other bindings, which win. -/
def union (b other : Bindings) : Bindings :=
  other.entries.foldl (fun b e => b.insert e.1 e.2) b

def ofList (entries : List (Key × Param)) : Bindings :=
  union empty ⟨entries⟩

def size (b : Bindings) : Nat :=
  b.entries.length

def isEmpty (b : Bindings) : Bool :=
  b.entries.isEmpty

def hasStream (b : Bindings) : Bool :=
  b.entries.any fun e => e.2.isStream

/-- The text of bindings in messages and logs. -/
def render (b : Bindings) : String :=
  "\x7b" ++ String.intercalate ", " (b.entries.map fun e => e.1.render ++ "=" ++ e.2.render)
    ++ "\x7d"

def sameEntries : List (Key × Param) → List (Key × Param) → Bool
  | [], [] => true
  | (k, p) :: es, (l, q) :: fs => k == l && p.same q && sameEntries es fs
  | _, _ => false

/-- Equality of bindings: the same keys with equal parameters. -/
def same (b c : Bindings) : Bool :=
  sameEntries b.entries c.entries

end Bindings

end NamedSql
