import NamedSql.Bindings
import NamedSql.Template

/-!
# Filling in a template

Every marker of a template takes its values from the bindings: the entry for its position if there is
one, else the entry for its name. `Template.fill` gives the SQL with a placeholder for each value and
the values in the same order.
-/

namespace NamedSql

/-- SQL with placeholders and the values for them. -/
structure Filled where
  sql : String
  values : List Value
deriving Repr

/-- The single value of a parameter; a stream is read as bytes. -/
def Param.single : Param → Value
  | .value v => v
  | .stream payload => .blob payload
  | .sequence items => items.headD .null

namespace Marker

/-- The values that a marker takes from its parameter, as they are bound. -/
def pick (m : Marker) (p : Param) : Except BindingFault (List Value) :=
  match m.subscript, p with
  | none, .sequence _ => .error (.sequenceForScalar m.name)
  | none, p => .ok [p.single]
  | some (.at n), .sequence items =>
    match items[n]? with
    | some v => .ok [v]
    | none => .error (.subscriptOutOfRange n m.name items.length)
  | some (.at n), _ => .error (.needsSequence m.name n)
  | some .all, .sequence items =>
    if items.isEmpty then .error (.emptySequence m.name) else .ok items
  | some .all, p => .ok [p.single]

/-- A value as a LIKE pattern; only texts have one, and NULL stays NULL. -/
def patternValue (m : Marker) (escape : Char) : Value → Except BindingFault Value
  | .text s => .ok (.text (String.ofList (m.pattern escape s.toList)))
  | .null => .ok .null
  | v => .error (.notText m.name v)

/-- The values for the placeholders of a marker. -/
def resolve (m : Marker) (escape : Char) (p : Param) : Except BindingFault (List Value) := do
  let values ← m.pick p
  if m.isLike then values.mapM (m.patternValue escape) else pure values

end Marker

namespace Template

/-- The parameter of the marker at a position, counted from 1. -/
def lookup (b : Bindings) (position : Nat) (m : Marker) : Option Param :=
  match b.get? (.index position) with
  | some p => some p
  | none => b.get? (.name m.name)

/-- The values of each marker, the first of which has the given position. -/
def resolveAll (escape : Char) (b : Bindings) :
    (position : Nat) → List Marker → Except BindingFault (List (List Value))
  | _, [] => .ok []
  | position, m :: rest => do
    let p ←
      match lookup b position m with
      | some p => pure p
      | none => .error (.missing m.name position)
    let values ← m.resolve escape p
    let others ← resolveAll escape b (position + 1) rest
    pure (values :: others)

/-- A template with its values. The SQL is widened only if some marker takes a whole sequence. -/
def fill (t : Template) (b : Bindings) : Except Failure Filled :=
  match resolveAll t.escape b 1 t.markers with
  | .error fault => .error (.binding fault)
  | .ok groups =>
    let sql := if t.hasSequences then t.expand (groups.map List.length) else t.sql
    .ok ⟨sql, groups.flatten⟩

end Template

end NamedSql
