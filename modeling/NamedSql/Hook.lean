import NamedSql.Bindings
import NamedSql.Failure
import NamedSql.Flow

/-!
# Hooks

What may be done to the bindings of a statement right before its template is filled. A hook gets a
copy, so the statement's own bindings stay as they are.
-/

namespace NamedSql

/-- A change of bindings at an instant, or a failure that ends the execution. -/
abbrev Hook := Instant → Bindings → Outcome Failure Bindings

namespace Hook

/-- Binds a name unless it is bound. -/
def fillIn (b : Bindings) (name : String) (v : Value) : Bindings :=
  match b.get? (.name name) with
  | some _ => b
  | none => b.insert (.name name) (.value v)

/-- Fills in who works and when, under two names. -/
def audit (user userName stampName : String) : Hook := fun now b =>
  let b := fillIn b userName (.text user)
  match b.get? (.name stampName) with
  | some _ => .done b
  | none =>
    match Timestamp.ofMillis? now.millis with
    | some t => .done (fillIn b stampName (.timestamp t))
    | none => .overflow

/-- The names that `audit` uses unless others are chosen. -/
def auditNames : String × String :=
  ("updated_by", "updated_at")

/-- Binds given parameters, and fails if there is a reason to. -/
def assign (entries : List (Key × Param)) (reason : Option String) : Hook := fun _ b =>
  match reason with
  | some reason => .failed (.usage (.refused reason))
  | none => .done (b.union ⟨entries⟩)

/-- All hooks in their order. -/
def applyAll (now : Instant) : List Hook → Bindings → Outcome Failure Bindings
  | [], b => .done b
  | h :: hooks, b =>
    match h now b with
    | .done b => applyAll now hooks b
    | .failed e => .failed e
    | .overflow => .overflow

end Hook

end NamedSql
