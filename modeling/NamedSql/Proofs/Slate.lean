import NamedSql.Proofs.Batch
import NamedSql.Proofs.Deadline

/-!
# What a database executes

The SQL and the values of an execution are not part of its request: the SQL was prepared under the handle
before, and the values were bound to it since. A `Slate` is what a handle carries by what was seen so far,
and `AllFit` says of everything that was seen that what was executed is as it should be.
-/

namespace NamedSql

open NamedSql.Flow

variable {σ : Type} {b : Backend σ}

/-- What a handle carries: its SQL, and the values bound to it with their positions. -/
structure Slate where
  text : Option String
  bound : List (Value × Nat)

namespace Slate

/-- What the handle carries after one thing more was seen. Calls that did not succeed leave it as it is. -/
def next (handle : Nat) (s : Slate) : Watch → Slate
  | .called (.prepare h sql) (.done ()) _ => if h = handle then ⟨some sql, []⟩ else s
  | .called (.bind h position v) (.done ()) _ =>
    if h = handle then { s with bound := s.bound ++ [(v, position)] } else s
  | .changed (.clearBindings h) => if h = handle then { s with bound := [] } else s
  | _ => s

def of (handle : Nat) (seen : List Watch) : Slate :=
  seen.foldl (next handle) ⟨none, []⟩

variable {handle : Nat} {seen more : List Watch} {x : Watch}

theorem of_append : of handle (seen ++ more) = more.foldl (next handle) (of handle seen) :=
  List.foldl_append

theorem of_concat : of handle (seen ++ [x]) = (of handle seen).next handle x :=
  of_append

theorem next_text (s : Slate) (h : ∀ sql, x.request ≠ .prepare handle sql) : (s.next handle x).text = s.text := by
  unfold next
  split
  · split
    · next heq => exact absurd (congrArg (Request.prepare · _) heq) (h _)
    · rfl
  · split <;> rfl
  · split <;> rfl
  · rfl

theorem of_text (h : ∀ x ∈ more, ∀ sql, x.request ≠ .prepare handle sql) :
    (of handle (seen ++ more)).text = (of handle seen).text := by
  induction more generalizing seen with
  | nil => rw [List.append_nil]
  | cons x more ih =>
    obtain ⟨hx, hmore⟩ := List.forall_mem_cons.1 h
    rw [List.append_cons, ih hmore, of_concat, next_text _ hx]

end Slate

/-! ### Executions that are right -/

/-- Whether the SQL and the values of an execution, if this is one, have `P`. The positions count from
one. -/
def Watch.Fits (P : String → List Value → Prop) (seen : List Watch) : Watch → Prop
  | .called (.execute handle) _ _ =>
    ∃ sql values, Slate.of handle seen = ⟨some sql, values.zipIdx 1⟩ ∧ P sql values
  | .called (.executeBatch handle entries) _ _ =>
    ∃ sql, (Slate.of handle seen).text = some sql ∧ ∀ values ∈ entries, P sql values
  | _ => True

def AllFit (P : String → List Value → Prop) (seen : List Watch) : List Watch → Prop
  | [] => True
  | x :: calls => x.Fits P seen ∧ AllFit P (seen ++ [x]) calls

section
variable {P P' : String → List Value → Prop} {seen calls more : List Watch}

theorem allFit_append : AllFit P seen (calls ++ more) ↔ AllFit P seen calls ∧ AllFit P (seen ++ calls) more := by
  induction calls generalizing seen with
  | nil => rw [List.nil_append, List.append_nil, AllFit, true_and]
  | cons x calls ih =>
    rw [List.cons_append, AllFit, AllFit, ih, and_assoc, List.append_assoc]
    rfl

theorem Watch.fits_of_request {x : Watch} (h : x.request.executes = false) : x.Fits P seen := by
  unfold Fits
  split
  · cases h
  · cases h
  · trivial

theorem allFit_of_request (h : ∀ x ∈ calls, x.request.executes = false) : AllFit P seen calls := by
  induction calls generalizing seen with
  | nil => trivial
  | cons x calls ih =>
    obtain ⟨hx, hcalls⟩ := List.forall_mem_cons.1 h
    exact ⟨Watch.fits_of_request hx, ih hcalls⟩

theorem AllFit.fits {i : Nat} {x : Watch} (h : AllFit P seen calls) (hx : calls[i]? = some x) :
    x.Fits P (seen ++ calls.take i) := by
  induction calls generalizing seen i with
  | nil => cases hx
  | cons y calls ih =>
    cases i with
    | zero =>
      obtain rfl : y = x := Option.some.inj hx
      rw [List.take_zero, List.append_nil]
      exact h.1
    | succ i =>
      rw [List.take_succ_cons, List.append_cons]
      exact ih h.2 hx

end

end NamedSql
