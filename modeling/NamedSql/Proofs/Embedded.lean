import NamedSql.Proofs.Savepoints
import NamedSql.Proofs.Scripted

/-!
# What databases in a library keep

A database in a library keeps its prepared statements on a shelf by their handles (`Library.keeping_backend`), and what
is only prepared, bound or closed leaves the tables (`Library.prepare_leaves`).
-/

namespace NamedSql

open NamedSql.Flow

variable {δ κ γ α : Type}

/-- What is kept with a prepared statement. -/
def Embedded.carried (d : Embedded δ) : Nat → Option Carried :=
  Script.carriedOn d.statements

namespace Embedded

/-- Work on the tables leaves the shelf. -/
theorem obeys_onData {shelf : Shelf String} (c : Call δ α) :
    Obeys (.always NativeFault fun w => w.link.statements = shelf) (onData c) := fun _ hw =>
  (ends_onData c).2 (ends_of_forall (fun _ _ => hw) (fun _ _ => hw) fun _ => hw)

theorem obeys_statement {I : World (Embedded δ) → Prop} (handle : Nat) :
    Obeys (.always NativeFault I) (statement handle) := by
  refine (Obeys.read _).bind fun statements => ?_
  split
  · exact .pure _
  · exact .fail _

theorem quiet_of_shelf {c : Call (Embedded δ) α}
    (h : ∀ shelf, Obeys (.always NativeFault fun w => w.link.statements = shelf) c) : Quiet carried c := by
  intro sqls w hw
  have htexts (v : World (Embedded δ)) (hv : v.link.statements = w.link.statements) : texts carried v.link = sqls :=
    (texts_of_carried (congrArg Script.carriedOn hv)).trans hw
  exact ends_mono (h _ w rfl) (fun _ => htexts) (fun _ => htexts) htexts

theorem alters_modifyStatement {handle : Nat} {f : Prepared String → Prepared String} {g : Carried → Carried}
    (h : ∀ p, Script.carriedBy (f p) = g (Script.carriedBy p)) (d : Embedded δ) :
    Alters carried handle g d (modifyStatement handle f d) :=
  Script.carriedOn_update h d.statements

end Embedded

namespace Library

open Embedded

variable (L : Library δ κ)

theorem keeping_backend : L.backend.Keeping Embedded.carried where
  prepare handle sql w := by
    show ends (L.prepare handle sql) _ _ _ w
    unfold prepare
    have hspared (v : World (Embedded δ)) (hv : v.link.statements = w.link.statements) :
        SparesOthers carried handle w.link v.link := fun other _ =>
      congrFun (texts_of_carried (congrArg Script.carriedOn hv)) other
    refine ((obeys_onData (L.compile sql)).discard).thenEnds rfl (fun _ => hspared) hspared fun _ v hv => ?_
    show Script.carriedOn (v.link.statements.put handle (.ofBody sql)) = _
    rw [show v.link.statements = w.link.statements from hv]
    exact Script.carriedOn_put w.link.statements
  bind handle position v w := by
    show ends (Embedded.bind handle position v) _ _ _ w
    unfold Embedded.bind
    rw [ends_bind, ends_require]
    split
    · exact alters_modifyStatement (Script.carriedBy_bind position v) w.link
    · rfl
  clearBindings _ d := alters_modifyStatement (fun _ => rfl) d
  limitRows _ _ d := alters_modifyStatement (fun _ => rfl) d
  limitTime handle millis d := by
    have hsame : Alters carried handle id d (L.backend.limitTime handle millis d) :=
      alters_modifyStatement (fun _ => rfl) d
    unfold Alters at hsame
    rw [hsame, Option.map_id, id, Function.update_eq_self]
  execute handle := quiet_of_shelf fun _ => (obeys_statement handle).bind fun _ => obeys_onData _
  executeBatch handle entries := quiet_of_shelf fun _ => (obeys_statement handle).bind fun _ => obeys_onData _
  fetch _ := quiet_of_shelf fun _ => .pure _
  close handle w := fun other hother =>
    congrArg (Option.map Carried.sql) (Script.carriedOn_erase w.link.statements hother)

/-! ### Tables -/

variable {L} {content : δ → γ} {marked : γ → δ → Prop} {changing : κ → Prop}

theorem prepare_leaves (h : L.Restores content marked changing) (g : γ) (handle : Nat) (sql : String) :
    Obeys (.always NativeFault fun w => content w.link.data = g) (L.backend.prepare handle sql) := by
  refine Obeys.bind (Obeys.discard fun w hw => (ends_onData _).2 ?_) fun _ => .modify fun _ hw => hw
  exact ends_mono (h.compile w.link.data sql ⟨w.link.data, w.now⟩ ⟨rfl, fun _ hg => hg⟩)
    (fun _ _ hv => hv.1.trans hw) (fun _ _ hv => hv.1.trans hw) fun _ hv => hv.1.trans hw

theorem close_leaves (L : Library δ κ) (g : γ) (handle : Nat) :
    Obeys (.always NativeFault fun w => content w.link.data = g) (L.backend.close handle) :=
  .modify fun _ hw => hw

theorem limitTime_leaves (L : Library δ κ) (g : γ) (handle : Nat) (budget : TimeLimit.Budget) :
    Obeys (.always NativeFault fun w => content w.link.data = g) (Statement.limitTime L.backend handle budget) := by
  cases budget with
  | left millis => exact .modify fun _ hw => hw
  | unlimited | exhausted => exact .pure _

end Library

end NamedSql
