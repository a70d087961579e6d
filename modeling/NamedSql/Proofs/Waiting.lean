import NamedSql.Backend.KeyTable.Database
import NamedSql.Proofs.Completing

/-!
# How long databases in a library wait

A library can be made to wait for a limited time only. A database in it completes its calls as long as no statement was
given a longer timeout (`Library.completing_backend`), and so does the database with one table
(`KeyDatabase.completing`).
-/

namespace NamedSql

open NamedSql.Flow

/-- What is undone keeps what the undoing keeps. -/
theorem Completes.orUndo {ε σ α : Type} {I : σ → Prop} {undo : σ → σ} {m : Flow ε σ α} (hm : Completes I m)
    (hundo : ∀ s, I s → I (undo s)) : Completes I (Flow.orUndo undo m) := by
  intro s hs
  rw [ends_orUndo]
  exact ends_mono (hm s hs) (fun _ _ ht => ht) (fun _ t ht => hundo t ht) fun _ ht => ht

/-- No more time is given than is left. -/
theorem TimeLimit.tighten_le (current : Option Nat) (left : Nat) : tighten current left ≤ left := by
  unfold tighten
  split
  · split
    · assumption
    · exact Nat.le_refl left
  · exact Nat.le_refl left

variable {δ κ α : Type}

/-- A library whose calls complete where `C` holds, if it need not wait longer than it can. -/
structure Library.Completing (L : Library δ κ) (C : World δ → Prop) (longest : Nat) : Prop where
  setWait : ∀ millis, millis ≤ longest → Completes C (L.setWait millis)
  compile : ∀ sql, Completes C (L.compile sql)
  run : ∀ s, Completes C (L.run s)
  query : ∀ s, Completes C (L.query s)
  savepoint : Completes C L.savepoint
  release : Completes C L.release
  rollback : ∀ w, C w → C { w with link := L.rollback w.link }

namespace Embedded

/-- The library is where `C` holds, and no statement has a timeout beyond the longest one. -/
structure Patient (C : World δ → Prop) (longest : Nat) (w : World (Embedded δ)) : Prop where
  data : C ⟨w.link.data, w.now⟩
  statements : ∀ e ∈ w.link.statements, ∀ millis, e.2.timeout = some millis → millis ≤ longest

variable {C : World δ → Prop} {longest : Nat}

theorem completes_onData {c : Call δ α} (hc : Completes C c) : Completes (Patient C longest) (onData c) :=
  hc.within (fun _ hw => hw.data) fun _ _ hw hv => ⟨hv, hw.statements⟩

theorem Patient.modifyStatement {w : World (Embedded δ)} (hw : Patient C longest w) {handle : Nat}
    {f : Prepared String → Prepared String}
    (hf : ∀ p millis, (f p).timeout = some millis → p.timeout = some millis ∨ millis ≤ longest) :
    Patient C longest { w with link := Embedded.modifyStatement handle f w.link } := by
  refine ⟨hw.data, fun e he millis hmillis => ?_⟩
  obtain ⟨old, hold, rfl⟩ := List.mem_map.1 he
  split at hmillis
  · rcases hf old.2 millis hmillis with htimeout | hle
    · exact hw.statements old hold millis htimeout
    · exact hle
  · exact hw.statements old hold millis hmillis

/-- The timeout of a statement is one that the library can wait for. -/
theorem ends_statement {w : World (Embedded δ)} (hw : Patient C longest w) (handle : Nat) :
    ends (statement handle)
      (fun p v => (∀ millis, p.timeout = some millis → millis ≤ longest) ∧ Patient C longest v)
      (fun _ => Patient C longest) (fun _ => False) w := by
  unfold statement
  rw [ends_bind, Call.readLink, ends_read]
  split
  · next p hp =>
    obtain ⟨front, rest, hsplit, -⟩ := List.lookup_eq_some_iff.1 hp
    exact ⟨hw.statements (handle, p) (by simp [hsplit]), hw⟩
  · exact hw

end Embedded

namespace Library

open Embedded

variable {L : Library δ κ} {C : World δ → Prop} {longest : Nat} (h : L.Completing C longest)
include h

theorem completes_setTimeout {timeout : Option Nat} (htimeout : ∀ millis, timeout = some millis → millis ≤ longest) :
    Completes C (L.setTimeout timeout) := by
  cases timeout with
  | some millis => exact h.setWait millis (htimeout millis rfl)
  | none => exact .pure _

theorem completes_readRows (s : κ) (cap : Nat) : Completes C (L.readRows s cap) := by
  unfold readRows
  split
  · exact .pure _
  · refine (h.query s).bind fun ⟨rows, ending⟩ => ?_
    dsimp only
    split
    · exact .pure _
    · cases ending with
      | none => exact .pure _
      | some fault => exact .fail _

theorem completes_runEntries (s : κ) (entries : List (List Value)) : Completes C (L.runEntries s entries) := by
  induction entries generalizing s with
  | nil => exact .pure _
  | cons entry entries ih =>
    exact (Completes.ofExcept _).bind fun s => (h.run s).bind fun _ => (ih s).bind fun _ => .pure _

theorem completes_inSavepoint {c : Call δ α} (hc : Completes C c) : Completes C (L.inSavepoint c) :=
  h.savepoint.bind fun _ => (hc.bind fun _ => h.release.bind fun _ => .pure _).orUndo h.rollback

theorem completes_execute (handle : Nat) : Completes (Patient C longest) (L.execute handle) := by
  intro w hw
  refine (ends_statement hw handle).bind fun p v ⟨htimeout, hv⟩ => completes_onData ?_ v hv
  refine (completes_setTimeout h htimeout).bind fun _ => (h.compile _).bind fun s => (Completes.ofExcept _).bind fun s => ?_
  split
  · exact (h.run s).bind fun _ => .pure _
  · exact (completes_readRows h s _).bind fun _ => .pure _

theorem completes_executeBatch (handle : Nat) (entries : List (List Value)) :
    Completes (Patient C longest) (L.executeBatch handle entries) := by
  intro w hw
  refine (ends_statement hw handle).bind fun p v ⟨htimeout, hv⟩ => completes_onData ?_ v hv
  exact (completes_setTimeout h htimeout).bind fun _ => completes_inSavepoint h <|
    (h.compile _).bind fun s => completes_runEntries h s entries

/-- A database in the library completes its calls as long as no timeout beyond the longest one is set. -/
theorem completing_backend : L.backend.Completing (Patient C longest) (· ≤ longest) where
  prepare handle sql := by
    refine (completes_onData (h.compile sql)).discard.bind fun _ => .modify fun w hw => ⟨hw.data, fun e he => ?_⟩
    rcases List.mem_cons.1 he with rfl | he
    · exact nofun
    · exact hw.statements e (List.mem_of_mem_filter he)
  bind handle position v :=
    (Completes.require _ _).bind fun _ => .modify fun _ hw => hw.modifyStatement fun _ _ hp => .inl hp
  clearBindings handle := .modify fun _ hw => hw.modifyStatement fun _ _ hp => .inl hp
  execute := completes_execute h
  executeBatch := completes_executeBatch h
  limitRows handle n := .modify fun _ hw => hw.modifyStatement fun _ _ hp => .inl hp
  limitTime handle millis hmillis := by
    refine .modify fun w hw => hw.modifyStatement fun p n hn => .inr ?_
    obtain rfl := Option.some.inj hn
    exact (TimeLimit.tighten_le _ millis).trans hmillis
  fetch _ := .pure _
  close handle := .modify fun w hw => ⟨hw.data, fun e he => hw.statements e (List.mem_of_mem_filter he)⟩

end Library

/-! ### The table as a library -/

namespace KeyStore

/-- The table takes no time. -/
theorem completing (C : Instant → Prop) : library.Completing (fun w => C w.now) longestWait where
  setWait millis hmillis := by
    show Completes _ (setWait millis)
    unfold setWait
    rw [if_neg (Nat.not_lt.2 hmillis)]
    exact .pure _
  compile sql := (Completes.ofExcept _).map _
  run s := by
    show Completes _ (run s)
    refine (Completes.read _).bind fun d => ?_
    split
    · next c _ =>
      cases d.table.change c s.values with
      | ok changed => exact Completes.bind (.modify fun _ hw => hw) fun _ => .pure _
      | error fault => exact Completes.bind (.modify fun _ hw => hw) fun _ => .fail _
    · exact (Completes.ofExcept _).bind fun rows => (Completes.require _ _).bind fun _ => .pure _
    · exact (Completes.ofExcept _).bind fun d => Completes.bind (.modify fun _ hw => hw) fun _ => .pure _
  query s := by
    show Completes _ (query s)
    refine (Completes.read _).bind fun d => ?_
    split
    · exact (Completes.ofExcept _).bind fun rows => .pure _
    · exact .pure _
  savepoint := .modify fun _ hw => hw
  release := by
    show Completes _ release
    refine (Completes.read _).bind fun savepoints => ?_
    split
    · exact .modify fun _ hw => hw
    · exact .fail _
  rollback _ hw := hw

end KeyStore

/-- The database completes its calls at any time of the clock, which it does not move, if it need not wait longer than
it can. -/
theorem KeyDatabase.completing (C : Instant → Prop) :
    KeyDatabase.backend.Completing (Embedded.Patient (fun w => C w.now) KeyStore.longestWait) (· ≤ KeyStore.longestWait) :=
  Library.completing_backend (KeyStore.completing C)

end NamedSql
