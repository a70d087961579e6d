import NamedSql.Backend.KeyTable.Database
import NamedSql.Proofs.Savepoints

/-!
# Batches on a table of keys and values

The table with its savepoints restores what it held (`KeyStore.restores`), and entries that are executed one after
another change it one after another (`KeyStore.changeAll_of_applied`).
-/

namespace NamedSql

open NamedSql.Flow KeyTable

namespace KeyTable

/-- The changes of a batch one after another: the number of changed rows of each and the table behind them, or the
first failure. -/
def changeAll (t : KeyTable) (c : Change) : (entries : List (List Value)) → Except NativeFault (List Nat × KeyTable)
  | [] => .ok ([], t)
  | entry :: entries => do
    let (n, t) ← t.change c entry
    let (counts, t) ← changeAll t c entries
    pure (n :: counts, t)

namespace Compiled

/-- A value as it is bound. -/
def stored (v : Value) : Value :=
  store v.plain

theorem set_of_take {α : Type} (l : List α) {n : Nat} (hn : n < l.length) (x : α) (rest : List α) (k : Nat) :
    (l.set n x).take (n + 1) ++ rest ++ (l.set n x).drop (n + 1 + k) =
      l.take n ++ x :: rest ++ l.drop (n + (k + 1)) := by
  rw [List.drop_set_of_lt (by omega), List.take_succ_eq_append_getElem (by simpa using hn), List.getElem_set_self,
    List.take_set_of_le (le_refl n), Nat.add_right_comm n 1 k, Nat.add_assoc n k 1, List.append_assoc (l.take n),
    List.singleton_append]

/-- Binding to the positions behind the first `n`. -/
theorem bindAll_behind (s : Compiled) (values : List Value) {n : Nat} (hn : n ≤ s.values.length) :
    KeyStore.library.bindAll s ((values.zipIdx (n + 1)).map Prod.swap) =
      if n + values.length ≤ s.values.length then
        .ok { s with values := s.values.take n ++ values.map stored ++ s.values.drop (n + values.length) }
      else .error outOfRange := by
  -- the values before position `n + 1` stay, so a bound value is one of those for the rest
  induction values generalizing s n with
  | nil =>
    rw [if_pos (by simpa using hn), List.map_nil, List.append_nil, List.length_nil]
    simp only [Nat.add_zero, List.take_append_drop]
    rfl
  | cons v values ih =>
    show (s.bind (n + 1) v.plain >>= fun s => KeyStore.library.bindAll s _) = _
    unfold Compiled.bind
    rcases Nat.lt_or_ge n s.values.length with hlt | hge
    · rw [if_neg (by omega)]
      have hrest := ih { s with values := s.values.set n (stored v) } (n := n + 1)
        (by rw [List.length_set]; exact hlt)
      rw [List.length_set] at hrest
      refine hrest.trans ?_
      rw [List.length_cons, Nat.add_right_comm n 1, Nat.add_assoc n values.length 1]
      split
      · dsimp only
        rw [List.map_cons, ← set_of_take s.values hlt, Nat.add_right_comm n 1]
        rfl
      · rfl
    · rw [if_pos (by omega), if_neg (by simp; omega)]
      rfl

theorem enter_eq (s : Compiled) (values : List Value) :
    KeyStore.library.enter s values =
      if values.length ≤ s.values.length then
        .ok { s with values := values.map stored ++ s.values.drop values.length }
      else .error outOfRange := by
  have h := bindAll_behind s values (Nat.zero_le _)
  simp only [Nat.zero_add, List.take_zero, List.nil_append] at h
  exact h

end Compiled

end KeyTable

namespace KeyStore

open Compiled

/-- The last savepoint was set where the table was this one. -/
def Marked (t : KeyTable) (d : KeyStore) : Prop :=
  ∃ rest, d.savepoints = t :: rest

def Changing (s : Compiled) : Prop :=
  ∃ c, s.command = .change c

theorem restores : library.Restores table Marked Changing where
  setWait d millis w hw := by
    show ends (setWait millis) _ _ _ w
    unfold setWait
    split
    · exact hw
    · exact hw
  compile _ _ := (Obeys.ofExcept _).map _
  changing_bind {s position v s'} hs hbound := by
    have hbound : s.bind position v = .ok s' := hbound
    unfold Compiled.bind at hbound
    split at hbound
    · cases hbound
    · obtain rfl := Except.ok.inj hbound
      exact hs
  rebind {s s' before values} hlength hentered := by
    rw [enter_eq] at hentered
    split at hentered
    · next hle =>
      obtain rfl := Except.ok.inj hentered
      have hafter : (before.map stored ++ s.values.drop before.length).length = s.values.length := by
        simp only [List.length_append, List.length_map, List.length_drop]
        omega
      have hdropped : (before.map stored ++ s.values.drop before.length).drop values.length =
          s.values.drop values.length := by
        rw [← hlength, List.drop_left' (List.length_map _)]
      rw [enter_eq, enter_eq, hafter, hdropped]
    · cases hentered
  savepoint _ := ⟨rfl, _, rfl⟩
  run {s} t := by
    rintro ⟨c, hc⟩ w ⟨rest, hw⟩
    show ends (run s) _ _ _ w
    unfold run
    rw [ends_bind, Call.readLink, ends_read, hc]
    dsimp only
    unfold settle
    split
    · exact ⟨rest, hw⟩
    · exact ⟨rest, hw⟩
  release t w := by
    rintro ⟨rest, hw⟩
    show ends release _ _ _ w
    unfold release
    rw [ends_bind, Call.readLink, ends_read, hw]
    rfl
  rollback {t d} := by
    rintro ⟨rest, hd⟩
    show (undo d).table = t
    unfold undo
    rw [hd]

theorem changing_of_compiles {sql : String} (h : ∀ command, Command.ofSql sql = .ok command → ∃ c, command = .change c)
    {s : Compiled} (hs : library.Compiles sql s) : Changing s := by
  obtain ⟨w, w', hs⟩ := hs
  have hs : (Compiled.ofCommand <$> Flow.ofExcept (Command.ofSql sql) : Call KeyStore Compiled) w = (.done s, w') := hs
  rcases hcommand : Command.ofSql sql with fault | command
  · rw [hcommand] at hs
    cases hs
  · rw [hcommand] at hs
    cases hs
    exact h command hcommand

/-! ### What entries do one after another -/

theorem change_of_effect {s : Compiled} {c : Change} (hs : s.command = .change c) {t t' : KeyTable} {n : UInt64}
    (h : library.Effect table s t n t') : ∃ count, t.change c s.values = .ok (count, t') ∧ n = UInt64.ofNat count := by
  obtain ⟨w, count, w', hrun, rfl, rfl, rfl⟩ := h
  have hrun : run s w = (.done count, w') := hrun
  unfold run at hrun
  rw [Call.readLink, read_bind, hs] at hrun
  dsimp only at hrun
  rcases hchange : w.link.table.change c s.values with fault | ⟨changed, t⟩
  · rw [show (id w.link).table.change c s.values = .error fault from hchange] at hrun
    cases hrun
  · rw [show (id w.link).table.change c s.values = .ok (changed, t) from hchange] at hrun
    cases hrun
    exact ⟨count, rfl, rfl⟩

/-- Entries with a value for each placeholder that are executed one after another change the table one after
another. -/
theorem changeAll_of_applied {sql : String} {c : Change} (hsql : Command.ofSql sql = .ok (.change c))
    {entries : List (List Value)} (hentries : ∀ entry ∈ entries, entry.length = c.width) {t t' : KeyTable}
    {counts : List UInt64} (h : library.Applied table sql entries t counts t') :
    ∃ ns, t.changeAll c (entries.map (List.map stored)) = .ok (ns, t') ∧ counts = ns.map UInt64.ofNat := by
  obtain ⟨statements, hstatements, heffects⟩ := h
  induction hstatements generalizing t counts with
  | nil =>
    cases heffects
    exact ⟨[], rfl, rfl⟩
  | @cons entry s entries statements hentry _ ih =>
    obtain ⟨hlength, hrest⟩ := List.forall_mem_cons.1 hentries
    cases heffects with
    | cons heffect heffects =>
    obtain ⟨fresh, ⟨w, w', hcompiled⟩, hentry⟩ := hentry
    have hfresh : fresh = Compiled.ofCommand (.change c) := by
      have hcompiled : (Compiled.ofCommand <$> Flow.ofExcept (Command.ofSql sql) : Call KeyStore Compiled) w =
          (.done fresh, w') := hcompiled
      rw [hsql] at hcompiled
      cases hcompiled
      rfl
    have hwidth : fresh.values.length = entry.length := by
      rw [hfresh, hlength]
      exact List.length_replicate
    rw [enter_eq, if_pos hwidth.ge, List.drop_eq_nil_of_le hwidth.le, List.append_nil] at hentry
    obtain rfl := Except.ok.inj hentry
    obtain ⟨count, hchange, rfl⟩ := change_of_effect (c := c) (by rw [hfresh]; rfl) heffect
    obtain ⟨ns, hothers, rfl⟩ := ih hrest heffects
    refine ⟨count :: ns, ?_, rfl⟩
    show t.change c (entry.map stored) >>= _ = _
    rw [hchange]
    show changeAll _ c _ >>= _ = _
    rw [hothers]
    rfl

end KeyStore

end NamedSql
