import NamedSql.Proofs.Carried

/-!
# What scripted databases keep

A scripted database keeps its prepared statements on a shelf by their handles, with the values and the limits that
were set for them (`Script.carried`). Both kinds keep them until they are changed (`Script.keeping_streaming`,
`Script.keeping_buffered`).
-/

namespace NamedSql

open NamedSql.Flow

variable {α κ : Type}

/-! ### Shelves -/

theorem lookup_cons_eq {β : Type} (m n : Nat) (x : β) (rest : List (Nat × β)) :
    ((m, x) :: rest).lookup n = if n = m then some x else rest.lookup n := by
  rw [List.lookup_cons]
  split_ifs with h
  · rw [h, beq_self_eq_true]
  · rw [beq_false_of_ne h]

namespace Prepared

theorem lookup_putValue (position : Nat) (v : Value) (bound : List (Nat × Value)) :
    (fun n => (putValue position v bound).lookup n) =
      Function.update (fun n => bound.lookup n) position (some v) := by
  funext n
  rw [Function.update_apply]
  induction bound with
  | nil => rw [putValue, lookup_cons_eq]
  | cons e rest ih =>
    obtain ⟨m, w⟩ := e
    rw [putValue, lookup_cons_eq]
    split
    · rw [lookup_cons_eq, lookup_cons_eq]
    · split
      · next heq =>
        subst heq
        rw [lookup_cons_eq]
        split <;> rfl
      · next hne =>
        rw [lookup_cons_eq, ih]
        grind

end Prepared

namespace Shelf

variable {s : Shelf κ} {handle : Nat}

theorem get?_cons (m other : Nat) (p : Prepared κ) (rest : Shelf κ) :
    get? ((m, p) :: rest) other = if other = m then some p else rest.get? other :=
  lookup_cons_eq m other p rest

theorem get?_erase_of_ne {other : Nat} (h : other ≠ handle) : (s.erase handle).get? other = s.get? other := by
  unfold erase
  induction s with
  | nil => rfl
  | cons e s ih =>
    obtain ⟨m, p⟩ := e
    rw [List.filter_cons, get?_cons]
    split_ifs with hm heq heq
    · rw [get?_cons, if_pos heq]
    · rw [get?_cons, if_neg heq, ih]
    · exact absurd (heq ▸ h) (by simpa using hm)
    · exact ih

theorem get?_put (p : Prepared κ) : (s.put handle p).get? = Function.update s.get? handle (some p) := by
  funext other
  rw [put, get?_cons, Function.update_apply]
  split_ifs with h
  · rfl
  · exact get?_erase_of_ne h

theorem get?_update (f : Prepared κ → Prepared κ) :
    (s.update handle f).get? = Function.update s.get? handle ((s.get? handle).map f) := by
  funext other
  unfold update
  rw [Function.update_apply]
  induction s with
  | nil => split_ifs <;> rfl
  | cons e s ih =>
    obtain ⟨m, p⟩ := e
    rw [List.map_cons, get?_cons, get?_cons]
    grind [get?_cons]

section
variable {γ : Type} {view : Prepared κ → γ}

/-- What is seen of the statements when one of them is changed. -/
theorem view_update {f : Prepared κ → Prepared κ} {g : γ → γ} (h : ∀ p, view (f p) = g (view p)) :
    (fun n => ((s.update handle f).get? n).map view) =
      Function.update (fun n => (s.get? n).map view) handle (((s.get? handle).map view).map g) := by
  funext other
  rw [get?_update]
  by_cases hother : other = handle
  · subst hother
    rw [Function.update_self, Function.update_self, Option.map_map, Option.map_map,
      show view ∘ f = g ∘ view from funext h]
  · rw [Function.update_of_ne hother, Function.update_of_ne hother]

theorem view_put (p : Prepared κ) :
    (fun n => ((s.put handle p).get? n).map view) =
      Function.update (fun n => (s.get? n).map view) handle (some (view p)) := by
  funext other
  rw [get?_put, Function.update_apply, Function.update_apply]
  split
  · rfl
  · rfl

end

end Shelf

/-! ### Scripts -/

namespace Script

/-- What is kept with a prepared statement. -/
def carriedBy (p : Prepared String) : Carried :=
  ⟨p.body, fun n => p.bound.lookup n, p.maxRows⟩

def carried (s : Script) (handle : Nat) : Option Carried :=
  (s.statements.get? handle).map carriedBy

/-- What is kept on a shelf for the handles. -/
abbrev carriedOn (shelf : Shelf String) (handle : Nat) : Option Carried :=
  (shelf.get? handle).map carriedBy

theorem carriedOn_update {handle : Nat} {f : Prepared String → Prepared String} {g : Carried → Carried}
    (h : ∀ p, carriedBy (f p) = g (carriedBy p)) (shelf : Shelf String) :
    carriedOn (shelf.update handle f) =
      Function.update (carriedOn shelf) handle ((carriedOn shelf handle).map g) :=
  Shelf.view_update h

theorem carriedBy_bind (position : Nat) (v : Value) (p : Prepared String) :
    carriedBy (p.bind position v) = (carriedBy p).bind position v :=
  congrArg (Carried.mk p.body · p.maxRows) (Prepared.lookup_putValue position v p.bound)

theorem carriedOn_put {handle : Nat} {sql : String} {timeout : Option Nat} (shelf : Shelf String) :
    carriedOn (shelf.put handle { Prepared.ofBody sql with timeout }) =
      Function.update (carriedOn shelf) handle (some (.fresh sql)) :=
  Shelf.view_put _

theorem carriedOn_erase {handle other : Nat} (shelf : Shelf String) (hother : other ≠ handle) :
    carriedOn (shelf.erase handle) other = carriedOn shelf other := by
  unfold carriedOn
  rw [Shelf.get?_erase_of_ne hother]

theorem alters_modifyStatement {handle : Nat} {f : Prepared String → Prepared String} {g : Carried → Carried}
    (h : ∀ p, carriedBy (f p) = g (carriedBy p)) (s : Script) :
    Alters carried handle g s (modifyStatement handle f s) :=
  carriedOn_update h s.statements

theorem carried_of_statements {s s' : Script} (h : s'.statements = s.statements) : carried s' = carried s :=
  congrArg carriedOn h

section
variable {shelf : Shelf String}

abbrev OnShelf (shelf : Shelf String) (w : World Script) : Prop :=
  w.link.statements = shelf

theorem quiet_of_onShelf {c : Call Script α} (h : ∀ shelf, Obeys (.always NativeFault (OnShelf shelf)) c) :
    Quiet carried c := by
  intro sqls w hw
  have htexts (v : World Script) (hv : OnShelf w.link.statements v) : texts carried v.link = sqls :=
    (texts_of_carried (carried_of_statements hv)).trans hw
  exact ends_mono (h _ w rfl) (fun _ => htexts) (fun _ => htexts) htexts

theorem onShelf_pass (millis : Int) : Obeys (.always NativeFault (OnShelf shelf)) (Call.pass millis) :=
  (Obeys.read _).bind fun _ => (Obeys.ofCalendar _).bind fun _ => .modify fun _ hw => hw

theorem onShelf_takeAnswer : Obeys (.always NativeFault (OnShelf shelf)) takeAnswer := by
  refine (Obeys.read _).bind fun cues => ?_
  cases cues with
  | nil => exact .pure _
  | cons cue cues => exact Obeys.bind (.modify fun _ hw => hw) fun _ => (onShelf_pass _).bind fun _ => .pure _

theorem onShelf_statement (handle : Nat) : Obeys (.always NativeFault (OnShelf shelf)) (statement handle) := by
  refine (Obeys.read _).bind fun statements => ?_
  split
  · exact .pure _
  · exact .fail _

theorem onShelf_execute (feed : Prepared String → Feed → Feed) (handle : Nat) :
    Obeys (.always NativeFault (OnShelf shelf)) (execute feed handle) := by
  refine (onShelf_statement handle).bind fun p => Obeys.bind (.modify fun _ hw => hw) fun _ =>
    onShelf_takeAnswer.bind fun answer => ?_
  cases answer with
  | rows columns rows ending => exact .pure _
  | count n => exact .pure _
  | fault f => exact .fail _

theorem onShelf_executeBatch (handle : Nat) (entries : List (List Value)) :
    Obeys (.always NativeFault (OnShelf shelf)) (executeBatch handle entries) := by
  refine (onShelf_statement handle).bind fun p => Obeys.bind (.modify fun _ hw => hw) fun _ =>
    onShelf_takeAnswer.bind fun answer => ?_
  cases answer with
  | fault f => exact .fail _
  | rows | count => exact .pure _

end

/-- A statement that is prepared stands on the shelf, with the timeout that all get. A failure leaves the shelf, or
comes when the statement stands on it. -/
theorem ends_prepare (handle : Nat) (sql : String) (w : World Script) :
    let prepared : Shelf String :=
      w.link.statements.put handle { Prepared.ofBody sql with timeout := w.link.defaultTimeout }
    ends (prepare handle sql) (fun _ => OnShelf prepared)
      (fun _ v => OnShelf w.link.statements v ∨ OnShelf prepared v) (OnShelf prepared) w := by
  unfold prepare
  rw [ends_bind, Call.readLink, ends_read]
  split
  · exact .inl rfl
  · rw [ends_bind, Call.modifyLink, ends_modify]
    exact ends_mono (onShelf_pass _ _ rfl) (fun _ _ h => h) (fun _ _ h => .inr h) fun _ h => h

theorem ends_close (handle : Nat) (w : World Script) :
    ends (close handle) (fun _ => OnShelf (w.link.statements.erase handle)) (fun _ => OnShelf w.link.statements)
      (fun _ => False) w := by
  unfold close
  rw [ends_bind, Call.readLink, ends_read]
  split
  · exact rfl
  · exact rfl

theorem keeping_streaming : streaming.Keeping carried where
  prepare handle sql w := by
    have hput (v : World Script) (hv : OnShelf (w.link.statements.put handle
        { Prepared.ofBody sql with timeout := w.link.defaultTimeout }) v) :
        carried v.link = Function.update (carried w.link) handle (some (.fresh sql)) :=
      (congrArg carriedOn hv).trans (carriedOn_put w.link.statements)
    have hspared (v : World Script) (hv : OnShelf (w.link.statements.put handle
        { Prepared.ofBody sql with timeout := w.link.defaultTimeout }) v) :
        SparesOthers carried handle w.link v.link := fun other hother => by
      unfold texts
      rw [hput v hv, Function.update_of_ne hother]
    refine ends_mono (ends_prepare handle sql w) (fun _ => hput) (fun _ v hv => ?_) hspared
    rcases hv with hv | hv
    · exact fun other _ => congrFun (texts_of_carried (carried_of_statements hv)) other
    · exact hspared v hv
  bind handle position v w := by
    show ends (bind handle position v) _ _ _ w
    unfold bind
    have hbound : Alters carried handle (.bind position v) w.link (modifyStatement handle (·.bind position v) w.link) :=
      alters_modifyStatement (carriedBy_bind position v) w.link
    rw [ends_bind, ends_require]
    split
    · rw [ends_bind, Call.readLink, ends_read]
      split
      · rw [ends_bind, ends_require]
        split
        · exact hbound
        · rfl
      · exact hbound
    · rfl
  clearBindings handle s := alters_modifyStatement (fun _ => rfl) s
  limitRows handle n s := alters_modifyStatement (fun _ => rfl) s
  limitTime handle millis s := by
    have hsame : Alters carried handle id s (streaming.limitTime handle millis s) := alters_modifyStatement (fun _ => rfl) s
    unfold Alters at hsame
    rw [hsame, Option.map_id, id, Function.update_eq_self]
  execute handle := quiet_of_onShelf fun _ => onShelf_execute (fun p feed =>
    { feed with handle := some handle, rows := cutRows p.maxRows feed.rows }) handle
  executeBatch handle entries := quiet_of_onShelf fun _ => onShelf_executeBatch handle entries
  fetch handle := quiet_of_onShelf fun _ => (Obeys.read _).bind fun _ => .require _ _
  close handle w := by
    refine ends_mono (ends_close handle w) (fun _ v hv other hother => ?_) (fun _ v hv other _ => ?_) fun _ => False.elim
    · refine (congrFun (texts_of_carried (congrArg carriedOn hv)) other).trans ?_
      exact congrArg (Option.map Carried.sql) (carriedOn_erase w.link.statements hother)
    · exact congrFun (texts_of_carried (carried_of_statements hv)) other

theorem keeping_buffered : buffered.Keeping carried := by
  have hbase : Backend.Keeping carried { streaming with execute := execute fun _ feed => feed } :=
    { keeping_streaming with
      execute handle := quiet_of_onShelf fun _ => onShelf_execute (fun _ feed => feed) handle }
  exact { hbase with executeBatch handle entries := fun sqls => (hbase.mindsOpen sqls).executeEach handle entries }

end Script

end NamedSql
