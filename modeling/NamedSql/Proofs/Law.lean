import NamedSql.Proofs.Flow

/-!
# Laws of work

`Flow.ends` says what work leaves in each of the three ways in which it can end. A `Law` says of states
whether work may go on in them, have failed in them, or have stopped in them because a time ran out of the
calendar. Work that obeys a law and starts where work may go on ends as the law says, so work that is put
together of such parts obeys it as well.
-/

namespace NamedSql

namespace Flow

variable {ε σ τ α β : Type}

/-! ### The three ends -/

/-- Whether the work from a state gives a value and leaves a state with `Q`, or fails and leaves a state
with `E`, or runs out of the calendar and leaves a state with `O`. -/
def ends (m : Flow ε σ α) (Q : α → σ → Prop) (E : ε → σ → Prop) (O : σ → Prop) (s : σ) : Prop :=
  match m s with
  | (.done a, s) => Q a s
  | (.failed e, s) => E e s
  | (.overflow, s) => O s

section
variable {Q : α → σ → Prop} {E : ε → σ → Prop} {O : σ → Prop} {s : σ}

@[simp]
theorem ends_pure (a : α) : ends (Pure.pure a) Q E O s ↔ Q a s := Iff.rfl

@[simp]
theorem ends_bind (m : Flow ε σ β) (f : β → Flow ε σ α) :
    ends (m >>= f) Q E O s ↔ ends m (fun b => ends (f b) Q E O) E O s := by
  show ends (Flow.bind m f) Q E O s ↔ _
  unfold ends Flow.bind
  rcases m s with ⟨_ | _ | _, t⟩ <;> rfl

@[simp]
theorem ends_map (f : β → α) (m : Flow ε σ β) :
    ends (f <$> m) Q E O s ↔ ends m (fun b => Q (f b)) E O s :=
  ends_bind m fun b => Pure.pure (f b)

@[simp]
theorem ends_fail (e : ε) : ends (fail e) Q E O s ↔ E e s := Iff.rfl

@[simp]
theorem ends_read (f : σ → α) : ends (read f) Q E O s ↔ Q (f s) s := Iff.rfl

@[simp]
theorem ends_modify {Q : Unit → σ → Prop} (f : σ → σ) : ends (modify f) Q E O s ↔ Q () (f s) := Iff.rfl

theorem ends_ofExcept (r : Except ε α) :
    ends (ofExcept r) Q E O s ↔
      match r with
      | .ok a => Q a s
      | .error e => E e s := by
  cases r <;> rfl

theorem ends_ofCalendar (r : Option α) :
    ends (ofCalendar r) Q E O s ↔
      match r with
      | some a => Q a s
      | none => O s := by
  cases r <;> rfl

theorem ends_require {Q : Unit → σ → Prop} (condition : Bool) (e : ε) :
    ends (require condition e) Q E O s ↔ if condition then Q () s else E e s := by
  cases condition <;> rfl

theorem ends_attempt {ε' : Type} {Q : Except ε α → σ → Prop} {E : ε' → σ → Prop} (m : Flow ε σ α) :
    ends m.attempt Q E O s ↔ ends m (fun a => Q (.ok a)) (fun e => Q (.error e)) O s := by
  unfold ends attempt
  rcases m s with ⟨_ | _ | _, t⟩ <;> rfl

theorem ends_orUndo (undo : σ → σ) (m : Flow ε σ α) : ends (orUndo undo m) Q E O s ↔
    ends m Q (fun e t => E e (undo t)) (fun t => O (undo t)) s := by
  unfold ends orUndo
  rcases m s with ⟨_ | _ | _, t⟩ <;> rfl

theorem ends_within (part : Part σ τ) (m : Flow ε τ α) : ends (within part m) Q E O s ↔
    ends m (fun a t => Q a (part.set t s)) (fun e t => E e (part.set t s)) (fun t => O (part.set t s))
      (part.get s) := by
  unfold ends within
  rcases m (part.get s) with ⟨_ | _ | _, t⟩ <;> rfl

theorem ends_mono {m : Flow ε σ α} {Q' : α → σ → Prop} {E' : ε → σ → Prop} {O' : σ → Prop}
    (h : ends m Q E O s) (hQ : ∀ a t, Q a t → Q' a t) (hE : ∀ e t, E e t → E' e t)
    (hO : ∀ t, O t → O' t) : ends m Q' E' O' s := by
  unfold ends at h ⊢
  rcases hm : m s with ⟨a | e | _, t⟩ <;> rw [hm] at h
  · exact hQ a t h
  · exact hE e t h
  · exact hO t h

theorem ends.bind {R : β → σ → Prop} {m : Flow ε σ β} {f : β → Flow ε σ α} (hm : ends m R E O s)
    (hf : ∀ b t, R b t → ends (f b) Q E O t) : ends (m >>= f) Q E O s :=
  (ends_bind m f).2 (ends_mono hm hf (fun _ _ h => h) fun _ h => h)

theorem ends_of_forall {m : Flow ε σ α} (hQ : ∀ a t, Q a t) (hE : ∀ e t, E e t) (hO : ∀ t, O t) :
    ends m Q E O s := by
  unfold ends
  rcases m s with ⟨a | e | _, t⟩
  · exact hQ a t
  · exact hE e t
  · exact hO t

theorem ends.and {Q' : α → σ → Prop} {E' : ε → σ → Prop} {O' : σ → Prop} {m : Flow ε σ α} (h : ends m Q E O s)
    (h' : ends m Q' E' O' s) :
    ends m (fun a t => Q a t ∧ Q' a t) (fun e t => E e t ∧ E' e t) (fun t => O t ∧ O' t) s := by
  unfold ends at h h' ⊢
  rcases hm : m s with ⟨a | e | _, t⟩ <;> rw [hm] at h h' <;> exact ⟨h, h'⟩

theorem ends.left {m : Flow ε σ α} {I : σ → Prop} (h : ends m (fun _ => I) (fun _ => I) I s) :
    I (m s).2 := by
  unfold ends at h
  rcases hm : m s with ⟨_ | _ | _, t⟩ <;> rw [hm] at h <;> exact h

/-! ### Work with a known end -/

theorem ends_self (m : Flow ε σ α) (s : σ) :
    ends m (fun a t => m s = (.done a, t)) (fun e t => m s = (.failed e, t)) (fun t => m s = (.overflow, t)) s := by
  unfold ends
  rcases m s with ⟨_ | _ | _, t⟩ <;> rfl

/-- Work that is known to give a result is known by what it leaves then. -/
theorem ends_of_done {m : Flow ε σ α} {a : α} {t : σ} (hm : m s = (.done a, t)) : ends m Q E O s ↔ Q a t := by
  unfold ends
  rw [hm]

theorem ends_of_failed {m : Flow ε σ α} {e : ε} {t : σ} (hm : m s = (.failed e, t)) : ends m Q E O s ↔ E e t := by
  unfold ends
  rw [hm]

theorem returns_iff {m : Flow ε σ α} :
    ends m Q (fun _ _ => False) (fun _ => False) s ↔ ∃ a t, m s = (.done a, t) ∧ Q a t := by
  unfold ends
  rcases m s with ⟨a | e | _, t⟩
  · simp
  · simp
  · simp

theorem bind_eq_done {m : Flow ε σ α} {f : α → Flow ε σ β} {r : β} {t : σ} :
    (m >>= f) s = (.done r, t) ↔ ∃ a u, m s = (.done a, u) ∧ f a u = (.done r, t) := by
  rcases hm : m s with ⟨a | e | _, u⟩
  · simp [bind_done hm]
  · simp [bind_failed hm]
  · simp [bind_overflow hm]

end

end Flow

open NamedSql.Flow

/-- What is said of the states in which work may go on, of those in which it has failed, and of those in
which it has stopped. Work can fail and can stop wherever it may go on. -/
structure Law (ε σ : Type) where
  going : σ → Prop
  failed : ε → σ → Prop
  stopped : σ → Prop
  fails : ∀ {s}, going s → ∀ e, failed e s
  stops : ∀ {s}, going s → stopped s

/-- The law that something always holds. -/
def Law.always {σ : Type} (ε : Type) (I : σ → Prop) : Law ε σ where
  going := I
  failed _ := I
  stopped := I
  fails h _ := h
  stops h := h

/-- From where work may go on it ends as the law says. -/
def Obeys {ε σ α : Type} (L : Law ε σ) (m : Flow ε σ α) : Prop :=
  ∀ s, L.going s → ends m (fun _ => L.going) L.failed L.stopped s

namespace Obeys

variable {ε σ τ α β : Type} {L : Law ε σ}

theorem pure (a : α) : Obeys L (Pure.pure a : Flow ε σ α) := fun _ h => h

theorem fail (e : ε) : Obeys L (Flow.fail e : Flow ε σ α) := fun _ h => L.fails h e

theorem read (f : σ → α) : Obeys L (Flow.read f : Flow ε σ α) := fun _ h => h

theorem modify {f : σ → σ} (hf : ∀ s, L.going s → L.going (f s)) :
    Obeys L (Flow.modify f : Flow ε σ Unit) := hf

theorem ofOutcome (r : Outcome ε α) : Obeys L (Flow.ofOutcome r : Flow ε σ α) := by
  intro s h
  cases r with
  | done a => exact h
  | failed e => exact L.fails h e
  | overflow => exact L.stops h

theorem ofExcept (r : Except ε α) : Obeys L (Flow.ofExcept r : Flow ε σ α) := ofOutcome _

theorem ofCalendar (r : Option α) : Obeys L (Flow.ofCalendar r : Flow ε σ α) := by
  intro s h
  cases r with
  | none => exact L.stops h
  | some a => exact h

theorem require (condition : Bool) (e : ε) : Obeys L (Flow.require condition e : Flow ε σ Unit) := by
  intro s h
  rw [ends_require]
  split
  · exact h
  · exact L.fails h e

theorem bind {m : Flow ε σ β} {f : β → Flow ε σ α} (hm : Obeys L m) (hf : ∀ b, Obeys L (f b)) :
    Obeys L (m >>= f) :=
  fun s h => (hm s h).bind fun b => hf b

theorem map {m : Flow ε σ β} (hm : Obeys L m) (f : β → α) : Obeys L (f <$> m) :=
  hm.bind fun b => pure (f b)

theorem discard {m : Flow ε σ β} (hm : Obeys L m) : Obeys L (Functor.discard m) := hm.map _

theorem within {part : Part σ τ} {m : Flow ε τ α}
    (hm : ∀ s, L.going s → ends m (fun _ t => L.going (part.set t s)) (fun e t => L.failed e (part.set t s))
      (fun t => L.stopped (part.set t s)) (part.get s)) :
    Obeys L (within part m) := by
  intro s h
  rw [ends_within]
  exact hm s h

theorem attempt {ε' : Type} {I : σ → Prop} {m : Flow ε σ α} (hm : Obeys (.always ε I) m) :
    Obeys (.always ε' I) m.attempt :=
  fun s hs => (ends_attempt m).2 (hm s hs)

theorem thenEnds {I : σ → Prop} {m : Flow ε σ β} {f : β → Flow ε σ α} {Q : α → σ → Prop}
    {E : ε → σ → Prop} {O : σ → Prop} {s : σ} (hm : Obeys (.always ε I) m) (hs : I s)
    (hE : ∀ e t, I t → E e t) (hO : ∀ t, I t → O t) (hf : ∀ b t, I t → ends (f b) Q E O t) :
    ends (m >>= f) Q E O s := by
  rw [ends_bind]
  exact ends_mono (hm s hs) hf hE hO

/-- Work whose failures are caught, and then further work, which starts from what the failure left. -/
theorem attemptThen {m : Flow ε σ β} {f : Except ε β → Flow ε σ α} {Q : α → σ → Prop}
    {E : ε → σ → Prop} {O : σ → Prop} {s : σ} (hm : Obeys L m) (hs : L.going s)
    (hok : ∀ b t, L.going t → ends (f (.ok b)) Q E O t)
    (herror : ∀ e t, L.failed e t → ends (f (.error e)) Q E O t) (hstopped : ∀ t, L.stopped t → O t) :
    ends (m.attempt >>= f) Q E O s := by
  rw [ends_bind, ends_attempt]
  exact ends_mono (hm s hs) hok herror hstopped

end Obeys

end NamedSql
