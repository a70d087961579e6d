import NamedSql.Flow
import Mathlib

/-!
# Reasoning about results
-/

namespace NamedSql

section
variable {ε α β : Type} {x : Except ε α} {f : α → Except ε β}

theorem bind_eq_ok {b : β} : x >>= f = .ok b ↔ ∃ a, x = .ok a ∧ f a = .ok b := by
  cases x with
  | error e => exact ⟨nofun, nofun⟩
  | ok a =>
    refine ⟨fun h => ⟨a, rfl, h⟩, ?_⟩
    rintro ⟨a, ⟨⟩, h⟩
    exact h

theorem mapM_eq_ok {as : List α} {bs : List β} :
    as.mapM f = .ok bs ↔ List.Forall₂ (fun a b => f a = .ok b) as bs := by
  induction as generalizing bs with
  | nil =>
    rw [List.mapM_nil, List.forall₂_nil_left_iff]
    exact ⟨fun h => (Except.ok.inj h).symm, fun h => h ▸ rfl⟩
  | cons a as ih =>
    rw [List.mapM_cons, bind_eq_ok, List.forall₂_cons_left_iff]
    constructor
    · rintro ⟨b, hb, h⟩
      obtain ⟨bs', hbs, h⟩ := bind_eq_ok.1 h
      exact ⟨b, bs', hb, ih.1 hbs, (Except.ok.inj h).symm⟩
    · rintro ⟨b, bs', hb, hbs, rfl⟩
      exact ⟨b, hb, bind_eq_ok.2 ⟨bs', ih.2 hbs, rfl⟩⟩

end

instance {ε α : Type} (r : Outcome ε α) : Decidable (r = .overflow) :=
  match r with
  | .done _ => isFalse nofun
  | .failed _ => isFalse nofun
  | .overflow => isTrue rfl

instance {ε α : Type} (r : Outcome ε α) : Decidable (∃ a, r = .done a) :=
  match r with
  | .done a => isTrue ⟨a, rfl⟩
  | .failed _ => isFalse nofun
  | .overflow => isFalse nofun

namespace Flow

variable {ε σ τ α β : Type}

/-! ### Single steps -/

section
variable {f : α → Flow ε σ β} {s : σ}

theorem bind_done {m : Flow ε σ α} {a : α} {t : σ} (h : m s = (.done a, t)) : (m >>= f) s = f a t := by
  simp only [bind, Flow.bind, h]

theorem bind_failed {m : Flow ε σ α} {e : ε} {t : σ} (h : m s = (.failed e, t)) :
    (m >>= f) s = (.failed e, t) := by
  simp only [bind, Flow.bind, h]

theorem bind_overflow {m : Flow ε σ α} {t : σ} (h : m s = (.overflow, t)) :
    (m >>= f) s = (.overflow, t) := by
  simp only [bind, Flow.bind, h]

theorem bind_congr {m n : Flow ε σ α} (h : m s = n s) : (m >>= f) s = (n >>= f) s := by
  simp only [bind, Flow.bind, h]

theorem read_bind {g : σ → α} : (read g >>= f) s = f (g s) s := rfl

theorem ofCalendar_some {a : α} : (ofCalendar (some a) >>= f) s = f a s := rfl

theorem ofCalendar_none : (ofCalendar none >>= f) s = (.overflow, s) := rfl

theorem ofExcept_ok {a : α} : (ofExcept (.ok a) >>= f) s = f a s := rfl

theorem ofExcept_error {e : ε} : (ofExcept (.error e) >>= f) s = (.failed e, s) := rfl

end

/-- How actions end that are performed one after another, and the state that they leave. -/
def history (f : α → Flow ε σ β) : List α → σ → List (Outcome ε β) × σ
  | [], s => ([], s)
  | a :: as, s =>
    let (r, s) := f a s
    let (rs, s) := history f as s
    (r :: rs, s)

/-! ### What work leaves -/

/-- Whether the work from a state, unless a time runs out of the calendar, gives a value and leaves a state
with `Q`, or fails and leaves a state with `E`. -/
def wp (m : Flow ε σ α) (Q : α → σ → Prop) (E : ε → σ → Prop) (s : σ) : Prop :=
  match m s with
  | (.done a, s) => Q a s
  | (.failed e, s) => E e s
  | (.overflow, _) => True

section
variable {Q : α → σ → Prop} {E : ε → σ → Prop} {s : σ}

@[simp]
theorem wp_pure (a : α) : wp (Pure.pure a) Q E s ↔ Q a s := Iff.rfl

@[simp]
theorem wp_bind (m : Flow ε σ β) (f : β → Flow ε σ α) :
    wp (m >>= f) Q E s ↔ wp m (fun b => wp (f b) Q E) E s := by
  show wp (Flow.bind m f) Q E s ↔ _
  unfold wp Flow.bind
  rcases m s with ⟨_ | _ | _, t⟩ <;> rfl

@[simp]
theorem wp_map (f : β → α) (m : Flow ε σ β) : wp (f <$> m) Q E s ↔ wp m (fun b => Q (f b)) E s :=
  wp_bind m fun b => Pure.pure (f b)

@[simp]
theorem wp_discard {Q : Unit → σ → Prop} (m : Flow ε σ β) :
    wp (discard m) Q E s ↔ wp m (fun _ => Q ()) E s :=
  wp_map (fun _ => ()) m

@[simp]
theorem wp_fail (e : ε) : wp (fail e) Q E s ↔ E e s := Iff.rfl

@[simp]
theorem wp_read (f : σ → α) : wp (read f) Q E s ↔ Q (f s) s := Iff.rfl

@[simp]
theorem wp_modify {Q : Unit → σ → Prop} (f : σ → σ) : wp (modify f) Q E s ↔ Q () (f s) := Iff.rfl

theorem wp_require {Q : Unit → σ → Prop} (condition : Bool) (e : ε) :
    wp (require condition e) Q E s ↔ if condition then Q () s else E e s := by
  cases condition <;> rfl

theorem wp_attempt {ε' : Type} {Q : Except ε α → σ → Prop} {E : ε' → σ → Prop} (m : Flow ε σ α) :
    wp m.attempt Q E s ↔ wp m (fun a => Q (.ok a)) (fun e => Q (.error e)) s := by
  unfold wp attempt
  rcases m s with ⟨_ | _ | _, t⟩ <;> rfl

theorem wp_within {τ : Type} (part : Part σ τ) (m : Flow ε τ α) : wp (within part m) Q E s ↔
    wp m (fun a t => Q a (part.set t s)) (fun e t => E e (part.set t s)) (part.get s) := by
  unfold wp within
  rcases m (part.get s) with ⟨_ | _ | _, t⟩ <;> rfl

theorem wp_congr {m n : Flow ε σ α} (h : m s = n s) : wp m Q E s ↔ wp n Q E s := by
  unfold wp
  rw [h]

theorem wp_mono {m : Flow ε σ α} {Q' : α → σ → Prop} {E' : ε → σ → Prop} (h : wp m Q E s)
    (hQ : ∀ a t, Q a t → Q' a t) (hE : ∀ e t, E e t → E' e t) : wp m Q' E' s := by
  unfold wp at h ⊢
  rcases hm : m s with ⟨a | e | _, t⟩ <;> rw [hm] at h
  · exact hQ a t h
  · exact hE e t h
  · trivial

theorem wp.and {m : Flow ε σ α} {Q' : α → σ → Prop} {E' : ε → σ → Prop} (h : wp m Q E s)
    (h' : wp m Q' E' s) : wp m (fun a t => Q a t ∧ Q' a t) (fun e t => E e t ∧ E' e t) s := by
  unfold wp at h h' ⊢
  rcases hm : m s with ⟨a | e | _, t⟩ <;> rw [hm] at h h'
  · exact ⟨h, h'⟩
  · exact ⟨h, h'⟩
  · trivial

theorem wp_of_forall {m : Flow ε σ α} (hQ : ∀ a t, Q a t) (hE : ∀ e t, E e t) : wp m Q E s := by
  unfold wp
  rcases m s with ⟨a | e | _, t⟩
  · exact hQ a t
  · exact hE e t
  · trivial

/-- What is left holds of the state when the work does not run out of the calendar. -/
theorem wp.left {m : Flow ε σ α} {I : σ → Prop} (h : wp m (fun _ => I) (fun _ => I) s)
    (hm : (m s).1 ≠ .overflow) : I (m s).2 := by
  unfold wp at h
  rcases hms : m s with ⟨_ | _ | _, t⟩ <;> rw [hms] at h hm
  · exact h
  · exact h
  · exact absurd rfl hm

end

/-- However the work ends, what holds before it holds after it. -/
def Keeps (I : σ → Prop) (m : Flow ε σ α) : Prop :=
  ∀ s, I s → wp m (fun _ => I) (fun _ => I) s

namespace Keeps

variable {I : σ → Prop}

theorem pure (a : α) : Keeps I (Pure.pure a : Flow ε σ α) := fun _ h => h

theorem fail (e : ε) : Keeps I (Flow.fail e : Flow ε σ α) := fun _ h => h

theorem read (f : σ → α) : Keeps I (Flow.read f : Flow ε σ α) := fun _ h => h

theorem modify {f : σ → σ} (hf : ∀ s, I s → I (f s)) : Keeps I (Flow.modify f : Flow ε σ Unit) := hf

theorem ofOutcome (r : Outcome ε α) : Keeps I (Flow.ofOutcome r : Flow ε σ α) := by
  intro s h
  cases r with
  | overflow => trivial
  | _ => exact h

theorem ofExcept (r : Except ε α) : Keeps I (Flow.ofExcept r : Flow ε σ α) := ofOutcome _

theorem ofCalendar (r : Option α) : Keeps I (Flow.ofCalendar r : Flow ε σ α) := by
  intro s h
  cases r with
  | none => trivial
  | some a => exact h

theorem require (condition : Bool) (e : ε) : Keeps I (Flow.require condition e : Flow ε σ Unit) := by
  intro s h
  rw [wp_require]
  split <;> exact h

theorem bind {m : Flow ε σ β} {f : β → Flow ε σ α} (hm : Keeps I m) (hf : ∀ b, Keeps I (f b)) :
    Keeps I (m >>= f) := by
  intro s h
  rw [wp_bind]
  exact wp_mono (hm s h) (fun b => hf b) fun _ _ h => h

/-- Work whose failures are caught, and then further work. -/
theorem attemptThen {ε' : Type} {m : Flow ε σ β} {f : Except ε β → Flow ε' σ α} {Q : α → σ → Prop}
    {E : ε' → σ → Prop} {s : σ} (hm : Keeps I m) (hs : I s) (hf : ∀ r t, I t → wp (f r) Q E t) :
    wp (m.attempt >>= f) Q E s := by
  rw [wp_bind, wp_attempt]
  exact wp_mono (hm s hs) (fun b => hf (.ok b)) fun e => hf (.error e)

theorem map {m : Flow ε σ β} (hm : Keeps I m) (f : β → α) : Keeps I (f <$> m) :=
  hm.bind fun b => pure (f b)

theorem discard {m : Flow ε σ β} (hm : Keeps I m) : Keeps I (discard m) := hm.map _

theorem attempt {ε' : Type} {m : Flow ε σ α} (hm : Keeps I m) :
    Keeps I (m.attempt : Flow ε' σ (Except ε α)) := by
  intro s h
  rw [wp_attempt]
  exact hm s h

theorem within {τ : Type} {part : Part σ τ} {m : Flow ε τ α}
    (hm : ∀ s, I s → wp m (fun _ t => I (part.set t s)) (fun _ t => I (part.set t s)) (part.get s)) :
    Keeps I (within part m) := by
  intro s h
  rw [wp_within]
  exact hm s h

end Keeps

/-- Work all of whose values have a property. -/
def Gives (P : α → Prop) (m : Flow ε σ α) : Prop :=
  ∀ s, wp m (fun a _ => P a) (fun _ _ => True) s

namespace Gives

variable {P : α → Prop}

theorem pure {a : α} (h : P a) : Gives P (Pure.pure a : Flow ε σ α) := fun _ => h

theorem fail (e : ε) : Gives P (Flow.fail e : Flow ε σ α) := fun _ => trivial

theorem bind {m : Flow ε σ β} {f : β → Flow ε σ α} (hf : ∀ b, Gives P (f b)) : Gives P (m >>= f) := by
  intro s
  rw [wp_bind]
  exact wp_of_forall (fun b t => hf b t) fun _ _ => trivial

theorem map {m : Flow ε σ β} {f : β → α} (hf : ∀ b, P (f b)) : Gives P (f <$> m) :=
  bind fun b => pure (hf b)

end Gives

/-! ### Work on two states -/

/-- From related states the work on both ends in the same way and leaves related states. -/
def Alike (R : σ → τ → Prop) (m : Flow ε σ α) (n : Flow ε τ α) : Prop :=
  ∀ ⦃s t⦄, R s t → (m s).1 = (n t).1 ∧ R (m s).2 (n t).2

namespace Alike

variable {R : σ → τ → Prop}

theorem pure (a : α) : Alike R (Pure.pure a : Flow ε σ α) (Pure.pure a) :=
  fun _ _ h => ⟨rfl, h⟩

theorem bind {m : Flow ε σ α} {n : Flow ε τ α} {f : α → Flow ε σ β} {g : α → Flow ε τ β}
    (hm : Alike R m n) (hf : ∀ a, Alike R (f a) (g a)) : Alike R (m >>= f) (n >>= g) := by
  intro s t h
  obtain ⟨he, hs⟩ := hm h
  show (Flow.bind m f s).1 = (Flow.bind n g t).1 ∧ R (Flow.bind m f s).2 (Flow.bind n g t).2
  unfold Flow.bind
  rcases hms : m s with ⟨x, s'⟩
  rcases hnt : n t with ⟨y, t'⟩
  rw [hms, hnt] at he hs
  obtain rfl : x = y := he
  cases x with
  | done a => exact hf a hs
  | failed e => exact ⟨rfl, hs⟩
  | overflow => exact ⟨rfl, hs⟩

/-- What changes only one of the states afterwards may leave them related. -/
theorem followed {m : Flow ε σ Unit} {n : Flow ε τ Unit} {g : τ → τ} (hm : Alike R m n)
    (hg : ∀ s t, R s t → R s (g t)) : Alike R m (n >>= fun _ => Flow.modify g) := by
  intro s t h
  obtain ⟨he, hs⟩ := hm h
  rcases hnt : n t with ⟨y, t'⟩
  rw [hnt] at he hs
  cases y with
  | done u =>
    rw [bind_done hnt]
    exact ⟨he, hg _ _ hs⟩
  | failed e =>
    rw [bind_failed hnt]
    exact ⟨he, hs⟩
  | overflow =>
    rw [bind_overflow hnt]
    exact ⟨he, hs⟩

theorem map {m : Flow ε σ α} {n : Flow ε τ α} (f : α → β) (hm : Alike R m n) :
    Alike R (f <$> m) (f <$> n) :=
  hm.bind fun a => pure (f a)

theorem discard {m : Flow ε σ α} {n : Flow ε τ α} (hm : Alike R m n) :
    Alike R (Functor.discard m) (Functor.discard n) := hm.map _

theorem fail (e : ε) : Alike R (Flow.fail e : Flow ε σ α) (Flow.fail e) :=
  fun _ _ h => ⟨rfl, h⟩

theorem read {f : σ → α} {g : τ → α} (h : ∀ s t, R s t → f s = g t) :
    Alike R (Flow.read f : Flow ε σ α) (Flow.read g) :=
  fun s t hst => ⟨congrArg Outcome.done (h s t hst), hst⟩

/-- What is read may differ if what follows on it does the same. -/
theorem readThen {γ γ' : Type} {f : σ → γ} {g : τ → γ'} {k : γ → Flow ε σ α} {k' : γ' → Flow ε τ α}
    (h : ∀ s t, R s t → Alike R (k (f s)) (k' (g t))) : Alike R (Flow.read f >>= k) (Flow.read g >>= k') :=
  fun s t hst => h s t hst hst

theorem modify {f : σ → σ} {g : τ → τ} (h : ∀ s t, R s t → R (f s) (g t)) :
    Alike R (Flow.modify f : Flow ε σ Unit) (Flow.modify g) :=
  fun s t hst => ⟨rfl, h s t hst⟩

theorem ofOutcome (r : Outcome ε α) : Alike R (Flow.ofOutcome r : Flow ε σ α) (Flow.ofOutcome r) :=
  fun _ _ h => ⟨rfl, h⟩

theorem ofExcept (r : Except ε α) : Alike R (Flow.ofExcept r : Flow ε σ α) (Flow.ofExcept r) := ofOutcome _

theorem ofCalendar (r : Option α) : Alike R (Flow.ofCalendar r : Flow ε σ α) (Flow.ofCalendar r) := by
  intro s t h
  cases r with
  | none => exact ⟨rfl, h⟩
  | some a => exact ⟨rfl, h⟩

theorem require (condition : Bool) (e : ε) :
    Alike R (Flow.require condition e : Flow ε σ Unit) (Flow.require condition e) := by
  intro s t h
  cases condition with
  | true => exact ⟨rfl, h⟩
  | false => exact ⟨rfl, h⟩

theorem attempt {ε' : Type} {m : Flow ε σ α} {n : Flow ε τ α} (hm : Alike R m n) :
    Alike R (m.attempt : Flow ε' σ (Except ε α)) n.attempt := by
  intro s t h
  obtain ⟨he, hs⟩ := hm h
  unfold Flow.attempt
  rcases hms : m s with ⟨x, s'⟩
  rcases hnt : n t with ⟨y, t'⟩
  rw [hms, hnt] at he hs
  obtain rfl : x = y := he
  cases x with
  | done a => exact ⟨rfl, hs⟩
  | failed e => exact ⟨rfl, hs⟩
  | overflow => exact ⟨rfl, hs⟩

theorem within {σ' τ' : Type} {S : σ' → τ' → Prop} {p : Part σ σ'} {q : Part τ τ'} {m : Flow ε σ' α}
    {n : Flow ε τ' α} (hm : Alike S m n) (hget : ∀ s t, R s t → S (p.get s) (q.get t))
    (hset : ∀ s t s' t', R s t → S s' t' → R (p.set s' s) (q.set t' t)) :
    Alike R (within p m) (within q n) := by
  intro s t h
  obtain ⟨he, hs⟩ := hm (hget s t h)
  exact ⟨he, hset s t _ _ h hs⟩

/-- Work on what is read off a state does what the work on the state does. -/
theorem image {f : τ → σ} {m : Flow ε σ α} {n : Flow ε τ α} (hR : ∀ {s t}, R s t ↔ s = f t) (h : Alike R m n)
    {t t' : τ} {r : Outcome ε α} (hn : n t = (r, t')) : m (f t) = (r, f t') := by
  obtain ⟨hr, hs⟩ := h (hR.2 (Eq.refl (f t)))
  rw [hn] at hr hs
  exact Prod.ext hr (hR.1 hs)

/-- Histories of actions that are alike are alike. -/
theorem history {f : α → Flow ε σ β} {g : α → Flow ε τ β} {as : List α}
    (hf : ∀ a ∈ as, Alike R (f a) (g a)) {s : σ} {t : τ} (h : R s t) :
    (history f as s).1 = (history g as t).1 ∧ R (history f as s).2 (history g as t).2 := by
  induction as generalizing s t with
  | nil => exact ⟨rfl, h⟩
  | cons a as ih =>
    obtain ⟨ha, hs⟩ := hf a List.mem_cons_self h
    obtain ⟨has, hend⟩ := ih (fun a ha => hf a (List.mem_cons_of_mem _ ha)) hs
    exact ⟨congrArg₂ List.cons ha has, hend⟩

end Alike

end Flow

end NamedSql
