import NamedSql.Hook
import NamedSql.Statement
import NamedSql.Proofs.Flow

/-!
# Values that vary

A `Variation` tells which values may stand for each other in two runs. Parameters, bindings and filled templates
vary with the values in them. Filling a template, converting values and the hooks end in the same way on both
sides, with results that vary in turn; a failure is the same unless it holds a value (`Failure.Varies`).
-/

namespace NamedSql

/-! ### Results that belong together -/

section
variable {ε α β : Type}

/-- Both results are values that belong together or errors that do. -/
inductive Except.Pair (E : ε → ε → Prop) (A : α → β → Prop) : Except ε α → Except ε β → Prop where
  | ok {a : α} {b : β} : A a b → Pair E A (.ok a) (.ok b)
  | error {e f : ε} : E e f → Pair E A (.error e) (.error f)

/-- Both outcomes are values that belong together, or failures that do, or there is no time for both. -/
inductive Outcome.Pair (E : ε → ε → Prop) (A : α → β → Prop) : Outcome ε α → Outcome ε β → Prop where
  | done {a : α} {b : β} : A a b → Pair E A (.done a) (.done b)
  | failed {e f : ε} : E e f → Pair E A (.failed e) (.failed f)
  | overflow : Pair E A .overflow .overflow

variable {α' β' : Type} {E : ε → ε → Prop} {A : α → β → Prop} {B : α' → β' → Prop}

theorem Outcome.Pair.ofExcept {x : Except ε α} {y : Except ε β} (h : Except.Pair E A x y) :
    Outcome.Pair E A (.ofExcept x) (.ofExcept y) := by
  cases h with
  | ok h => exact .done h
  | error h => exact .failed h

theorem rel_getElem? {as : List α} {bs : List β} (h : List.Forall₂ A as bs) (n : Nat) :
    Option.Rel A as[n]? bs[n]? := by
  induction h generalizing n with
  | nil => exact .none
  | cons hab _ ih =>
    cases n with
    | zero => exact .some hab
    | succ n => exact ih n

namespace Except.Pair

theorem bind {x : Except ε α} {y : Except ε β} {f : α → Except ε α'} {g : β → Except ε β'} (h : Pair E A x y)
    (hf : ∀ a b, A a b → Pair E B (f a) (g b)) : Pair E B (x >>= f) (y >>= g) := by
  cases h with
  | ok h => exact hf _ _ h
  | error h => exact .error h

theorem mapM {as : List α} {bs : List β} {f : α → Except ε α'} {g : β → Except ε β'} (h : List.Forall₂ A as bs)
    (hf : ∀ a b, A a b → Pair E B (f a) (g b)) : Pair E (List.Forall₂ B) (as.mapM f) (bs.mapM g) := by
  induction h with
  | nil => exact .ok .nil
  | cons hab _ ih =>
    rw [List.mapM_cons, List.mapM_cons]
    exact (hf _ _ hab).bind fun _ _ ha => ih.bind fun _ _ has => .ok (.cons ha has)

end Except.Pair

/-- The same keys in the same order, with things that belong together. -/
def Keyed {κ : Type} (A : α → β → Prop) : List (κ × α) → List (κ × β) → Prop :=
  List.Forall₂ fun e f => e.1 = f.1 ∧ A e.2 f.2

namespace Keyed

variable {κ : Type} {x : List (κ × α)} {y : List (κ × β)}

theorem keys (h : Keyed A x y) : x.map Prod.fst = y.map Prod.fst := by
  induction h with
  | nil => rfl
  | cons hef _ ih => rw [List.map_cons, List.map_cons, hef.1, ih]

theorem lookup [BEq κ] (h : Keyed A x y) (key : κ) : Option.Rel A (x.lookup key) (y.lookup key) := by
  induction h with
  | nil => exact .none
  | @cons e f _ _ hef _ ih =>
    obtain ⟨other, a⟩ := e
    obtain ⟨other', b⟩ := f
    obtain ⟨rfl, hab⟩ : other = other' ∧ A a b := hef
    rw [List.lookup_cons, List.lookup_cons]
    cases key == other with
    | true => exact .some hab
    | false => exact ih

theorem filter (h : Keyed A x y) (keep : κ → Bool) :
    Keyed A (x.filter fun e => keep e.1) (y.filter fun e => keep e.1) := by
  induction h with
  | nil => exact .nil
  | @cons e f _ _ hef _ ih =>
    rw [List.filter_cons, List.filter_cons, hef.1]
    split_ifs
    · exact .cons hef ih
    · exact ih

end Keyed

end

/-! ### Variations -/

/-- Which values may stand for each other: each for itself, and only such of one kind. What is made of texts that
may stand for each other may do so as well. -/
structure Variation where
  value : Value → Value → Prop
  refl : ∀ v, value v v
  kind : ∀ {v w}, value v w → v.kind? = w.kind?
  text : ∀ {s t}, value (.text s) (.text t) → ∀ f : String → String, value (.text (f s)) (.text (f t))

variable (V : Variation)

/-- No text shows which of the values it was. -/
def Variation.Masked : Prop :=
  ∀ ⦃v w⦄, V.value v w → v.render = w.render

/-- Values that a database may get for ones that vary. -/
def Variation.Bound (x y : Value) : Prop :=
  ∃ (vendor : Vendor) (v w : Value), V.value v w ∧ vendor.toBound v = .ok x ∧ vendor.toBound w = .ok y

/-- Parameters of one form with values that vary; a stream varies as its bytes do. -/
inductive Param.Varies : Param → Param → Prop where
  | value {v w : Value} : V.value v w → Varies (.value v) (.value w)
  | sequence {vs ws : List Value} : List.Forall₂ V.value vs ws → Varies (.sequence vs) (.sequence ws)
  | stream {a b : List UInt8} : V.value (.blob a) (.blob b) → Varies (.stream a) (.stream b)

/-- Bindings of the same keys. -/
def Bindings.Varies (b c : Bindings) : Prop :=
  Keyed (Param.Varies V) b.entries c.entries

/-- The same SQL with values that vary. -/
structure Filled.Varies (f g : Filled) : Prop where
  sql : f.sql = g.sql
  values : List.Forall₂ V.value f.values g.values

/-- The same fault, or that of a value that is no text where values vary. -/
inductive BindingFault.Varies : BindingFault → BindingFault → Prop where
  | refl (fault : BindingFault) : Varies fault fault
  | notText (name : String) {v w : Value} : V.value v w → Varies (.notText name v) (.notText name w)

inductive Failure.Varies : Failure → Failure → Prop where
  | refl (e : Failure) : Varies e e
  | binding {x y : BindingFault} : x.Varies V y → Varies (.binding x) (.binding y)

/-- Hooks that end in the same way on bindings that vary. -/
def Hook.Varies (h k : Hook) : Prop :=
  ∀ now ⦃b c⦄, b.Varies V c → Outcome.Pair (Failure.Varies V) (Bindings.Varies V) (h now b) (k now c)

variable {V}

/-! ### Values and parameters -/

/-- Every value has a form for the database. -/
theorem Vendor.exists_toBound (vendor : Vendor) (v : Value) : ∃ x, vendor.toBound v = .ok x := by
  cases v with
  | text s =>
    cases vendor with
    | oracle =>
      unfold toBound adjust
      dsimp only
      cases s.isEmpty with
      | true => exact ⟨.null, rfl⟩
      | false => exact ⟨.text s, rfl⟩
    | _ => exact ⟨_, rfl⟩
  | _ => cases vendor <;> exact ⟨_, rfl⟩

namespace Variation

theorem exists_bound (vendor : Vendor) {v w : Value} (h : V.value v w) :
    ∃ x y, vendor.toBound v = .ok x ∧ vendor.toBound w = .ok y ∧ V.Bound x y := by
  obtain ⟨x, hx⟩ := vendor.exists_toBound v
  obtain ⟨y, hy⟩ := vendor.exists_toBound w
  exact ⟨x, y, hx, hy, vendor, v, w, h, hx, hy⟩

theorem boundValues {E : Failure → Failure → Prop} (vendor : Vendor) {vs ws : List Value}
    (h : List.Forall₂ V.value vs ws) : Except.Pair E (List.Forall₂ V.Bound) (Statement.boundValues vendor vs)
      (Statement.boundValues vendor ws) := by
  refine .mapM h fun v w hvw => ?_
  obtain ⟨x, y, hx, hy, hxy⟩ := exists_bound vendor hvw
  rw [hx, hy]
  exact .ok hxy

theorem map_render (hV : V.Masked) {vs ws : List Value} (h : List.Forall₂ V.value vs ws) :
    vs.map Value.render = ws.map Value.render := by
  induction h with
  | nil => rfl
  | cons hvw _ ih => rw [List.map_cons, List.map_cons, hV hvw, ih]

end Variation

namespace Param.Varies

theorem refl (p : Param) : p.Varies V p := by
  cases p with
  | value v => exact .value (V.refl v)
  | sequence items => exact .sequence (List.forall₂_same.2 fun v _ => V.refl v)
  | stream payload => exact .stream (V.refl _)

theorem render (hV : V.Masked) {p q : Param} (h : p.Varies V q) : p.render = q.render := by
  cases h with
  | value h => exact hV h
  | sequence h => rw [Param.render, Param.render, Variation.map_render hV h]
  | stream h => rfl

end Param.Varies

/-! ### Bindings -/

namespace Bindings.Varies

variable {b b' c c' : Bindings}

theorem empty : Varies V Bindings.empty Bindings.empty := .nil

theorem refl (b : Bindings) : b.Varies V b := List.forall₂_same.2 fun e _ => ⟨rfl, .refl e.2⟩

theorem get? (h : b.Varies V c) (key : Key) : Option.Rel (Param.Varies V) (b.get? key) (c.get? key) := by
  obtain ⟨es⟩ := b
  obtain ⟨fs⟩ := c
  have hentries : Keyed (Param.Varies V) es fs := h
  clear h
  unfold Bindings.get?
  dsimp only
  induction hentries with
  | nil => exact .none
  | cons hef _ ih =>
    rw [List.find?_cons, List.find?_cons, hef.1]
    split
    · exact .some hef.2
    · exact ih

theorem putEntry (key : Key) {p q : Param} (hpq : p.Varies V q) {es fs : List (Key × Param)}
    (h : Keyed (Param.Varies V) es fs) :
    Keyed (Param.Varies V) (putEntry key p es) (putEntry key q fs) := by
  induction h with
  | nil => exact .cons ⟨rfl, hpq⟩ .nil
  | @cons e f es fs hef hrest ih =>
    obtain ⟨k, x⟩ := e
    obtain ⟨l, y⟩ := f
    obtain rfl : k = l := hef.1
    rw [Bindings.putEntry, Bindings.putEntry]
    split_ifs
    · exact .cons ⟨rfl, hpq⟩ hrest
    · exact .cons ⟨rfl, hpq⟩ (.cons hef hrest)
    · exact .cons hef ih

theorem insert (h : b.Varies V c) (key : Key) {p q : Param} (hpq : p.Varies V q) :
    (b.insert key p).Varies V (c.insert key q) := putEntry key hpq h

theorem union (h : b.Varies V c) (h' : b'.Varies V c') : (b.union b').Varies V (c.union c') := by
  obtain ⟨es⟩ := b'
  obtain ⟨fs⟩ := c'
  unfold Bindings.union
  have hes : Keyed (Param.Varies V) es fs := h'
  clear h'
  dsimp only
  induction hes generalizing b c with
  | nil => exact h
  | @cons e f es fs hef _ ih =>
    rw [List.foldl_cons, List.foldl_cons, hef.1]
    exact ih (h.insert f.1 hef.2)

theorem render (hV : V.Masked) (h : b.Varies V c) : b.render = c.render := by
  have hentries {es fs : List (Key × Param)} (h : Keyed (Param.Varies V) es fs) :
      (es.map fun e => e.1.render ++ "=" ++ e.2.render) = fs.map fun e => e.1.render ++ "=" ++ e.2.render := by
    induction h with
    | nil => rfl
    | cons hef _ ih => rw [List.map_cons, List.map_cons, hef.1, hef.2.render hV, ih]
  rw [Bindings.render, Bindings.render, hentries h]

end Bindings.Varies

/-! ### Failures -/

theorem BindingFault.Varies.message (hV : V.Masked) {x y : BindingFault} (h : x.Varies V y) :
    x.message = y.message := by
  cases h with
  | refl => rfl
  | notText name h => exact congrArg ("like parameter :" ++ name ++ " requires text, got " ++ ·) (hV h)

/-- Where no text shows the values, failures read the same. -/
theorem Failure.Varies.message (hV : V.Masked) {e f : Failure} (h : e.Varies V f) : e.message = f.message := by
  cases h with
  | refl => rfl
  | binding h => exact congrArg ("Parameter binding error: " ++ ·) (h.message hV)

/-! ### Templates -/

namespace Marker

theorem varies_pick (m : Marker) {p q : Param} (h : p.Varies V q) :
    Except.Pair (BindingFault.Varies V) (List.Forall₂ V.value) (m.pick p) (m.pick q) := by
  unfold pick
  cases h with
  | value h =>
    rcases m.subscript with _ | _ | n
    · exact .ok (.cons h .nil)
    · exact .ok (.cons h .nil)
    · exact .error (.refl (.needsSequence m.name n))
  | @sequence vs ws h =>
    rcases m.subscript with _ | _ | n
    · exact .error (.refl (.sequenceForScalar m.name))
    · cases h with
      | nil => exact .error (.refl (.emptySequence m.name))
      | cons hvw hrest => exact .ok (.cons hvw hrest)
    · dsimp only
      rw [h.length_eq]
      have hitem := rel_getElem? h n
      generalize vs[n]? = x, ws[n]? = y at hitem ⊢
      cases hitem with
      | some h => exact .ok (.cons h .nil)
      | none => exact .error (.refl (.subscriptOutOfRange n m.name ws.length))
  | stream h =>
    rcases m.subscript with _ | _ | n
    · exact .ok (.cons h .nil)
    · exact .ok (.cons h .nil)
    · exact .error (.refl (.needsSequence m.name n))

theorem patternValue_of_kind (m : Marker) (escape : Char) {v : Value} (hnull : v.kind? ≠ none)
    (htext : v.kind? ≠ some .text) : m.patternValue escape v = .error (.notText m.name v) := by
  cases v with
  | null => exact absurd rfl hnull
  | text s => exact absurd rfl htext
  | _ => rfl

/-- Whether a value has a pattern depends on its kind only. -/
theorem varies_patternValue (m : Marker) (escape : Char) {v w : Value} (h : V.value v w) :
    Except.Pair (BindingFault.Varies V) V.value (m.patternValue escape v) (m.patternValue escape w) := by
  have hkind := V.kind h
  by_cases hnull : v.kind? = none
  · cases v <;> cases hnull
    cases w <;> cases hkind
    exact .ok h
  · by_cases htext : v.kind? = some .text
    · cases v <;> cases htext
      cases w <;> cases hkind
      exact .ok (V.text h fun s => String.ofList (m.pattern escape s.toList))
    · rw [patternValue_of_kind m escape hnull htext,
        patternValue_of_kind m escape (hkind ▸ hnull) (hkind ▸ htext)]
      exact .error (.notText m.name h)

theorem varies_resolve (m : Marker) (escape : Char) {p q : Param} (h : p.Varies V q) :
    Except.Pair (BindingFault.Varies V) (List.Forall₂ V.value) (m.resolve escape p) (m.resolve escape q) := by
  refine (m.varies_pick h).bind fun vs ws hvs => ?_
  split_ifs
  · exact .mapM hvs fun _ _ => m.varies_patternValue escape
  · exact .ok hvs

end Marker

namespace Template

variable {b c : Bindings}

theorem varies_lookup (h : b.Varies V c) (position : Nat) (m : Marker) :
    Option.Rel (Param.Varies V) (lookup b position m) (lookup c position m) := by
  unfold lookup
  have hfound := h.get? (.index position)
  generalize b.get? (.index position) = x, c.get? (.index position) = y at hfound ⊢
  cases hfound with
  | some hpq => exact .some hpq
  | none => exact h.get? _

theorem varies_resolveAll (escape : Char) (h : b.Varies V c) (position : Nat) (markers : List Marker) :
    Except.Pair (BindingFault.Varies V) (List.Forall₂ (List.Forall₂ V.value)) (resolveAll escape b position markers)
      (resolveAll escape c position markers) := by
  induction markers generalizing position with
  | nil => exact .ok .nil
  | cons m rest ih =>
    have hvalues : ∀ p q : Param, p.Varies V q → Except.Pair (BindingFault.Varies V)
        (List.Forall₂ (List.Forall₂ V.value))
        (do let values ← m.resolve escape p
            let others ← resolveAll escape b (position + 1) rest
            pure (values :: others))
        (do let values ← m.resolve escape q
            let others ← resolveAll escape c (position + 1) rest
            pure (values :: others)) := fun p q hpq =>
      (m.varies_resolve escape hpq).bind fun _ _ hvs => (ih _).bind fun _ _ hothers => .ok (.cons hvs hothers)
    rw [resolveAll, resolveAll]
    have hfound := varies_lookup h position m
    generalize lookup b position m = x, lookup c position m = y at hfound ⊢
    cases hfound with
    | some hpq => exact hvalues _ _ hpq
    | none => exact .error (.refl (.missing m.name position))

/-- The SQL of a filled template does not depend on what varies. -/
theorem varies_fill (t : Template) (h : b.Varies V c) :
    Except.Pair (Failure.Varies V) (Filled.Varies V) (t.fill b) (t.fill c) := by
  unfold fill
  have hgroups := varies_resolveAll t.escape h 1 t.markers
  generalize resolveAll t.escape b 1 t.markers = x, resolveAll t.escape c 1 t.markers = y at hgroups ⊢
  cases hgroups with
  | error h => exact .error (.binding h)
  | @ok groups groups' h =>
    -- the SQL depends on how many values each marker has, and these numbers do not vary
    have hlengths : groups.map List.length = groups'.map List.length := by
      induction h with
      | nil => rfl
      | cons hvs _ ih => rw [List.map_cons, List.map_cons, hvs.length_eq, ih]
    refine .ok ⟨?_, List.rel_flatten h⟩
    dsimp only
    rw [hlengths]

end Template

/-! ### Hooks -/

namespace Hook

theorem varies_fillIn (name : String) (v : Value) {b c : Bindings} (h : b.Varies V c) :
    (fillIn b name v).Varies V (fillIn c name v) := by
  unfold fillIn
  have hfound := h.get? (.name name)
  generalize b.get? (.name name) = x, c.get? (.name name) = y at hfound ⊢
  cases hfound with
  | some _ => exact h
  | none => exact h.insert (.name name) (.refl (.value v))

theorem varies_audit (user userName stampName : String) :
    (audit user userName stampName).Varies V (audit user userName stampName) := by
  intro now b c h
  have huser := varies_fillIn userName (.text user) h
  unfold audit
  dsimp only
  generalize fillIn b userName (.text user) = b', fillIn c userName (.text user) = c' at huser
  have hfound := huser.get? (.name stampName)
  generalize b'.get? (.name stampName) = x, c'.get? (.name stampName) = y at hfound ⊢
  cases hfound with
  | some _ => exact .done huser
  | none =>
    dsimp only
    cases Timestamp.ofMillis? now.millis with
    | none => exact .overflow
    | some t => exact .done (varies_fillIn stampName (.timestamp t) huser)

theorem varies_assign {es fs : List (Key × Param)} (h : Bindings.Varies V ⟨es⟩ ⟨fs⟩) (reason : Option String) :
    (assign es reason).Varies V (assign fs reason) := by
  intro now b c hbc
  cases reason with
  | some reason => exact .failed (.refl _)
  | none => exact .done (hbc.union h)

theorem varies_applyAll (now : Instant) {hooks hooks' : List Hook} (hhooks : List.Forall₂ (Varies V) hooks hooks')
    {b c : Bindings} (h : b.Varies V c) :
    Outcome.Pair (Failure.Varies V) (Bindings.Varies V) (applyAll now hooks b) (applyAll now hooks' c) := by
  induction hhooks generalizing b c with
  | nil => exact .done h
  | @cons k k' _ _ hk _ ih =>
    unfold applyAll
    have hend := hk now h
    generalize k now b = x, k' now c = y at hend ⊢
    cases hend with
    | done h => exact ih h
    | failed h => exact .failed h
    | overflow => exact .overflow

end Hook

/-! ### Work on two states -/

namespace Flow

variable {σ τ α α' β β' : Type} {R : σ → τ → Prop} {A : α → α' → Prop} {B : β → β' → Prop}

/-- From related states the work on both ends with results or failures that belong together, and leaves related
states. -/
def Varies (V : Variation) (R : σ → τ → Prop) (A : α → α' → Prop) (m : Flow Failure σ α)
    (n : Flow Failure τ α') : Prop :=
  ∀ ⦃s t⦄, R s t → Outcome.Pair (Failure.Varies V) A (m s).1 (n t).1 ∧ R (m s).2 (n t).2

theorem Alike.varies {m : Flow Failure σ α} {n : Flow Failure τ α} (h : Alike R m n) : Varies V R Eq m n := by
  intro s t hst
  obtain ⟨hr, hs⟩ := h hst
  refine ⟨?_, hs⟩
  rw [hr]
  cases (n t).1 with
  | done a => exact .done rfl
  | failed e => exact .failed (.refl e)
  | overflow => exact .overflow

namespace Varies

theorem pure {a : α} {a' : α'} (h : A a a') : Varies V R A (Pure.pure a) (Pure.pure a') :=
  fun _ _ hst => ⟨.done h, hst⟩

theorem fail {e f : Failure} (h : e.Varies V f) : Varies V R A (Flow.fail e) (Flow.fail f) :=
  fun _ _ hst => ⟨.failed h, hst⟩

theorem read {f : σ → α} {g : τ → α'} (h : ∀ s t, R s t → A (f s) (g t)) :
    Varies V R A (Flow.read f) (Flow.read g) :=
  fun s t hst => ⟨.done (h s t hst), hst⟩

theorem ofOutcome {x : Outcome Failure α} {y : Outcome Failure α'} (h : Outcome.Pair (Failure.Varies V) A x y) :
    Varies V R A (Flow.ofOutcome x) (Flow.ofOutcome y) :=
  fun _ _ hst => ⟨h, hst⟩

theorem ofExcept {x : Except Failure α} {y : Except Failure α'} (h : Except.Pair (Failure.Varies V) A x y) :
    Varies V R A (Flow.ofExcept x) (Flow.ofExcept y) := ofOutcome (.ofExcept h)

theorem bind {m : Flow Failure σ α} {n : Flow Failure τ α'} {f : α → Flow Failure σ β} {g : α' → Flow Failure τ β'}
    (hm : Varies V R A m n) (hf : ∀ a a', A a a' → Varies V R B (f a) (g a')) :
    Varies V R B (m >>= f) (n >>= g) := by
  intro s t h
  obtain ⟨he, hs⟩ := hm h
  show Outcome.Pair _ _ (Flow.bind m f s).1 (Flow.bind n g t).1 ∧ R (Flow.bind m f s).2 (Flow.bind n g t).2
  unfold Flow.bind
  rcases hms : m s with ⟨x, s'⟩
  rcases hnt : n t with ⟨y, t'⟩
  rw [hms, hnt] at he hs
  cases he with
  | done ha => exact hf _ _ ha hs
  | failed he => exact ⟨.failed he, hs⟩
  | overflow => exact ⟨.overflow, hs⟩

theorem map {m : Flow Failure σ α} {n : Flow Failure τ α'} {f : α → β} {g : α' → β'} (hm : Varies V R A m n)
    (hf : ∀ a a', A a a' → B (f a) (g a')) : Varies V R B (f <$> m) (g <$> n) :=
  hm.bind fun a a' ha => pure (hf a a' ha)

theorem attempt {m : Flow Failure σ α} {n : Flow Failure τ α'} (hm : Varies V R A m n) :
    Varies V R (Except.Pair (Failure.Varies V) A) m.attempt n.attempt := by
  intro s t h
  obtain ⟨he, hs⟩ := hm h
  unfold Flow.attempt
  rcases hms : m s with ⟨x, s'⟩
  rcases hnt : n t with ⟨y, t'⟩
  rw [hms, hnt] at he hs
  cases he with
  | done ha => exact ⟨.done (.ok ha), hs⟩
  | failed he => exact ⟨.done (.error he), hs⟩
  | overflow => exact ⟨.overflow, hs⟩

theorem within {σ' τ' : Type} {S : σ' → τ' → Prop} {p : Part σ σ'} {q : Part τ τ'} {m : Flow Failure σ' α}
    {n : Flow Failure τ' α'} (hm : Varies V S A m n) (hget : ∀ s t, R s t → S (p.get s) (q.get t))
    (hset : ∀ s t s' t', R s t → S s' t' → R (p.set s' s) (q.set t' t)) :
    Varies V R A (Flow.within p m) (Flow.within q n) := by
  intro s t h
  obtain ⟨he, hs⟩ := hm (hget s t h)
  exact ⟨he, hset s t _ _ h hs⟩

end Varies

/-- Work that is alike, and then work that varies. -/
theorem Alike.thenVaries {m : Flow Failure σ α} {n : Flow Failure τ α} {f : α → Flow Failure σ β}
    {g : α → Flow Failure τ β'} (hm : Alike R m n) (hf : ∀ a, Varies V R B (f a) (g a)) :
    Varies V R B (m >>= f) (n >>= g) :=
  hm.varies.bind fun a _ ha => ha ▸ hf a

end Flow

end NamedSql
