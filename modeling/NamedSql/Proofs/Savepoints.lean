import NamedSql.Backend.Library
import NamedSql.Proofs.Law

/-!
# Batches in savepoints

A library that can restore what its tables held when a savepoint was set (`Library.Restores`) executes batches as a
whole: one that succeeds is what its entries are one after another, and one that does not leaves the tables as they
were (`Library.ends_executeBatch`). Whether a transaction is open or not makes no difference to that.
-/

namespace NamedSql

open NamedSql.Flow

variable {δ κ γ α : Type}

theorem Embedded.ends_onData {Q : α → World (Embedded δ) → Prop} {E : NativeFault → World (Embedded δ) → Prop}
    {O : World (Embedded δ) → Prop} {w : World (Embedded δ)} (c : Call δ α) : ends (onData c) Q E O w ↔
      ends c (fun a v => Q a ⟨{ w.link with data := v.link }, v.now⟩)
        (fun e v => E e ⟨{ w.link with data := v.link }, v.now⟩) (fun v => O ⟨{ w.link with data := v.link }, v.now⟩)
        ⟨w.link.data, w.now⟩ :=
  ends_within _ _

namespace Library

section
variable (L : Library δ κ) (content : δ → γ)

/-! ### What entries do one after another -/

/-- The statements that a SQL text may be compiled to. -/
def Compiles (sql : String) (s : κ) : Prop :=
  ∃ w w', L.compile sql w = (.done s, w')

/-- What a statement that is run once may count and make of the content. -/
def Effect (s : κ) (g : γ) (n : UInt64) (g' : γ) : Prop :=
  ∃ w count w', L.run s w = (.done count, w') ∧ n = UInt64.ofNat count ∧ content w.link = g ∧ content w'.link = g'

/-- What statements that are run one after another may count and make of the content. -/
inductive Effects : List κ → γ → List UInt64 → γ → Prop
  | nil (g : γ) : Effects [] g [] g
  | cons {s : κ} {rest : List κ} {g g' g'' : γ} {n : UInt64} {counts : List UInt64} :
    L.Effect content s g n g' → Effects rest g' counts g'' → Effects (s :: rest) g (n :: counts) g''

/-- The statements of entries that are bound one after another, each over what was bound before. -/
def entered (s : κ) : (entries : List (List Value)) → Except NativeFault (List κ)
  | [] => .ok []
  | entry :: entries => do
    let s ← L.enter s entry
    let rest ← entered s entries
    pure (s :: rest)

/-- What the entries of a batch may count and make of the content if they are executed one after another on one
compiled statement. -/
def AppliedInTurn (sql : String) (entries : List (List Value)) (g : γ) (counts : List UInt64) (g' : γ) : Prop :=
  ∃ fresh statements, L.Compiles sql fresh ∧ L.entered fresh entries = .ok statements ∧
    L.Effects content statements g counts g'

/-- What the entries of a batch may count and make of the content if they are executed one after another, each on a
statement that was compiled for it and has exactly its values. -/
def Applied (sql : String) (entries : List (List Value)) (g : γ) (counts : List UInt64) (g' : γ) : Prop :=
  ∃ statements, List.Forall₂ (fun entry s => ∃ fresh, L.Compiles sql fresh ∧ L.enter fresh entry = .ok s) entries
    statements ∧ L.Effects content statements g counts g'

/-- A batch counts for each entry and is what its entries are one after another, or it does not come to its end and
leaves the content. Where all entries have as many values, each has exactly its own. -/
def Whole (sql : String) (entries : List (List Value)) (g g' : γ) : Outcome NativeFault (List UInt64) → Prop
  | .done counts => counts.length = entries.length ∧ L.AppliedInTurn content sql entries g counts g' ∧
    ∀ count, (∀ entry ∈ entries, entry.length = count) → L.Applied content sql entries g counts g'
  | .failed _ => g' = g
  | .overflow => g' = g

/-! ### What a library restores -/

/-- The content is the same, and so is what it was when the last savepoint was set. -/
def Unchanged (marked : γ → δ → Prop) (d d' : δ) : Prop :=
  content d' = content d ∧ ∀ g, marked g d → marked g d'

/-- A library whose savepoints restore the content of the tables: `marked g` says of a connection that the last
savepoint was set where the content was `g`, and `changing` are statements that change data and give up nothing but
their own changes when they fail. -/
structure Restores (marked : γ → δ → Prop) (changing : κ → Prop) : Prop where
  setWait : ∀ d millis, Obeys (.always NativeFault fun w => Unchanged content marked d w.link) (L.setWait millis)
  compile : ∀ d sql, Obeys (.always NativeFault fun w => Unchanged content marked d w.link) (L.compile sql)
  changing_bind : ∀ {s position v s'}, changing s → L.bind s position v = .ok s' → changing s'
  /-- Values replace those that were bound to the same positions. -/
  rebind : ∀ {s s' : κ} {before values : List Value}, before.length = values.length → L.enter s before = .ok s' →
    L.enter s' values = L.enter s values
  /-- A savepoint is set where the content is as it was. -/
  savepoint : ∀ w, ends L.savepoint
    (fun _ v => content v.link = content w.link ∧ marked (content w.link) v.link)
    (fun _ v => content v.link = content w.link) (fun v => content v.link = content w.link) w
  /-- However a changing statement ends, the savepoint is still there. -/
  run : ∀ {s} g, changing s → Obeys (.always NativeFault fun w => marked g w.link) (L.run s)
  /-- What was done since the savepoint is kept, or the savepoint is. -/
  release : ∀ g w, marked g w.link → ends L.release (fun _ v => content v.link = content w.link)
    (fun _ v => marked g v.link) (fun v => marked g v.link) w
  rollback : ∀ {g d}, marked g d → content (L.rollback d) = g

end

section
variable {L : Library δ κ} {content : δ → γ} {marked : γ → δ → Prop} {changing : κ → Prop}

theorem Effects.length_eq {statements : List κ} {g g' : γ} {counts : List UInt64}
    (h : L.Effects content statements g counts g') : counts.length = statements.length := by
  induction h with
  | nil => rfl
  | cons _ _ ih => rw [List.length_cons, List.length_cons, ih]

theorem length_of_entered {s : κ} {entries : List (List Value)} {statements : List κ}
    (h : L.entered s entries = .ok statements) : statements.length = entries.length := by
  induction entries generalizing s statements with
  | nil =>
    obtain rfl : [] = statements := Except.ok.inj h
    rfl
  | cons entry entries ih =>
    obtain ⟨s', -, h⟩ := bind_eq_ok.1 h
    obtain ⟨rest, hrest, h⟩ := bind_eq_ok.1 h
    obtain rfl : s' :: rest = statements := Except.ok.inj h
    rw [List.length_cons, List.length_cons, ih hrest]

theorem AppliedInTurn.length_eq {sql : String} {entries : List (List Value)} {g g' : γ} {counts : List UInt64}
    (h : L.AppliedInTurn content sql entries g counts g') : counts.length = entries.length := by
  obtain ⟨_, _, -, hentered, heffects⟩ := h
  rw [heffects.length_eq, length_of_entered hentered]

namespace Restores

variable (h : L.Restores content marked changing)
include h

theorem changing_bindAll {s s' : κ} {values : List (Nat × Value)} (hs : changing s)
    (hbound : L.bindAll s values = .ok s') : changing s' := by
  induction values generalizing s with
  | nil =>
    obtain rfl : s = s' := Except.ok.inj hbound
    exact hs
  | cons entry rest ih =>
    obtain ⟨s₁, hfirst, hrest⟩ := bind_eq_ok.1 hbound
    exact ih (h.changing_bind hs hfirst) hrest

/-- Where all entries have as many values, nothing is left of the entries before. -/
theorem forall₂_entered {fresh s : κ} {count : Nat} {entries : List (List Value)} {statements : List κ}
    (hfresh : ∀ values : List Value, values.length = count → L.enter s values = L.enter fresh values)
    (hcount : ∀ entry ∈ entries, entry.length = count) (hentered : L.entered s entries = .ok statements) :
    List.Forall₂ (fun entry s' => L.enter fresh entry = .ok s') entries statements := by
  -- `hfresh` says that entered values hide what was bound before; binding an entry keeps it so
  induction entries generalizing s statements with
  | nil =>
    obtain rfl : [] = statements := Except.ok.inj hentered
    exact .nil
  | cons entry entries ih =>
    obtain ⟨hentry, hrest⟩ := List.forall_mem_cons.1 hcount
    obtain ⟨s₁, hfirst, hentered⟩ := bind_eq_ok.1 hentered
    obtain ⟨rest, hothers, hentered⟩ := bind_eq_ok.1 hentered
    obtain rfl : s₁ :: rest = statements := Except.ok.inj hentered
    refine .cons ((hfresh entry hentry).symm.trans hfirst) (ih (fun values hvalues => ?_) hrest hothers)
    exact (h.rebind (hentry.trans hvalues.symm) hfirst).trans (hfresh values hvalues)

theorem applied_of_inTurn {sql : String} {count : Nat} {entries : List (List Value)} {g g' : γ} {counts : List UInt64}
    (hcount : ∀ entry ∈ entries, entry.length = count) (happlied : L.AppliedInTurn content sql entries g counts g') :
    L.Applied content sql entries g counts g' := by
  obtain ⟨fresh, statements, hfresh, hentered, heffects⟩ := happlied
  have hbound := h.forall₂_entered (fun _ _ => rfl) hcount hentered
  exact ⟨statements, hbound.imp fun _ _ hentry => ⟨fresh, hfresh, hentry⟩, heffects⟩

/-! ### Inside a savepoint -/

/-- Work that keeps the savepoint is undone unless it comes to its end. -/
theorem ends_inSavepoint {c : Call δ α} {Q : α → γ → Prop} {w : World δ}
    (hc : ∀ v, content v.link = content w.link → marked (content w.link) v.link →
      ends c (fun a u => Q a (content u.link) ∧ marked (content w.link) u.link)
        (fun _ u => marked (content w.link) u.link) (fun u => marked (content w.link) u.link) v) :
    ends (L.inSavepoint c) (fun a u => Q a (content u.link)) (fun _ u => content u.link = content w.link)
      (fun u => content u.link = content w.link) w := by
  unfold inSavepoint
  refine (h.savepoint w).bind ?_
  rintro - v ⟨hv, hmarked⟩
  rw [ends_orUndo, ends_bind]
  refine ends_mono (hc v hv hmarked) ?_ (fun _ _ hu => h.rollback hu) fun _ hu => h.rollback hu
  rintro a u ⟨ha, hu⟩
  -- the work is done, but a release that fails is undone as well
  rw [ends_bind]
  refine ends_mono (h.release _ u hu) (fun _ u' hu' => ?_) (fun _ _ hu' => h.rollback hu') fun _ hu' => h.rollback hu'
  show Q a (content u'.link)
  rw [hu']
  exact ha

/-- However far the entries come, the savepoint is still there. -/
theorem ends_runEntries {s : κ} (entries : List (List Value)) (hs : changing s) (g : γ) {w : World δ}
    (hw : marked g w.link) :
    ends (L.runEntries s entries)
      (fun counts v => (∃ statements, L.entered s entries = .ok statements ∧
        L.Effects content statements (content w.link) counts (content v.link)) ∧ marked g v.link)
      (fun _ v => marked g v.link) (fun v => marked g v.link) w := by
  induction entries generalizing s w with
  | nil => exact ⟨⟨[], rfl, .nil _⟩, hw⟩
  | cons entry entries ih =>
    unfold runEntries
    rw [ends_bind, ends_ofExcept]
    split
    · next s₁ hentry =>
      have hs₁ : changing s₁ := h.changing_bindAll hs hentry
      rw [ends_bind]
      refine ends_mono ((h.run g hs₁ w hw).and (ends_self (L.run s₁) w)) ?_ (fun _ _ hv => hv.1) fun _ hv => hv.1
      rintro count v ⟨hv, hrun⟩
      rw [ends_bind]
      refine ends_mono (ih hs₁ hv) ?_ (fun _ _ hu => hu) fun _ hu => hu
      rintro counts u ⟨⟨statements, hentered, heffects⟩, hu⟩
      refine ⟨⟨s₁ :: statements, ?_, .cons ⟨w, count, v, hrun, rfl, rfl, rfl⟩ heffects⟩, hu⟩
      exact bind_eq_ok.2 ⟨s₁, hentry, bind_eq_ok.2 ⟨statements, hentered, rfl⟩⟩
    · exact hw

theorem obeys_setTimeout (d : δ) (timeout : Option Nat) :
    Obeys (.always NativeFault fun w => Unchanged content marked d w.link) (L.setTimeout timeout) := by
  cases timeout with
  | none => exact .pure _
  | some millis => exact h.setWait d millis

/-! ### Batches -/

/-- A batch that changes data does what its entries do one after another, or nothing. -/
theorem ends_executeBatch {handle : Nat} {w : World (Embedded δ)} (entries : List (List Value))
    (hchanging : ∀ p s, w.link.statements.get? handle = some p → L.Compiles p.body s → changing s) :
    ends (L.executeBatch handle entries)
      (fun counts v => ∃ p, w.link.statements.get? handle = some p ∧
        L.AppliedInTurn content p.body entries (content w.link.data) counts (content v.link.data))
      (fun _ v => content v.link.data = content w.link.data) (fun v => content v.link.data = content w.link.data)
      w := by
  unfold executeBatch Embedded.statement
  rw [ends_bind, ends_bind, Call.readLink, ends_read]
  split
  · next p hp =>
    show ends (Embedded.onData _) _ _ _ w
    rw [Embedded.ends_onData]
    refine (h.obeys_setTimeout w.link.data p.timeout).thenEnds ⟨rfl, fun _ hg => hg⟩ (fun _ _ hv => hv.1)
      (fun _ hv => hv.1) fun _ v hv => ?_
    refine ends_mono (h.ends_inSavepoint (Q := fun counts g =>
      L.AppliedInTurn content p.body entries (content w.link.data) counts g) fun u hu hmarked => ?_)
      (fun counts u hu => ⟨p, hp, hu⟩) (fun _ u hu => hu.trans hv.1) fun u hu => hu.trans hv.1
    rw [hv.1] at hu hmarked ⊢
    rw [ends_bind]
    refine ends_mono ((h.compile u.link p.body u ⟨rfl, fun _ hg => hg⟩).and (ends_self (L.compile p.body) u)) ?_
      (fun _ x hx => hx.1.2 _ hmarked) fun x hx => hx.1.2 _ hmarked
    rintro s x ⟨⟨hx, hmarks⟩, hcompiled⟩
    have hs : L.Compiles p.body s := ⟨u, x, hcompiled⟩
    refine ends_mono (h.ends_runEntries entries (hchanging p s hp hs) _ (hmarks _ hmarked)) ?_
      (fun _ _ hy => hy) fun _ hy => hy
    rintro counts y ⟨⟨statements, hentered, heffects⟩, hy⟩
    rw [show content x.link = content w.link.data from hx.trans hu] at heffects
    exact ⟨⟨s, statements, hs, hentered, heffects⟩, hy⟩
  · rfl

theorem whole_executeBatch {handle : Nat} {p : Prepared String} {w : World (Embedded δ)}
    (hp : w.link.statements.get? handle = some p) (hchanging : ∀ s, L.Compiles p.body s → changing s)
    (entries : List (List Value)) :
    L.Whole content p.body entries (content w.link.data)
      (content (L.executeBatch handle entries w).2.link.data) (L.executeBatch handle entries w).1 := by
  have hsome (q : Prepared String) (hq : w.link.statements.get? handle = some q) : q = p :=
    Option.some.inj (hq.symm.trans hp)
  have hends := h.ends_executeBatch entries fun q s hq hs => hchanging s (hsome q hq ▸ hs)
  unfold ends at hends
  rcases hrun : L.executeBatch handle entries w with ⟨counts | fault | _, w'⟩ <;> rw [hrun] at hends
  · obtain ⟨q, hq, happlied⟩ := hends
    rw [hsome q hq] at happlied
    exact ⟨happlied.length_eq, happlied, fun count hcount => h.applied_of_inTurn hcount happlied⟩
  · exact hends
  · exact hends

end Restores

end

end Library

end NamedSql
