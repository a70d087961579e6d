import NamedSql.Proofs.Carried

/-!
# Noted databases

A noted database keeps what a handle carried each time that it was executed, as it was found by the execution. The
entries of a batch are noted as well if they are executed one by one (`Backend.noting`). Noting does not show
(`Backend.alike_noting`), and a noted database keeps what the database itself keeps (`Backend.keeping_noting`).
-/

namespace NamedSql

open NamedSql.Flow

variable {σ α : Type} {b : Backend σ}

/-- A connection with what the handles carried that were executed on it. -/
structure Noted (σ : Type) where
  link : σ
  sightings : List (Option Carried)

namespace Noted

def worldPart : Part (World (Noted σ)) (World σ) :=
  ⟨fun w => ⟨w.link.link, w.now⟩, fun v w => ⟨⟨v.link, w.link.sightings⟩, v.now⟩⟩

/-- A change of the connection alone. -/
def lift (f : σ → σ) (r : Noted σ) : Noted σ :=
  { r with link := f r.link }

def note (x : Option Carried) (r : Noted σ) : Noted σ :=
  { r with sightings := r.sightings ++ [x] }

/-- What is kept for the handles of the connection. -/
abbrev kept (carried : σ → Nat → Option Carried) (r : Noted σ) : Nat → Option Carried :=
  carried r.link

end Noted

section
open Noted
variable (b : Backend σ) (carried : σ → Nat → Option Carried)

/-- The same database, with what a handle carries noted before it is executed. -/
def Backend.noted : Backend (Noted σ) where
  prepare handle sql := Flow.within worldPart (b.prepare handle sql)
  bind handle position v := Flow.within worldPart (b.bind handle position v)
  clearBindings handle := lift (b.clearBindings handle)
  execute handle := do
    Call.modifyLink fun r => r.note (carried r.link handle)
    Flow.within worldPart (b.execute handle)
  executeBatch handle entries := Flow.within worldPart (b.executeBatch handle entries)
  limitRows handle n := lift (b.limitRows handle n)
  timeout handle r := b.timeout handle r.link
  limitTime handle millis := lift (b.limitTime handle millis)
  fetch handle := Flow.within worldPart (b.fetch handle)
  close handle := Flow.within worldPart (b.close handle)

/-- A noted database whose batches are executed entry by entry, which notes each of them, or by the database
itself. -/
def Backend.noting (each : Bool) : Backend (Noted σ) :=
  { b.noted carried with
    executeBatch := fun handle entries =>
      if each then (b.noted carried).executeEach handle entries else (b.noted carried).executeBatch handle entries }

end

variable {carried : σ → Nat → Option Carried}

/-! ### Batches of entries -/

namespace Backend

variable (executeBatch : Nat → List (List Value) → Call σ (List UInt64))

/-- Values are bound in the same way, whatever the database makes of batches. -/
theorem bindFrom_withBatch (handle position : Nat) (values : List Value) :
    { b with executeBatch }.bindFrom handle position values = b.bindFrom handle position values := by
  induction values generalizing position with
  | nil => rfl
  | cons v values ih =>
    unfold bindFrom
    rw [ih]

theorem executeEach_withBatch (handle : Nat) (entries : List (List Value)) :
    { b with executeBatch }.executeEach handle entries = b.executeEach handle entries := by
  have hentries : { b with executeBatch }.executeEntries handle entries = b.executeEntries handle entries := by
    induction entries with
    | nil => rfl
    | cons entry entries ih =>
      unfold executeEntries
      rw [ih, bindFrom_withBatch]
  unfold executeEach
  rw [hentries]

end Backend

/-! ### Noting does not show -/

namespace Noted

abbrev Under (l : σ) (r : Noted σ) : Prop :=
  l = r.link

theorem alike_within (c : Call σ α) : Flow.Alike (World.Alike Under) c (Flow.within worldPart c) :=
  Call.alike_behind fun _ => rfl

end Noted

theorem Backend.alike_noted (b : Backend σ) (carried : σ → Nat → Option Carried) :
    b.Alike Noted.Under (b.noted carried) where
  prepare _ _ := Noted.alike_within _
  bind _ _ _ := Noted.alike_within _
  clearBindings handle _ _ h := congrArg (b.clearBindings handle) h
  execute handle := by
    rintro w v ⟨hlink, hnow⟩
    exact Noted.alike_within (b.execute handle) ⟨hlink, hnow⟩
  executeBatch _ _ := Noted.alike_within _
  limitRows handle n _ _ h := congrArg (b.limitRows handle n) h
  timeout handle _ _ h := congrArg (b.timeout handle) h
  limitTime handle n _ _ h := congrArg (b.limitTime handle n) h
  fetch _ := Noted.alike_within _
  close _ := Noted.alike_within _

/-- Only a database that knows no batches executes their entries one by one. -/
theorem Backend.alike_noting {each : Bool} (heach : each = true → b.executeBatch = b.executeEach) :
    b.Alike Noted.Under (b.noting carried each) :=
  { b.alike_noted carried with
    executeBatch handle entries := by
      cases each with
      | true =>
        rw [heach rfl]
        exact (b.alike_noted carried).executeEach handle entries
      | false => exact (b.alike_noted carried).executeBatch handle entries }

/-! ### What is kept -/

namespace Noted

theorem quiet_within {c : Call σ α} (hc : Quiet carried c) : Quiet (kept carried) (Flow.within worldPart c) :=
  fun sqls => .within fun w hw => hc sqls ⟨w.link.link, w.now⟩ hw

end Noted

section
variable (hb : b.Keeping carried)
include hb

theorem Backend.keeping_noted : (b.noted carried).Keeping (Noted.kept carried) where
  prepare handle sql w := (ends_within _ _).2 (hb.prepare handle sql ⟨w.link.link, w.now⟩)
  bind handle position v w := (ends_within _ _).2 (hb.bind handle position v ⟨w.link.link, w.now⟩)
  clearBindings handle r := hb.clearBindings handle r.link
  limitRows handle n r := hb.limitRows handle n r.link
  limitTime handle millis r := hb.limitTime handle millis r.link
  execute handle sqls := Obeys.bind (.modify fun _ hw => hw) fun _ => Noted.quiet_within (hb.execute handle) sqls
  executeBatch handle entries := Noted.quiet_within (hb.executeBatch handle entries)
  fetch handle := Noted.quiet_within (hb.fetch handle)
  close handle w := (ends_within _ _).2 (hb.close handle ⟨w.link.link, w.now⟩)

theorem Backend.keeping_noting (each : Bool) : (b.noting carried each).Keeping (Noted.kept carried) :=
  { keeping_noted hb with
    executeBatch handle entries := by
      cases each with
      | true => exact fun sqls => ((keeping_noted hb).mindsOpen sqls).executeEach handle entries
      | false => exact (keeping_noted hb).executeBatch handle entries }

end

/-! ### What is noted -/

/-- What was noted after `start` has `K`. -/
def Noted.Since (K : List (Option Carried) → Prop) (start : List (Option Carried)) (w : World (Noted σ)) : Prop :=
  ∃ more, w.link.sightings = start ++ more ∧ K more

namespace Noted

variable {K K' : List (Option Carried) → Prop} {start : List (Option Carried)} {w v : World (Noted σ)}

theorem Since.refl (h : K []) : Since K w.link.sightings w :=
  ⟨[], (List.append_nil _).symm, h⟩

theorem Since.mono (h : Since K start w) (hK : ∀ more, K more → K' more) : Since K' start w := by
  obtain ⟨more, hseen, hmore⟩ := h
  exact ⟨more, hseen, hK more hmore⟩

theorem Since.trans {M : List (Option Carried) → Prop} (h : Since K start w) (hv : Since M w.link.sightings v)
    (hK : ∀ more others, K more → M others → K' (more ++ others)) : Since K' start v := by
  obtain ⟨more, hseen, hmore⟩ := h
  obtain ⟨others, hothers, hM⟩ := hv
  refine ⟨more ++ others, ?_, hK more others hmore hM⟩
  rw [hothers, hseen, List.append_assoc]

theorem since_within (c : Call σ α) : Obeys (.always NativeFault (Since K start)) (Flow.within worldPart c) :=
  .within fun _ hw => ends_of_forall (fun _ _ => hw) (fun _ _ => hw) fun _ => hw

section
variable {each : Bool} {handle : Nat} {sql : String} {values : List Value} {maxRows : Option UInt64}

theorem since_limitTime (handle : Nat) (budget : TimeLimit.Budget) :
    Obeys (.always NativeFault (Since K start)) (Statement.limitTime (b.noting carried each) handle budget) := by
  cases budget with
  | left millis => exact .modify fun _ hw => hw
  | _ => exact .pure _

theorem since_nextRow (feed : Feed) :
    Obeys (.always NativeFault (Since K start)) ((b.noting carried each).nextRow feed) :=
  Backend.obeys_nextRow _ (fun handle => since_within (b.fetch handle)) feed

/-- Executing notes what the handle carries, however it ends. -/
theorem ends_execute {x : Option Carried} (hx : carried w.link.link handle = x) (hw : Since K start w)
    (hK : ∀ more, K more → K' (more ++ [x])) :
    ends ((b.noting carried each).execute handle) (fun _ => Since K' start) (fun _ => Since K' start)
      (Since K' start) w := by
  obtain ⟨more, hseen, hmore⟩ := hw
  refine since_within (b.execute handle) _ ⟨more ++ [x], ?_, hK more hmore⟩
  show w.link.sightings ++ [carried w.link.link handle] = _
  rw [hx, hseen, List.append_assoc]

variable (hb : b.Keeping carried)
include hb

/-- A handle without values carries those that are bound to it. -/
theorem ends_bindFrom (hcarried : carried w.link.link handle = some (.exactly sql [] maxRows)) (hw : Since K start w) :
    ends ((b.noting carried each).bindFrom handle 1 values)
      (fun _ v => carried v.link.link handle = some (.exactly sql values maxRows) ∧ Since K start v)
      (fun _ => Since K start) (Since K start) w := by
  have hbound := (Backend.keeping_noting hb each).ends_bindFrom values hcarried
  have hsince := Backend.obeys_bindFrom (b.noting carried each)
    (fun position v => since_within (b.bind handle position v)) 1 values w hw
  exact ends_mono (hbound.and hsince) (fun _ _ h => h) (fun _ _ h => h.2) fun _ h => h.2

theorem ends_executeBound (hcarried : carried w.link.link handle = some (.exactly sql [] maxRows))
    (hw : Since K start w) (hnone : ∀ more, K more → K' more)
    (hK : ∀ more, K more → K' (more ++ [some (.exactly sql values maxRows)])) :
    ends ((b.noting carried each).bindFrom handle 1 values >>= fun _ => (b.noting carried each).execute handle)
      (fun _ => Since K' start) (fun _ => Since K' start) (Since K' start) w := by
  rw [ends_bind]
  exact ends_mono (ends_bindFrom hb hcarried hw) (fun _ _ hv => ends_execute hv.1 hv.2 hK)
    (fun _ _ hv => hv.mono hnone) fun _ hv => hv.mono hnone

theorem carried_clearBindings {l : σ} (htext : texts carried l handle = some sql) :
    ∃ maxRows, carried (b.clearBindings handle l) handle = some (.exactly sql [] maxRows) := by
  obtain ⟨c, hc, rfl⟩ := Option.map_eq_some_iff.1 htext
  refine ⟨c.maxRows, ?_⟩
  rw [(hb.clearBindings handle l).self, hc, Option.map_some, Carried.clear_eq]

/-- Whatever the handle carried before, it is executed with the values and the limit that are given. -/
theorem ends_executeWith (htext : texts carried w.link.link handle = some sql) (hw : Since K start w)
    (hnone : ∀ more, K more → K' more) (hK : ∀ more, K more → K' (more ++ [some (.exactly sql values maxRows)])) :
    ends (Statement.execute (b.noting carried each) handle values maxRows) (fun _ => Since K' start)
      (fun _ => Since K' start) (Since K' start) w := by
  obtain ⟨before, hcleared⟩ := carried_clearBindings hb htext
  unfold Statement.execute
  rw [ends_bind, Call.modifyLink, ends_modify, ends_bind]
  refine ends_mono (ends_bindFrom hb hcleared hw) (fun _ v hv => ?_) (fun _ _ hv => hv.mono hnone)
    fun _ hv => hv.mono hnone
  rw [ends_bind, Call.modifyLink, ends_modify]
  refine ends_execute ?_ hv.2 hK
  show carried (b.limitRows handle maxRows v.link.link) handle = _
  rw [(hb.limitRows handle maxRows v.link.link).self, hv.1]
  rfl

/-! ### Batches -/

/-- Each sighting is one of the SQL with exactly the values of its entry. -/
def Entered (sql : String) (entries : List (List Value)) (more : List (Option Carried)) : Prop :=
  ∀ (i : Nat) (x : Option Carried), more[i]? = some x →
    ∃ values maxRows, entries[i]? = some values ∧ x = some (Carried.exactly sql values maxRows)

omit hb in
theorem entered_nil (entries : List (List Value)) : Entered sql entries [] := nofun

omit hb in
theorem Entered.cons {entries : List (List Value)} {more : List (Option Carried)} (h : Entered sql entries more) :
    Entered sql (values :: entries) (some (.exactly sql values maxRows) :: more) := by
  intro i x hx
  cases i with
  | zero => exact ⟨values, maxRows, rfl, (Option.some.inj hx).symm⟩
  | succ i => exact h i x hx

theorem ends_executeEntries (entries : List (List Value)) (htext : texts carried w.link.link handle = some sql) :
    ends ((b.noting carried each).executeEntries handle entries)
      (fun _ => Since (Entered sql entries) w.link.sightings) (fun _ => Since (Entered sql entries) w.link.sightings)
      (Since (Entered sql entries) w.link.sightings) w := by
  induction entries generalizing w with
  | nil => exact Since.refl (entered_nil [])
  | cons values entries ih =>
    obtain ⟨maxRows, hcleared⟩ := carried_clearBindings hb htext
    have hnone (more : List (Option Carried)) (h : more = []) : Entered sql (values :: entries) more :=
      h ▸ entered_nil _
    have hfirst (more : List (Option Carried)) (h : more = [some (.exactly sql values maxRows)]) :
        Entered sql (values :: entries) more :=
      h ▸ (entered_nil entries).cons
    unfold Backend.executeEntries
    rw [ends_bind, Call.modifyLink, ends_modify, ends_bind]
    refine ends_mono (ends_bindFrom hb hcleared (Since.refl (K := (· = [])) rfl)) (fun _ v hv => ?_)
      (fun _ _ hv => hv.mono hnone) fun _ hv => hv.mono hnone
    have hexecuted : ends ((b.noting carried each).execute handle)
        (fun _ => Since (· = [some (.exactly sql values maxRows)]) w.link.sightings)
        (fun _ => Since (· = [some (.exactly sql values maxRows)]) w.link.sightings)
        (Since (· = [some (.exactly sql values maxRows)]) w.link.sightings) v :=
      ends_execute hv.1 hv.2 fun more hmore => by rw [hmore, List.nil_append]
    have hquiet := (Backend.keeping_noting hb each).execute handle (texts (kept carried) v.link) v rfl
    rw [ends_bind]
    refine ends_mono (hexecuted.and hquiet) (fun reply u hu => ?_) (fun _ _ hu => hu.1.mono hfirst)
      fun _ hu => hu.1.mono hfirst
    have htext' : texts carried u.link.link handle = some sql :=
      (congrFun hu.2 handle).trans (congrArg (Option.map Carried.sql) hv.1)
    have hboth (x : World (Noted σ)) (hx : Since (Entered sql entries) u.link.sightings x) :
        Since (Entered sql (values :: entries)) w.link.sightings x :=
      hu.1.trans hx fun more others hmore hothers => by
        rw [hmore, List.singleton_append]
        exact hothers.cons
    have hrest := ends_mono (ih htext') (fun _ => hboth) (fun _ => hboth) hboth
    cases reply with
    | count n => exact (ends_map (List.cons n) _).2 hrest
    | rows feed => exact (ends_map (List.cons 0) _).2 hrest

theorem ends_executeBatch (entries : List (List Value)) (htext : texts carried w.link.link handle = some sql) :
    ends ((b.noting carried each).executeBatch handle entries)
      (fun _ => Since (Entered sql entries) w.link.sightings) (fun _ => Since (Entered sql entries) w.link.sightings)
      (Since (Entered sql entries) w.link.sightings) w := by
  cases each with
  | false => exact since_within (b.executeBatch handle entries) w (Since.refl (entered_nil entries))
  | true =>
    have hsame : (b.noting carried true).executeEach handle entries = (b.noted carried).executeEach handle entries :=
      Backend.executeEach_withBatch _ handle entries
    show ends ((b.noted carried).executeEach handle entries) _ _ _ w
    rw [← hsame, Backend.executeEach, ends_bind]
    exact ends_mono (ends_executeEntries hb entries htext) (fun _ _ hv => hv) (fun _ _ hv => hv) fun _ hv => hv

end

end Noted

end NamedSql
