import NamedSql.Proofs.Likeness.Run
import NamedSql.Proofs.Steady

/-!
# Bodies of transactions

A body is code that works on a workbench and decides as it goes: it looks at what is there, takes steps, opens
transactions for code of its own, and goes on after failures or gives up. Recording the database does not show in
it (`Body.alike_perform`). What all steps keep of the session, bodies keep as well (`Body.obeys_perform`).
-/

namespace NamedSql

open NamedSql.Flow

variable {σ : Type} {b : Backend σ}

/-- Code on a workbench, which ends in a value or a failure. What it does next may depend on all that it has seen;
the steps that it takes are those without steps of their own. -/
inductive Body (σ : Type) : Type → Type 1 where
  | give {α : Type} (a : α) : Body σ α
  | fail {α : Type} (e : Failure) : Body σ α
  | look {α : Type} (next : Workbench σ → Body σ α) : Body σ α
  | act {α : Type} (step : Step σ) (next : Except Failure (Step.Result σ) → Body σ α) : Body σ α
  | transaction {α β : Type} (seconds : Option Int) (inner : Body σ β) (next : Except Failure β → Body σ α) :
    Body σ α

namespace Body

variable {α : Type}

def perform (b : Backend σ) {α : Type} : Body σ α → Job σ α
  | give a => pure a
  | fail e => Flow.fail e
  | look next => fun w => (next w).perform b w
  | act step next => do
    let r ← (step.perform b).attempt
    (next r).perform b
  | transaction seconds inner next => do
    let r ← (Workbench.inTransaction b seconds (inner.perform b)).attempt
    (next r).perform b

/-! ### Recorded databases -/

/-- The same code on a recorded database, which does not see the record. -/
def recorded {α : Type} : Body σ α → Body (Recorded σ) α
  | give a => give a
  | fail e => fail e
  | look next => look fun w => (next w.plain).recorded
  | act step next => act step.recorded fun r => (next (r.map (Step.Result.map Workbench.plain))).recorded
  | transaction seconds inner next => transaction seconds inner.recorded fun r => (next r).recorded

end Body

theorem Step.Plain.attemptThen {τ τ' α : Type} {R : τ → τ' → Prop} {m : Flow Failure τ (Result σ)}
    {n : Flow Failure τ' (Result (Recorded σ))} {f : Except Failure (Result σ) → Flow Failure τ α}
    {g : Except Failure (Result (Recorded σ)) → Flow Failure τ' α} (h : Plain R m n)
    (hf : ∀ r, Flow.Alike R (f (r.map (Result.map Workbench.plain))) (g r)) :
    Flow.Alike R ((m.attempt : Flow Failure τ _) >>= f) ((n.attempt : Flow Failure τ' _) >>= g) := by
  intro s t hst
  obtain ⟨hr, hs⟩ := h hst
  show (Flow.bind m.attempt f s).1 = (Flow.bind n.attempt g t).1 ∧
    R (Flow.bind m.attempt f s).2 (Flow.bind n.attempt g t).2
  unfold Flow.bind attempt
  rcases hm : m s with ⟨x, s'⟩
  rcases hn : n t with ⟨y, t'⟩
  rw [hm, hn] at hr hs
  obtain rfl : x = y.map (Result.map Workbench.plain) := hr
  cases y with
  | done a => exact hf (.ok a) hs
  | failed e => exact hf (.error e) hs
  | overflow => exact ⟨rfl, hs⟩

namespace Body

variable {α : Type}

theorem alike_perform (body : Body σ α) :
    Flow.Alike (Workbench.Alike Recorded.Under) (body.perform b) (body.recorded.perform b.recorded) := by
  induction body with
  | give a => exact .pure a
  | fail e => exact .fail e
  | look next ih =>
    intro w v hwv
    obtain rfl : w = v.plain := Workbench.alike_under_iff.1 hwv
    exact ih v.plain hwv
  | act step next ih => exact (Step.plain_perform step).attemptThen fun _ => ih _
  | transaction seconds inner next ihinner ih =>
    have h := Session.alike_withTransaction b.alike_recorded Workbench.alike_onLine seconds ihinner
    exact h.attempt.bind ih

end Body

/-! ### What is kept of the session -/

theorem Dialog.obeys_call {T : Session → Prop} {α : Type} (c : Call σ α) :
    Obeys (.always Failure (Line.Has T fun _ => True)) (Dialog.call c) :=
  has_call fun _ _ => ends_of_forall (fun _ _ => trivial) (fun _ _ => trivial) fun _ => trivial

/-- What holds of the session of a workbench. -/
abbrev Workbench.keepingSession (σ : Type) (T : Session → Prop) : Law Failure (Workbench σ) :=
  .always Failure fun w => w.line.Has T fun _ => True

namespace Session

variable {T : Session → Prop} {α : Type}

/-- What a session keeps of itself, begins and ends of transactions included. -/
structure Lasting (b : Backend σ) (T : Session → Prop) : Prop where
  steady : Steady T
  begin : ∀ seconds, Obeys (.always Failure (Line.Has T fun _ => True)) (begin b seconds)
  finish : ∀ sql, Obeys (.always Failure (Line.Has T fun _ => True)) (finish b sql)
  terminate : Obeys (.always Failure (Line.Has T fun _ => True)) (terminate b)

theorem obeys_withTransaction {τ : Type} {I : τ → Prop} {line : Part τ (Line σ)} (hT : Lasting b T)
    (hline : ∀ {β : Type} {m : Dialog σ β}, Obeys (.always Failure (Line.Has T fun _ => True)) m →
      Obeys (.always Failure I) (within line m))
    (seconds : Option Int) {body : Flow Failure τ α} (hbody : Obeys (.always Failure I) body) :
    Obeys (.always Failure I) (withTransaction b line seconds body) := by
  refine (hline (hT.begin seconds)).bind fun _ => hbody.attempt.bind fun result => ?_
  cases result with
  | ok a => exact (hline (hT.finish _)).bind fun _ => .pure _
  | error e =>
    refine (hline (hT.finish _)).attempt.bind fun result => ?_
    cases result with
    | ok u => exact .fail _
    | error e' => exact (hline ((Obeys.read _).bind fun _ => Dialog.has_record _)).bind fun _ => .fail _

end Session

section
variable {T : Session → Prop} (hT : Session.Steady T)
include hT

theorem Statement.has_query (b : Backend σ) : Obeys (keepingSession σ T) (query b) := fun d hd =>
  (ends_map Result.cursor _).1 (has_perform hT b .query d hd)

theorem Statement.has_close (b : Backend σ) : Obeys (keepingSession σ T) (close b) := fun d hd =>
  (ends_map (fun _ => Result.nothing) _).1 (has_perform hT b .close d hd)

theorem Statement.has_drop (b : Backend σ) : Obeys (keepingSession σ T) (drop b) := by
  refine (has_close hT b).attempt.bind fun result => ?_
  cases result with
  | ok u => exact .pure _
  | error e => exact (Obeys.read _).bind fun _ => has_onLine (Dialog.has_record _)

end

namespace Workbench

variable {T : Session → Prop} {α : Type}

theorem obeys_onLine {m : Dialog σ α} (hm : Obeys (.always Failure (Line.Has T fun _ => True)) m) :
    Obeys (keepingSession σ T) (onLine m) :=
  .within fun w hw => hm w.line hw

theorem obeys_useStatement (name : String) {m : Work σ α} (hm : Obeys (Statement.keepingSession σ T) m) :
    Obeys (keepingSession σ T) (useStatement name m) := by
  intro w hw
  unfold ends useStatement
  cases w.statements.get? name with
  | none => exact hw
  | some st =>
    have hd := hm (w.desk st) ⟨trivial, hw⟩
    unfold ends at hd
    dsimp only
    rcases hmd : m (w.desk st) with ⟨_ | _ | _, d⟩ <;> rw [hmd] at hd <;> exact hd.line

theorem obeys_useCursor (name : String) (m : Cursor.Reading σ α) :
    Obeys (keepingSession σ T) (useCursor name m) := by
  intro w hw
  unfold ends useCursor Cursor.use
  dsimp only
  rcases m ((w.cursors.get? name).getD (Cursor.empty w.line.session.vendor), w.line.world) with ⟨_ | _ | _, s⟩ <;>
    exact ⟨hw.session, trivial⟩

theorem obeys_drain (b : Backend σ) (cursor : String) : Obeys (keepingSession σ T) (drain b cursor) :=
  (obeys_useCursor cursor _).attempt.bind fun _ => Obeys.bind (.modify fun _ hw => hw) fun _ => .ofExcept _

theorem obeys_parse (source : String) : Obeys (keepingSession σ T) (parse source) :=
  (obeys_onLine (.read _)).bind fun _ => .ofExcept _

theorem obeys_loadResource (resource text : String) : Obeys (keepingSession σ T) (loadResource resource text) :=
  (Obeys.read _).bind fun _ => (Obeys.ofExcept _).bind fun _ => Obeys.bind (.modify fun _ hw => hw) fun _ => .pure _

variable (hT : Session.Steady T)
include hT

theorem obeys_dropStatement (b : Backend σ) (name : String) : Obeys (keepingSession σ T) (dropStatement b name) := by
  intro w hw
  unfold ends dropStatement
  cases w.statements.get? name with
  | none => exact hw
  | some st =>
    have hd := Statement.has_drop hT b (w.desk st) ⟨trivial, hw⟩
    unfold ends at hd
    dsimp only
    rcases hdrop : Statement.drop b (w.desk st) with ⟨_ | _ | _, d⟩ <;> rw [hdrop] at hd <;> exact hd.line

theorem obeys_addStatement (b : Backend σ) (name : String) (template : Template) (page : Option Page)
    (equip : Statement → Statement) : Obeys (keepingSession σ T) (addStatement b name template page equip) :=
  (obeys_onLine (Statement.has_create hT b template page)).bind fun _ =>
    (obeys_dropStatement hT b name).bind fun _ => Obeys.bind (.modify fun _ hw => hw) fun _ => .pure _

theorem obeys_addFromCatalog (b : Backend σ) (name resource statement : String) (page : Option Page)
    (equip : Statement → Statement) :
    Obeys (keepingSession σ T) (addFromCatalog b name resource statement page equip) :=
  (Obeys.read _).bind fun _ => (Obeys.ofExcept _).bind fun _ => obeys_addStatement hT b _ _ _ _

theorem obeys_openCursor (b : Backend σ) (name cursor : String) :
    Obeys (keepingSession σ T) (openCursor b name cursor) :=
  (obeys_useStatement name (Statement.has_query hT b)).bind fun _ =>
    Obeys.bind (.modify fun _ hw => hw) fun _ => .pure _

end Workbench

namespace Step

variable {T : Session → Prop}

theorem obeys_passTime (millis : Int) : Obeys (Workbench.keepingSession σ T) (passTime millis) :=
  Workbench.obeys_onLine (Dialog.obeys_call _).discard

/-- What a session keeps, with the transactions that it begins and ends, is kept by all steps without steps of
their own. -/
theorem obeys_perform (hT : Session.Lasting b T) (step : Step σ) :
    Obeys (Workbench.keepingSession σ T) (step.perform b) := by
  have hsession {β : Type} {m : Dialog σ β} := Workbench.obeys_onLine (T := T) (m := m)
  have hupheld : Session.Upholds b (Line.Has T fun _ => True) := .has hT.steady (.trivially b)
  cases step with
  | look => exact .pure _
  | refuse cause => exact .fail _
  | addStatement name sql page equipment =>
    exact (Obeys.ofExcept _).bind fun _ => (Workbench.obeys_parse sql).bind fun _ =>
      (Workbench.obeys_addStatement hT.steady b _ _ _ _).map _
  | addFromCatalog name resource statement page equipment =>
    exact (Obeys.ofExcept _).bind fun _ => (Workbench.obeys_addFromCatalog hT.steady b _ _ _ _ _).map _
  | dropStatement name => exact (Workbench.obeys_dropStatement hT.steady b name).bind fun _ => .pure _
  | use statement action => exact (Workbench.obeys_useStatement _ (Statement.has_perform hT.steady b action)).map _
  | openCursor statement cursor => exact (Workbench.obeys_openCursor hT.steady b _ _).bind fun _ => .pure _
  | nextRow cursor => exact (Workbench.obeys_useCursor _ _).map _
  | drain cursor => exact (Workbench.obeys_drain b _).map _
  | parse sql => exact (Workbench.obeys_parse _).map _
  | load resource text => exact (Workbench.obeys_loadResource _ _).bind fun _ => .pure _
  | pass millis => exact (obeys_passTime _).bind fun _ => .pure _
  | setClock millis => exact (hsession (.read _)).bind fun _ => (obeys_passTime _).bind fun _ => .pure _
  | change f => exact (hsession (Dialog.obeys_call _).discard).bind fun _ => .pure _
  | memo n action =>
    refine (Obeys.read _).bind fun memos => ?_
    split
    · exact .pure _
    · have hline (w : Workbench σ) (hw : w.line.Has T fun _ => True) (m : Memo) (t : Memo.Timed) :
          ((memoPart n m).set t w).line.Has T fun _ => True := ⟨hw.session, trivial⟩
      exact Obeys.map (.within fun w hw => ends_of_forall (fun _ => hline w hw _) (fun _ => hline w hw _)
        (hline w hw _)) _
  | begin seconds => exact (hsession (hT.begin seconds)).bind fun _ => .pure _
  | expiry => exact (hsession Session.obeys_expiry).map _
  | commit => exact (hsession (hT.finish _)).bind fun _ => .pure _
  | rollback => exact (hsession (hT.finish _)).bind fun _ => .pure _
  | ping => exact (hsession hupheld.ping).bind fun _ => .pure _
  | nextValue sequence => exact (hsession (hupheld.nextValue _)).bind fun _ => .pure _
  | terminate => exact (hsession hT.terminate).attempt.bind fun _ => .pure _
  | transaction seconds body => exact .pure _

end Step

theorem Body.obeys_perform {α : Type} {T : Session → Prop} (hT : Session.Lasting b T) (body : Body σ α) :
    Obeys (Workbench.keepingSession σ T) (body.perform b) := by
  induction body with
  | give a => exact .pure a
  | fail e => exact .fail e
  | look next ih => exact fun w hw => ih w w hw
  | act step next ih => exact (Step.obeys_perform hT step).attempt.bind ih
  | transaction seconds inner next ihinner ih =>
    exact (Session.obeys_withTransaction hT Workbench.obeys_onLine seconds ihinner).attempt.bind ih

end NamedSql
