import NamedSql.Workbench.Step
import NamedSql.Proofs.Handles.Statement
import NamedSql.Proofs.Roster

/-!
# Handles of workbenches

The handles of a session are those of the statements on its workbench. The main theorem follows them
through any run of steps.
-/

namespace NamedSql

open NamedSql.Flow

variable {σ : Type} {b : Backend σ}

/-- The handles of the statements of a roster. -/
def heldBy (r : Roster Statement) : List Nat :=
  r.flatMap (·.2.held)

theorem heldBy_split (before after : Roster Statement) (name : String) (st : Statement) (mine : List Nat) :
    (mine ++ heldBy (before ++ (name, st) :: after)).Perm (mine ++ heldBy (before ++ after) ++ st.held) := by
  have hsplit : heldBy (before ++ (name, st) :: after) = heldBy before ++ (st.held ++ heldBy after) := by
    rw [heldBy, List.flatMap_append, List.flatMap_cons]; rfl
  have hjoin : heldBy (before ++ after) = heldBy before ++ heldBy after := by
    rw [heldBy, List.flatMap_append]; rfl
  rw [hsplit, hjoin, List.append_assoc, List.append_assoc]
  exact (List.perm_append_comm.append_left _).append_left mine

/-- The handles of the statements of a roster that are not closed. -/
def openHandles (r : Roster Statement) : List Nat :=
  (r.filter (!·.2.closed)).flatMap (·.2.held)

theorem heldBy_eq_openHandles {r : Roster Statement}
    (h : ∀ p ∈ r, p.2.closed = true → p.2.handle = none) : heldBy r = openHandles r := by
  induction r with
  | nil => rfl
  | cons p r ih =>
    replace ih := ih fun q hq => h q (List.mem_cons_of_mem _ hq)
    rw [heldBy, List.flatMap_cons, ← heldBy, ih, openHandles, openHandles]
    cases hclosed : p.2.closed with
    | false => rw [List.filter_cons_of_pos (by simp [hclosed]), List.flatMap_cons]
    | true =>
      have hnone : p.2.held = [] := by rw [Statement.held, h p List.mem_cons_self hclosed]; rfl
      rw [List.filter_cons_of_neg (by simp [hclosed]), hnone, List.nil_append]

/-- The session of a workbench has the handles of its statements and some handles more. -/
structure Kept (mine : List Nat) (w : Workbench (Recorded σ)) : Prop where
  ascending : w.statements.Ascending
  closed : ∀ p ∈ w.statements, p.2.closed = true → p.2.handle = none
  accounts : Accounts (mine ++ heldBy w.statements) w.line

namespace Kept

variable {mine : List Nat} {w : Workbench (Recorded σ)}

/-- The desk of a statement on the workbench: what is done on it changes the entry of the statement. -/
theorem desk {name : String} {st : Statement} (h : Kept mine w) (hst : w.statements.get? name = some st) :
    ∃ others : List Nat, Held others (w.desk st) ∧ ∀ d, Held others d →
      Kept mine { w.noteDesk d with statements := w.statements.put name d.statement } ∧
      (d.statement.handle = none → Kept mine { w.noteDesk d with statements := w.statements.erase name }) := by
  obtain ⟨before, after, hsplit, herase, hput⟩ := h.ascending.exists_of_get? hst
  have hclosed := h.closed
  have haccounts := h.accounts
  rw [hsplit] at haccounts hclosed
  refine ⟨mine ++ heldBy (before ++ after), ⟨haccounts.perm (heldBy_split _ _ _ _ _), ?_⟩, fun d hd => ⟨?_, ?_⟩⟩
  · exact hclosed (name, st) (by simp)
  · refine ⟨h.ascending.put, ?_, ?_⟩
    · show ∀ p ∈ w.statements.put name d.statement, _
      rw [hput]
      intro p hp
      rcases List.mem_append.1 hp with hp | hp
      · exact hclosed p (List.mem_append_left _ hp)
      · rcases List.mem_cons.1 hp with rfl | hp
        · exact hd.closed
        · exact hclosed p (List.mem_append_right _ (List.mem_cons_of_mem _ hp))
    · show Accounts (mine ++ heldBy (w.statements.put name d.statement)) d.line
      rw [hput]
      exact hd.accounts.perm (heldBy_split _ _ _ _ _).symm
  · intro hnone
    refine ⟨h.ascending.erase, fun p hp => h.closed p (List.mem_filter.1 hp).1, ?_⟩
    show Accounts (mine ++ heldBy (w.statements.erase name)) d.line
    rw [herase]
    have hd := hd.accounts
    rwa [Statement.append_held hnone] at hd

/-- A new name is entered for a statement whose handle was kept aside. -/
theorem enter {name : String} {st : Statement} (h : Kept mine w) (hmine : st.held = mine)
    (hst : st.closed = false) (hnone : w.statements.get? name = none) :
    Kept [] { w with statements := w.statements.put name st } := by
  obtain ⟨before, after, hsplit, hput⟩ := h.ascending.exists_of_get?_none hnone
  refine ⟨h.ascending.put, fun p hp => ?_, ?_⟩
  · rcases Roster.mem_put hp with rfl | hp
    · exact fun hclosed => absurd (hst.symm.trans hclosed) Bool.false_ne_true
    · exact h.closed p hp
  · show Accounts ([] ++ heldBy (w.statements.put name st)) w.line
    have haccounts := h.accounts
    rw [hsplit, ← hmine] at haccounts
    rw [hput]
    exact haccounts.perm (List.perm_append_comm.trans (heldBy_split before after name st []).symm)

theorem openHandles (h : Kept [] w) (hopen : w.line.session.terminated = false) :
    w.line.session.handles.Perm (NamedSql.openHandles w.statements) ∧
      (NamedSql.openHandles w.statements).Nodup := by
  have hperm := h.accounts.owned hopen
  rw [List.nil_append, heldBy_eq_openHandles h.closed] at hperm
  exact ⟨hperm, hperm.nodup_iff.1 h.accounts.booked.ledger.nodup⟩

end Kept

namespace Workbench

variable {mine : List Nat} {w : Workbench (Recorded σ)} {α : Type}

theorem keeps_onLine {m : Dialog (Recorded σ) α} (hm : ∀ owned, Keeps (Accounts owned) m) :
    Keeps (Kept mine) (onLine m) :=
  Keeps.within fun w h => wp_mono (hm _ w.line h.accounts) (fun _ _ ha => ⟨h.ascending, h.closed, ha⟩)
    fun _ _ ha => ⟨h.ascending, h.closed, ha⟩

theorem keeps_useStatement (name : String) {m : Work (Recorded σ) α} (hm : ∀ others, Keeps (Held others) m) :
    Keeps (Kept mine) (useStatement name m) := by
  intro w h
  unfold wp useStatement
  rcases hst : w.statements.get? name with _ | st
  · exact h
  · obtain ⟨others, hdesk, hback⟩ := h.desk hst
    have hd := hm others (w.desk st) hdesk
    unfold wp at hd
    dsimp only
    rcases hmd : m (w.desk st) with ⟨_ | _ | _, d⟩ <;> rw [hmd] at hd
    · exact (hback d hd).1
    · exact (hback d hd).1
    · trivial

theorem wp_dropStatement (name : String) (h : Kept mine w) :
    wp (dropStatement b.recorded name) (fun _ w => Kept mine w ∧ w.statements.get? name = none)
      (fun _ _ => False) w := by
  unfold wp dropStatement
  rcases hst : w.statements.get? name with _ | st
  · exact ⟨h, hst⟩
  · obtain ⟨others, hdesk, hback⟩ := h.desk hst
    have hd := Statement.wp_drop (b := b) hdesk
    unfold wp at hd
    dsimp only
    rcases hmd : Statement.drop b.recorded (w.desk st) with ⟨_ | _ | _, d⟩ <;> rw [hmd] at hd
    · exact ⟨(hback d hd.1).2 hd.2, Roster.get?_erase⟩
    · exact hd
    · trivial

theorem keeps_parse (source : String) : Keeps (Kept (σ := σ) mine) (parse source) :=
  (keeps_onLine fun _ => Dialog.keeps_session).bind fun _ => .ofExcept _

/-- A statement that is entered keeps the handle that it had before. -/
theorem keeps_addStatement (name : String) (template : Template) (page : Option Page)
    {equip : Statement → Statement} (hh : ∀ st, (equip st).handle = st.handle)
    (hc : ∀ st, (equip st).closed = st.closed) :
    Keeps (Kept []) (addStatement b.recorded name template page equip) := by
  intro w h
  unfold addStatement
  rw [wp_bind, onLine, wp_within]
  refine wp_mono (Statement.wp_create template page h.accounts) ?_ fun _ l hl => ⟨h.ascending, h.closed, hl⟩
  rintro st l ⟨hl, hst⟩
  have hmine : Kept st.held { w with line := l } := ⟨h.ascending, h.closed, hl.perm List.perm_append_comm⟩
  dsimp only
  rw [wp_bind]
  refine wp_mono (wp_dropStatement name hmine) ?_ fun _ _ h => h.elim
  rintro _ w ⟨h, hnone⟩
  rw [wp_bind, wp_modify]
  exact h.enter (by rw [Statement.held, hh, Statement.held]) ((hc st).trans hst) hnone

theorem keeps_addFromCatalog (name resource statement : String) (page : Option Page)
    {equip : Statement → Statement} (hh : ∀ st, (equip st).handle = st.handle)
    (hc : ∀ st, (equip st).closed = st.closed) :
    Keeps (Kept []) (addFromCatalog b.recorded name resource statement page equip) :=
  (Keeps.read _).bind fun _ => (Keeps.ofExcept _).bind fun _ =>
    keeps_addStatement _ _ _ (fun _ => hh _) fun _ => hc _

theorem keeps_loadResource (resource text : String) :
    Keeps (Kept (σ := σ) mine) (loadResource resource text) :=
  (Keeps.read _).bind fun _ => (Keeps.ofExcept _).bind fun _ =>
    Keeps.bind (.modify fun _ h => ⟨h.ascending, h.closed, h.accounts⟩) fun _ => .pure _

/-! ### Cursors -/

theorem keeps_openCursor (name cursor : String) : Keeps (Kept mine) (openCursor b.recorded name cursor) :=
  (keeps_useStatement name fun _ => Statement.keeps_query).bind fun _ =>
    Keeps.bind (.modify fun _ h => ⟨h.ascending, h.closed, h.accounts⟩) fun _ => .pure _

theorem keeps_useCursor (name : String) {m : Cursor.Reading (Recorded σ) α} (hm : Cursor.Silent m) :
    Keeps (Kept mine) (useCursor name m) := by
  intro w h
  unfold wp useCursor
  dsimp only
  rcases huse : ((w.cursors.get? name).getD (Cursor.empty w.line.session.vendor)).use m w.line with ⟨r, c, l⟩
  have hl (hr : r ≠ .overflow) : Accounts (mine ++ heldBy w.statements) l := by
    have haccounts := h.accounts.use hm ((w.cursors.get? name).getD (Cursor.empty w.line.session.vendor))
      (by rwa [huse])
    rwa [huse] at haccounts
  cases r with
  | done a => exact ⟨h.ascending, h.closed, hl nofun⟩
  | failed e => exact ⟨h.ascending, h.closed, hl nofun⟩
  | overflow => trivial

theorem keeps_drain (cursor : String) : Keeps (Kept mine) (drain b.recorded cursor) :=
  (keeps_useCursor cursor Cursor.silent_readAll).attempt.bind fun _ =>
    Keeps.bind (.modify fun _ h => ⟨h.ascending, h.closed, h.accounts⟩) fun _ => .ofExcept _

/-! ### The end -/

theorem wp_dropStatements (names : List String) (h : Kept mine w) :
    wp (dropStatements b.recorded names) (fun _ => Kept mine) (fun _ _ => False) w := by
  induction names generalizing w with
  | nil => exact h
  | cons name names ih =>
    unfold dropStatements
    rw [wp_bind]
    exact wp_mono (wp_dropStatement name h) (fun _ _ h => ih h.1) fun _ _ h => h

theorem wp_drop (h : Kept [] w) :
    wp (drop b.recorded) (fun _ w => Registered [] true w.line) (fun _ _ => False) w := by
  unfold drop
  rw [wp_bind, wp_modify, wp_bind, wp_read, wp_bind]
  have hstart : Kept [] { w with cursors := [] } := ⟨h.ascending, h.closed, h.accounts⟩
  refine wp_mono (wp_dropStatements _ hstart) (fun _ w h => ?_) fun _ _ h => h
  rw [onLine, wp_within]
  exact wp_mono (Session.wp_drop h.accounts.registered h.accounts.ended) (fun _ _ h => h) fun _ _ h => h

end Workbench

end NamedSql
