import NamedSql.Proofs.Watching

/-!
# Statements without parameters

A session begins and ends transactions with statements of its own, which are prepared, executed and closed
at once. What was seen of such a run tells whether the statement was executed, and a run that fails may
well have executed it (`ends_runUnchecked`).
-/

namespace NamedSql

open NamedSql.Flow

variable {σ α : Type} {b : Backend σ}

/-- The requests of a statement that is prepared, executed and closed. -/
def Request.Direct (sql : String) (handle : Nat) : Request → Prop
  | .prepare h text => h = handle ∧ text = sql
  | .execute h | .close h => h = handle
  | .fetch _ => True
  | _ => False

/-- The SQL is prepared under the handle, and nothing is done with any other. -/
structure Runs (sql : String) (handle : Nat) (calls : List Watch) : Prop where
  asked : ∃ x ∈ calls, x.request = .prepare handle sql
  only : ∀ x ∈ calls, x.request.Direct sql handle

/-- A statement was executed with success. -/
def Executed (calls : List Watch) : Prop :=
  ∃ handle now, .called (.execute handle) (.done ()) now ∈ calls

theorem Runs.append {sql : String} {handle : Nat} {calls more : List Watch} (h : Runs sql handle calls)
    (hmore : ∀ x ∈ more, x.request.Direct sql handle) : Runs sql handle (calls ++ more) := by
  obtain ⟨x, hx, hasked⟩ := h.asked
  exact ⟨⟨x, List.mem_append_left more hx, hasked⟩, List.forall_mem_append.2 ⟨h.only, hmore⟩⟩

theorem Runs.concat {sql : String} {handle : Nat} {calls : List Watch} {x : Watch} (h : Runs sql handle calls)
    (hx : x.request.Direct sql handle) : Runs sql handle (calls ++ [x]) :=
  h.append (List.forall_mem_singleton.2 hx)

theorem Executed.append {calls : List Watch} (h : Executed calls) (more : List Watch) : Executed (calls ++ more) := by
  obtain ⟨handle, now, hmem⟩ := h
  exact ⟨handle, now, List.mem_append_left more hmem⟩

namespace Session

/-- The transaction, whether the session is over, and the settings are as they were. -/
structure SameTransaction (s s' : Session) : Prop where
  transaction : s'.transaction = s.transaction
  terminated : s'.terminated = s.terminated
  settings : s'.settings = s.settings

theorem SameTransaction.refl (s : Session) : SameTransaction s s :=
  ⟨rfl, rfl, rfl⟩

theorem SameTransaction.trans {s s' s'' : Session} (h : SameTransaction s s') (h' : SameTransaction s' s'') :
    SameTransaction s s'' :=
  ⟨h'.transaction.trans h.transaction, h'.terminated.trans h.terminated, h'.settings.trans h.settings⟩

theorem SameTransaction.vendor {s s' : Session} (h : SameTransaction s s') : s'.vendor = s.vendor :=
  congrArg Settings.vendor h.settings

abbrev After (K : List Watch → Prop) (s : Session) (start : List Watch) : Line (Watched σ) → Prop :=
  Line.Has (SameTransaction s) (Since K start)

section
variable {s : Session} {start : List Watch} {l : Line (Watched σ)} {K : List Watch → Prop} {sql : String}

theorem ends_released (result : Except Failure α) {note : Failure → Event} {handle : Nat}
    (hl : After K s start l)
    (hK : ∀ calls ending now, K calls → K (calls ++ [.called (.close handle) ending now])) :
    ends ((release b.watched handle sql).attempt >>= fun closed => settle result closed note)
      (fun a l' => result = .ok a ∧ After K s start l')
      (fun e l' => (result = .error e ∨ ∃ fault, e = s.vendor.failure sql none fault) ∧ After K s start l')
      (After K s start) l := by
  have hclosed {ending : Outcome NativeFault Unit} (w : World (Watched σ))
      (hw : w.link.seen = l.world.link.seen ++ [.called (.close handle) ending w.now]) :
      After K s start (l.without handle w) := by
    have hworld : Since K start w := hl.world.concat hw fun calls => hK calls ending w.now
    exact ⟨⟨hl.session.transaction, hl.session.terminated, hl.session.settings⟩, hworld⟩
  have hsettled (l' : Line (Watched σ)) (hl' : After K s start l') :
      ends (settle result (.ok ()) note : Dialog (Watched σ) α) (fun a l' => result = .ok a ∧ After K s start l')
        (fun e l' => (result = .error e ∨ ∃ fault, e = s.vendor.failure sql none fault) ∧ After K s start l')
        (After K s start) l' := by
    rcases result with e | a
    · exact ⟨.inl rfl, hl'⟩
    · exact ⟨rfl, hl'⟩
  rw [ends_bind, ends_attempt]
  refine ends_release (hsettled l hl) ?_
  refine ends_watch _ _ (fun _ w hw => hsettled _ (hclosed w hw)) (fun fault w hw => ?_) fun w hw => hclosed w hw
  rcases result with e | a
  · exact ⟨.inl rfl, (hclosed w hw).session, (hclosed w hw).world⟩
  · exact ⟨.inr ⟨fault, congrArg (Vendor.failure · sql none fault) hl.session.vendor⟩, hclosed w hw⟩

theorem ends_executeFirst {handle : Nat} {w : World (Watched σ)} (hw : Since (Runs sql handle) start w) :
    ends (executeFirst b.watched handle)
      (fun _ => Since (fun calls => Runs sql handle calls ∧ Executed calls) start)
      (fun _ => Since (Runs sql handle) start) (Since (Runs sql handle) start) w := by
  have hsnoc {ending : Outcome NativeFault Unit} (v : World (Watched σ))
      (hv : v.link.seen = w.link.seen ++ [.called (.execute handle) ending v.now]) :
      Since (Runs sql handle) start v :=
    hw.concat hv fun _ hcalls => hcalls.concat (x := .called (.execute handle) _ _) rfl
  unfold executeFirst
  rw [ends_bind]
  refine ends_watch _ _ (fun reply v hv => ?_) (fun _ v hv => hsnoc v hv) fun v hv => hsnoc v hv
  have hexecuted : Since (fun calls => Runs sql handle calls ∧ Executed calls) start v :=
    hw.concat hv fun calls hcalls => ⟨hcalls.concat (x := .called (.execute handle) _ _) rfl, handle, v.now,
      List.mem_append_right calls (List.mem_singleton_self _)⟩
  cases reply with
  | rows feed =>
    have hread : Asks (Request.Direct sql handle) (b.watched.nextRow feed) := asks_nextRow (fun _ => trivial) feed
    have hends := hread.keeps (fun calls more hcalls hmore => ⟨hcalls.1.append hmore, hcalls.2.append more⟩) start
      v hexecuted
    rw [ends_bind]
    exact ends_mono hends (fun _ _ h => h) (fun _ _ h => h.mono fun _ => And.left) fun _ h => h.mono fun _ => And.left
  | count n => exact hexecuted

/-- A run that gives a result has executed the SQL. One that fails with anything but an error of the database
has not, and one that fails with such an error may have. -/
theorem ends_runUnchecked (sql : String) (l : Line (Watched σ)) :
    ends (runUnchecked b.watched sql)
      (fun _ => After (fun calls => Runs sql l.session.nextHandle calls ∧ Executed calls) l.session
        l.world.link.seen)
      (fun e => After (fun calls => Runs sql l.session.nextHandle calls ∧
        (Executed calls → ∃ fault, e = l.session.vendor.failure sql none fault)) l.session l.world.link.seen)
      (After (Runs sql l.session.nextHandle) l.session l.world.link.seen) l := by
  have hrefl : SameTransaction l.session l.session := .refl _
  unfold runUnchecked
  rw [ends_bind]
  have hasked {ending : Outcome NativeFault Unit} {now : Instant} :
      Runs sql l.session.nextHandle [.called (.prepare l.session.nextHandle sql) ending now] :=
    ⟨⟨_, List.mem_singleton_self _, rfl⟩, List.forall_mem_singleton.2 ⟨rfl, rfl⟩⟩
  refine ends_prepareHandle (ends_watch _ _ (fun _ w hw log => ?_) (fun fault w hw => ?_) fun w hw => ?_)
  rotate_left
  · exact ⟨hrefl, _, hw, hasked, fun _ => ⟨fault, rfl⟩⟩
  · exact ⟨hrefl, _, hw, hasked⟩
  -- the statement is prepared under a handle that is open
  have hsame : SameTransaction l.session (l.withNext w log).session := ⟨rfl, rfl, rfl⟩
  have hopen : (l.withNext w log).session.handles.contains l.session.nextHandle = true := by
    rw [List.contains_iff_mem]
    exact List.mem_append_right _ (List.mem_singleton_self _)
  have hprepared : Since (Runs sql l.session.nextHandle) l.world.link.seen w := ⟨_, hw, hasked⟩
  rw [ends_bind, Dialog.session, ends_read, ends_bind]
  show ends (Flow.require ((l.withNext w log).session.handles.contains l.session.nextHandle) _ >>= fun _ =>
    Dialog.call (executeFirst b.watched l.session.nextHandle)) _ _ _ _
  rw [ends_bind, ends_require, if_pos hopen, Dialog.call, ends_within, ends_attempt]
  refine ends_mono (ends_executeFirst hprepared) (fun row v hv => ?_) (fun fault v hv => ?_)
    fun v hv => ⟨hsame, hv⟩
  · have hclose (calls : List Watch) (ending : Outcome NativeFault Unit) (now : Instant)
        (hcalls : Runs sql l.session.nextHandle calls ∧ Executed calls) :
        Runs sql l.session.nextHandle (calls ++ [.called (.close l.session.nextHandle) ending now]) ∧
          Executed (calls ++ [.called (.close l.session.nextHandle) ending now]) :=
      ⟨hcalls.1.concat rfl, hcalls.2.append _⟩
    refine ends_mono (ends_released (.ok row) ⟨hsame, hv⟩ hclose) (fun _ _ h => h.2) ?_
      fun _ h => ⟨h.session, h.world.mono fun _ => And.left⟩
    rintro e l' ⟨herror | herror, hl'⟩
    · cases herror
    · exact ⟨hl'.session, hl'.world.mono fun _ hcalls => ⟨hcalls.1, fun _ => herror⟩⟩
  · have hclose (calls : List Watch) (ending : Outcome NativeFault Unit) (now : Instant)
        (hcalls : Runs sql l.session.nextHandle calls) :
        Runs sql l.session.nextHandle (calls ++ [.called (.close l.session.nextHandle) ending now]) :=
      hcalls.concat rfl
    refine ends_mono (ends_released (.error (l.session.vendor.failure sql none fault)) ⟨hsame, hv⟩ hclose) ?_ ?_
      fun _ h => h
    · rintro a l' ⟨hok, -⟩
      cases hok
    · rintro e l' ⟨herror | herror, hl'⟩
      · have he : e = l.session.vendor.failure sql none fault := (Except.error.inj herror).symm
        exact ⟨hl'.session, hl'.world.mono fun _ hcalls => ⟨hcalls, fun _ => ⟨fault, he⟩⟩⟩
      · exact ⟨hl'.session, hl'.world.mono fun _ hcalls => ⟨hcalls, fun _ => herror⟩⟩

theorem ends_run {Q : Option (List Value) → Line σ → Prop} {E : Failure → Line σ → Prop}
    {O : Line σ → Prop} {l : Line σ} (h : l.session.terminated = false) :
    ends (run b sql) Q E O l ↔ ends (runUnchecked b sql) Q E O l := by
  unfold run
  rw [ends_bind, ends_checkOpen, h]
  rfl

end

end Session

end NamedSql
