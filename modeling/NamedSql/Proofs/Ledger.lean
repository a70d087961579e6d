import NamedSql.Proofs.Recording

/-!
# Records of handles

A record that is a `Ledger` is one in which handles are only used while they are open: nothing happens to
a handle after it was closed, and of the handles that were opened exactly those are not closed once that
are still open.
-/

namespace NamedSql

/-- What is done with a handle. -/
inductive HandleEvent where
  | opened (handle : Nat)
  | used (handle : Nat)
  | closed (handle : Nat)
deriving DecidableEq, Repr

def HandleEvent.handle : HandleEvent → Nat
  | opened h => h
  | used h => h
  | closed h => h

/-- What a request does with a handle. Preparing opens one if it succeeds, and every attempt to close one
counts, however it ends. Rows are read through the cursor of an execution and not through its handle. -/
def Entry.event? (e : Entry) : Option HandleEvent :=
  match e.request with
  | .prepare h _ => if e.fault.isNone then some (.opened h) else none
  | .bind h _ _ => some (.used h)
  | .clearBindings h => some (.used h)
  | .execute h => some (.used h)
  | .executeBatch h _ => some (.used h)
  | .limitRows h _ => some (.used h)
  | .limitTime h _ => some (.used h)
  | .fetch _ => none
  | .close h => some (.closed h)

/-- What was done with the handles of a connection. -/
def Recorded.events {σ : Type} (r : Recorded σ) : List HandleEvent :=
  r.entries.filterMap Entry.event?

/-! ### Ledgers -/

/-- Nothing happens to a handle after it was closed. -/
def NoneAfterClose (es : List HandleEvent) : Prop :=
  es.Pairwise fun e f => ∀ h, e = .closed h → f.handle ≠ h

/-- Each handle that was opened is closed once afterwards. -/
def ClosedOnce (es : List HandleEvent) : Prop :=
  ∀ before h after, es = before ++ .opened h :: after → after.count (.closed h) = 1

/-- The records in which handles are only used while they are open, with the handles that are open at
their end. -/
inductive Ledger : List HandleEvent → List Nat → Prop where
  | empty : Ledger [] []
  | opened {es hs h} : Ledger es hs → (∀ e ∈ es, e.handle ≠ h) → Ledger (es ++ [.opened h]) (hs ++ [h])
  | used {es hs h} : Ledger es hs → h ∈ hs → Ledger (es ++ [.used h]) hs
  | closed {es hs h} : Ledger es hs → h ∈ hs → Ledger (es ++ [.closed h]) (hs.erase h)

namespace Ledger

variable {es : List HandleEvent} {hs : List Nat} {h : Nat}

theorem used_many (l : Ledger es hs) (hh : h ∈ hs) (n : Nat) : Ledger (es ++ List.replicate n (.used h)) hs := by
  induction n with
  | zero => rwa [List.replicate_zero, List.append_nil]
  | succ n ih =>
    rw [List.replicate_succ', ← List.append_assoc]
    exact ih.used hh

theorem opened_mem (l : Ledger es hs) (hh : h ∈ hs) : .opened h ∈ es := by
  induction l with
  | empty => cases hh
  | opened _ _ ih =>
    rcases List.mem_append.1 hh with hh | hh
    · exact List.mem_append_left _ (ih hh)
    · obtain rfl := List.mem_singleton.1 hh
      exact List.mem_append_right _ List.mem_cons_self
  | used _ _ ih => exact List.mem_append_left _ (ih hh)
  | closed _ _ ih => exact List.mem_append_left _ (ih (List.mem_of_mem_erase hh))

theorem nodup (l : Ledger es hs) : hs.Nodup := by
  induction l with
  | empty => exact List.nodup_nil
  | @opened es hs h l hfresh ih =>
    refine List.nodup_append.2 ⟨ih, List.nodup_singleton h, fun i hi j hj hij => ?_⟩
    obtain rfl := List.mem_singleton.1 hj
    exact hfresh _ (l.opened_mem hi) hij
  | used _ _ ih => exact ih
  | closed _ _ ih => exact ih.erase _

theorem not_mem_of_closed (l : Ledger es hs) (hc : .closed h ∈ es) : h ∉ hs := by
  induction l with
  | empty => cases hc
  | @opened es hs i l hfresh ih =>
    replace hc : .closed h ∈ es := by simpa using hc
    intro hh
    rcases List.mem_append.1 hh with hh | hh
    · exact ih hc hh
    · obtain rfl := List.mem_singleton.1 hh
      exact hfresh (.closed h) hc rfl
  | used _ _ ih => exact ih (by simpa using hc)
  | @closed es hs i l hi ih =>
    intro hh
    rcases List.mem_append.1 hc with hc | hc
    · exact ih hc (List.mem_of_mem_erase hh)
    · obtain rfl : h = i := by simpa using hc
      exact l.nodup.not_mem_erase hh

theorem noneAfterClose (l : Ledger es hs) : NoneAfterClose es := by
  have snoc : ∀ {es : List HandleEvent} {f : HandleEvent}, NoneAfterClose es →
      (∀ h, .closed h ∈ es → f.handle ≠ h) → NoneAfterClose (es ++ [f]) := by
    intro es f hes hf
    refine List.pairwise_append.2 ⟨hes, List.pairwise_singleton _ _, fun e he g hg h heq => ?_⟩
    obtain rfl := List.mem_singleton.1 hg
    exact hf h (heq ▸ he)
  induction l with
  | empty => exact List.Pairwise.nil
  | @opened es hs i l hfresh ih =>
    refine snoc ih fun h hc heq => ?_
    exact hfresh (.closed h) hc heq.symm
  | @used es hs i l hi ih =>
    refine snoc ih fun h hc heq => ?_
    obtain rfl : i = h := heq
    exact l.not_mem_of_closed hc hi
  | @closed es hs i l hi ih =>
    refine snoc ih fun h hc heq => ?_
    obtain rfl : i = h := heq
    exact l.not_mem_of_closed hc hi

theorem split_snoc {es before after : List HandleEvent} {e f : HandleEvent}
    (h : es ++ [f] = before ++ e :: after) :
    (after = [] ∧ es = before ∧ f = e) ∨ ∃ rest, after = rest ++ [f] ∧ es = before ++ e :: rest := by
  rcases List.eq_nil_or_concat' after with rfl | ⟨rest, g, rfl⟩
  · obtain ⟨hes, hf⟩ := List.append_inj' h rfl
    exact .inl ⟨rfl, hes, List.cons.inj hf |>.1⟩
  · have h' : es ++ [f] = (before ++ e :: rest) ++ [g] := by rw [h]; simp
    obtain ⟨hes, hf⟩ := List.append_inj' h' rfl
    obtain rfl := (List.cons.inj hf).1
    exact .inr ⟨rest, rfl, hes⟩

/-- A handle that was opened is closed once afterwards, unless it is still open. -/
theorem count_closed (l : Ledger es hs) {before after : List HandleEvent}
    (hes : es = before ++ .opened h :: after) : after.count (.closed h) = if h ∈ hs then 0 else 1 := by
  induction l generalizing after with
  | empty => exact absurd hes (by simp)
  | @opened es hs i l hfresh ih =>
    rcases split_snoc hes with ⟨rfl, -, heq⟩ | ⟨rest, rfl, rfl⟩
    · obtain rfl := HandleEvent.opened.inj heq
      simp
    · -- a handle is new when it is opened, so this is another one
      have hi : h ≠ i := by
        rintro rfl
        exact hfresh (.opened h) (by simp) rfl
      simpa [hi] using ih rfl
  | used _ _ ih =>
    rcases split_snoc hes with ⟨-, -, heq⟩ | ⟨rest, rfl, rfl⟩
    · cases heq
    · simpa using ih rfl
  | @closed es hs i l hi ih =>
    rcases split_snoc hes with ⟨-, -, heq⟩ | ⟨rest, rfl, rfl⟩
    · cases heq
    have hcount := ih rfl
    by_cases heq : h = i
    · obtain rfl := heq
      rw [if_pos hi] at hcount
      rw [if_neg l.nodup.not_mem_erase, List.count_append, hcount]
      simp
    · rw [List.count_append, hcount]
      simp [List.mem_erase_of_ne heq, Ne.symm heq]

theorem closedOnce (l : Ledger es []) : ClosedOnce es := fun _ _ _ hes => l.count_closed hes

end Ledger

/-- A ledger in which `next` is the number of the next handle. -/
structure Booked (hs : List Nat) (es : List HandleEvent) (next : Nat) : Prop where
  ledger : Ledger es hs
  fresh : ∀ e ∈ es, e.handle < next

namespace Booked

variable {es : List HandleEvent} {hs : List Nat} {next h : Nat}

theorem empty : Booked [] [] 0 := ⟨.empty, nofun⟩

theorem lt (b : Booked hs es next) (hh : h ∈ hs) : h < next := b.fresh _ (b.ledger.opened_mem hh)

theorem not_mem (b : Booked hs es next) : next ∉ hs := fun hn => Nat.lt_irrefl _ (b.lt hn)

theorem opened (b : Booked hs es next) : Booked (hs ++ [next]) (es ++ [.opened next]) (next + 1) := by
  refine ⟨b.ledger.opened fun e he => Nat.ne_of_lt (b.fresh e he), List.forall_mem_append.2 ⟨fun e he => ?_, ?_⟩⟩
  · exact Nat.lt_succ_of_lt (b.fresh e he)
  · exact List.forall_mem_singleton.2 (Nat.lt_succ_self _)

theorem used (b : Booked hs es next) (hh : h ∈ hs) (n : Nat) :
    Booked hs (es ++ List.replicate n (.used h)) next := by
  refine ⟨b.ledger.used_many hh n, List.forall_mem_append.2 ⟨b.fresh, fun e he => ?_⟩⟩
  obtain rfl := (List.mem_replicate.1 he).2
  exact b.lt hh

theorem closed (b : Booked hs es next) (hh : h ∈ hs) : Booked (hs.erase h) (es ++ [.closed h]) next :=
  ⟨b.ledger.closed hh, List.forall_mem_append.2 ⟨b.fresh, List.forall_mem_singleton.2 (b.lt hh)⟩⟩

end Booked

end NamedSql
