import NamedSql.Memo.Action
import NamedSql.Proofs.Flow
import NamedSql.Proofs.Sameness

/-!
# Memos as queues

A `Fifo` is the plain form of a memo with its clock: one list of keys, each with its entry, in the order
in which the keys came. The main theorem says that a memo that starts empty answers every history of
actions as its `Fifo` does, and that its entries and its order of keys always belong together.
-/

namespace NamedSql

/-- Keys with their entries in the order in which the keys came, and a clock. -/
structure Fifo where
  slots : List (MemoKey × MemoEntry)
  closed : Bool
  now : Instant

namespace Fifo

section
variable [DecidableEq MemoKey]

def find? (r : Fifo) (k : MemoKey) : Option MemoEntry :=
  (r.slots.find? (·.1 = k)).map (·.2)

/-- The table under a key, unless its time is up. -/
def table? (r : Fifo) (k : MemoKey) : Option Table :=
  (r.find? k).bind fun e => if r.now.millis < e.expires.millis then some e.table else none

/-- Stores an entry, in place of one with the same key or else behind all others. A full list loses its
head to a new key, and keys with a stream are not stored. -/
def put (capacity : Nat) (r : Fifo) (k : MemoKey) (e : MemoEntry) : Fifo :=
  if !k.isStorable then r
  else if (r.find? k).isSome then
    { r with slots := r.slots.map fun s => if s.1 = k then (s.1, e) else s }
  else
    let slots := if r.slots.length = capacity then r.slots.tail else r.slots
    { r with slots := slots ++ [(k, e)] }

theorem put_unstorable {capacity : Nat} {r : Fifo} {k : MemoKey} {e : MemoEntry} (hk : k.isStorable = false) :
    r.put capacity k e = r := by
  rw [put, hk]; rfl

theorem put_present {capacity : Nat} {r : Fifo} {k : MemoKey} {e old : MemoEntry} (hk : k.isStorable = true)
    (hfind : r.find? k = some old) :
    r.put capacity k e = { r with slots := r.slots.map fun s => if s.1 = k then (s.1, e) else s } := by
  rw [put, hk, hfind]; rfl

theorem put_absent {capacity : Nat} {r : Fifo} {k : MemoKey} {e : MemoEntry} (hk : k.isStorable = true)
    (hfind : r.find? k = none) :
    r.put capacity k e =
      { r with slots := (if r.slots.length = capacity then r.slots.tail else r.slots) ++ [(k, e)] } := by
  rw [put, hk, hfind]; rfl

def remove (r : Fifo) (k : MemoKey) : Fifo :=
  { r with slots := r.slots.filter (·.1 ≠ k) }

end

def invalidate (r : Fifo) (statement : String) : Fifo :=
  { r with slots := r.slots.filter (·.1.statement != statement) }

/-- Answers and changes the list, unless it is closed. -/
def whenOpen {α : Type} (f : Fifo → α × Fifo) : Flow Failure Fifo α := fun r =>
  if r.closed then (.failed (.state .memoClosed), r) else (.done (f r).1, (f r).2)

/-- Moves the clock within the calendar. -/
def pass (millis : Int) : Flow Failure Fifo Unit := do
  let now ← Flow.read now
  let now ← Flow.ofCalendar (now.add? millis)
  Flow.modify fun r => { r with now }

theorem pass_some {millis : Int} {r : Fifo} {now : Instant} (h : r.now.add? millis = some now) :
    pass millis r = (.done (), { r with now }) := by
  rw [pass, Flow.read_bind, h, Flow.ofCalendar_some]; rfl

theorem pass_none {millis : Int} {r : Fifo} (h : r.now.add? millis = none) :
    pass millis r = (.overflow, r) := by
  rw [pass, Flow.read_bind, h, Flow.ofCalendar_none]

open Memo in
/-- What a list of slots answers to an action, and the list that it becomes. An expiry or a time beyond
the calendar ends the action before anything else. -/
def perform [DecidableEq MemoKey] (capacity : Nat) (lifetime : Int) : Action → Flow Failure Fifo Result
  | .get k => whenOpen fun r => (.table (r.table? k), r)
  | .put k t expires => whenOpen fun r => (.nothing, r.put capacity k ⟨t, expires⟩)
  | .putDefault k t => do
    let r ← Flow.read id
    let expires ← Flow.ofCalendar (r.now.add? lifetime)
    whenOpen fun r => (.nothing, r.put capacity k ⟨t, expires⟩)
  | .remove k => whenOpen fun r => (.removed (r.find? k).isSome, r.remove k)
  | .invalidate statement => whenOpen fun r =>
    (.number (r.slots.countP (·.1.statement == statement)), r.invalidate statement)
  | .clear => whenOpen fun r => (.nothing, { r with slots := [] })
  | .size => whenOpen fun r => (.number r.slots.length, r)
  | .shutdown => do
    Flow.modify fun r => { r with slots := [], closed := true }
    pure .nothing
  | .pass millis => do
    pass millis
    pure .nothing
  | .setClock millis => do
    let r ← Flow.read id
    pass (millis - r.now.millis)
    pure .nothing

end Fifo

namespace Memo

theorem checkOpen_open {m : Memo} (h : m.closed = false) : m.checkOpen = .ok () := by
  rw [checkOpen, h]; rfl

theorem checkOpen_closed {m : Memo} (h : m.closed = true) : m.checkOpen = .error (.state .memoClosed) := by
  rw [checkOpen, h]; rfl

section
variable {m : Memo} {k : MemoKey} {t : Table} {now expires : Instant}

theorem get_unstorable (h : m.closed = false) (hk : k.isStorable = false) :
    m.get now k = .ok none := by
  rw [get, checkOpen_open h, hk]; rfl

theorem get_present (h : m.closed = false) (hk : k.isStorable = true) {e : MemoEntry}
    (hfind : m.find? k = some e) :
    m.get now k = .ok (if now.millis < e.expires.millis then some e.table else none) := by
  rw [get, checkOpen_open h, hk, hfind]; rfl

theorem get_absent (h : m.closed = false) (hk : k.isStorable = true) (hfind : m.find? k = none) :
    m.get now k = .ok none := by
  rw [get, checkOpen_open h, hk, hfind]; rfl

theorem put_unstorable (h : m.closed = false) (hk : k.isStorable = false) :
    m.put k t expires = .ok m := by
  rw [put, checkOpen_open h, hk]; rfl

theorem put_present (h : m.closed = false) (hk : k.isStorable = true) {old : MemoEntry}
    (hfind : m.find? k = some old) : m.put k t expires = .ok (m.replace k ⟨t, expires⟩) := by
  rw [put, checkOpen_open h, hk, hfind]; rfl

theorem put_absent (h : m.closed = false) (hk : k.isStorable = true) (hfind : m.find? k = none) :
    m.put k t expires =
      .ok ((if m.capacity ≤ m.entries.length then m.dropFirst else m).append k ⟨t, expires⟩) := by
  rw [put, checkOpen_open h, hk, hfind]; rfl

end

/-- The list that a memo with its clock stands for. -/
structure Stands (capacity : Nat) (lifetime : Int) (s : Timed) (r : Fifo) : Prop where
  capacity_eq : s.memo.capacity = capacity
  lifetime_eq : s.memo.lifetime = lifetime
  closed : s.memo.closed = r.closed
  now : s.now = r.now
  order : s.memo.order = r.slots.map (·.1)
  entries : s.memo.entries.Perm r.slots
  nodup : (r.slots.map (·.1)).Nodup
  plain : ∀ k ∈ r.slots.map (·.1), k.isStorable = true ∧ k.hasJsonFloat = false
  positive : 0 < capacity
  room : r.slots.length ≤ capacity

namespace Stands

variable {capacity : Nat} {lifetime : Int} {s : Timed} {r : Fifo} {k : MemoKey}

theorem of_create {m : Memo} (h : create capacity lifetime = .ok m)
    (now : Instant) : Stands capacity lifetime ⟨m, now⟩ ⟨[], false, now⟩ := by
  unfold create at h
  split at h
  · cases h
  rename_i hcapacity
  split at h
  · cases h
  obtain rfl := Except.ok.inj h
  exact ⟨rfl, rfl, rfl, rfl, rfl, .nil, List.nodup_nil, nofun, Nat.pos_of_ne_zero hcapacity, Nat.zero_le _⟩

theorem same_iff (h : Stands capacity lifetime s r) {e : MemoKey × MemoEntry} (he : e ∈ s.memo.entries) :
    e.1.same k = true ↔ e.1 = k := by
  have hmem : e.1 ∈ r.slots.map (·.1) := List.mem_map_of_mem (h.entries.mem_iff.1 he)
  obtain ⟨hstorable, hfloat⟩ := h.plain _ hmem
  rw [MemoKey.same_iff k hfloat]
  exact and_iff_left hstorable

/-- Leaves out the slots whose keys fail a test. -/
theorem filter (h : Stands capacity lifetime s r) (p : MemoKey → Bool) :
    Stands capacity lifetime
      { s with memo.entries := s.memo.entries.filter (p ·.1), memo.order := s.memo.order.filter p }
      { r with slots := r.slots.filter (p ·.1) } := by
  have hkeys : (r.slots.filter (p ·.1)).map (·.1) = (r.slots.map (·.1)).filter p :=
    List.filter_map.symm
  refine ⟨h.capacity_eq, h.lifetime_eq, h.closed, h.now, ?_, h.entries.filter _, ?_, ?_, h.positive, ?_⟩
  · show s.memo.order.filter p = (r.slots.filter (p ·.1)).map (·.1)
    rw [hkeys, h.order]
  · show ((r.slots.filter (p ·.1)).map (·.1)).Nodup
    rw [hkeys]
    exact h.nodup.filter p
  · intro l hl
    replace hl : l ∈ (r.slots.map (·.1)).filter p := hkeys ▸ hl
    exact h.plain l (List.mem_filter.1 hl).1
  · exact (List.length_filter_le _ _).trans h.room

/-- Forgets everything. -/
theorem clear (h : Stands capacity lifetime s r) :
    Stands capacity lifetime { s with memo.entries := [], memo.order := [] } { r with slots := [] } :=
  ⟨h.capacity_eq, h.lifetime_eq, h.closed, h.now, rfl, .nil, List.nodup_nil, nofun, h.positive, Nat.zero_le _⟩

section
variable [DecidableEq MemoKey]

theorem filter_same (h : Stands capacity lifetime s r) :
    s.memo.entries.filter (!·.1.same k) = s.memo.entries.filter (·.1 ≠ k) := by
  refine List.filter_congr fun e he => ?_
  rw [Bool.eq_iff_iff, Bool.not_eq_true', ← Bool.not_eq_true, h.same_iff he]
  exact decide_eq_true_iff.symm

theorem find?_eq (h : Stands capacity lifetime s r) : s.memo.find? k = r.find? k := by
  have hsame : s.memo.entries.find? (·.1.same k) = s.memo.entries.find? (·.1 = k) := by
    refine List.find?_congr fun e he => ?_
    rw [Bool.eq_iff_iff, h.same_iff he]
    exact decide_eq_true_iff.symm
  have hperm : s.memo.entries.find? (·.1 = k) = r.slots.find? (·.1 = k) := by
    refine List.find?_eq_find?_of_perm h.entries ?_
    rintro e ⟨he, hek⟩ f ⟨hf, hfk⟩
    refine List.inj_on_of_nodup_map h.nodup (h.entries.mem_iff.1 he) (h.entries.mem_iff.1 hf) ?_
    exact (of_decide_eq_true hek).trans (of_decide_eq_true hfk).symm
  rw [Memo.find?, hsame, hperm, Fifo.find?]

theorem find?_eq_none : r.find? k = none ↔ k ∉ r.slots.map (·.1) := by
  rw [Fifo.find?, Option.map_eq_none_iff, List.find?_eq_none]
  constructor
  · rintro h hk
    obtain ⟨e, he, rfl⟩ := List.mem_map.1 hk
    exact h e he (decide_eq_true rfl)
  · rintro h e he hk
    exact h (of_decide_eq_true hk ▸ List.mem_map_of_mem he)

/-- A new entry takes the place of the one under its key. -/
theorem replace (h : Stands capacity lifetime s r) (e : MemoEntry) :
    Stands capacity lifetime { s with memo := s.memo.replace k e }
      { r with slots := r.slots.map fun f => if f.1 = k then (f.1, e) else f } := by
  have hentries : (s.memo.replace k e).entries =
      s.memo.entries.map fun f => if f.1 = k then (f.1, e) else f := by
    refine List.map_congr_left fun f hf => ?_
    by_cases hk : f.1 = k
    · rw [if_pos hk, if_pos ((h.same_iff hf).2 hk)]
    · rw [if_neg hk, if_neg (mt (h.same_iff hf).1 hk)]
  have hkeys : (r.slots.map fun f => if f.1 = k then (f.1, e) else f).map (·.1) = r.slots.map (·.1) := by
    rw [List.map_map]
    refine List.map_congr_left fun f _ => ?_
    show (if f.1 = k then (f.1, e) else f).1 = f.1
    split <;> rfl
  refine ⟨h.capacity_eq, h.lifetime_eq, h.closed, h.now, ?_, ?_, ?_, ?_, h.positive, ?_⟩
  · exact h.order.trans hkeys.symm
  · show (s.memo.replace k e).entries.Perm _
    rw [hentries]
    exact h.entries.map _
  · exact hkeys ▸ h.nodup
  · exact hkeys ▸ h.plain
  · exact (List.length_map _).trans_le h.room

theorem eraseP_eq_filter {p : MemoKey → Bool} {l : List MemoKey} (hl : l.Nodup)
    (hp : ∀ j ∈ l, p j = true ↔ j = k) : l.eraseP p = l.filter (· ≠ k) := by
  induction l with
  | nil => rfl
  | cons j l ih =>
    obtain ⟨hj, hl⟩ := List.nodup_cons.1 hl
    have hpj := hp j List.mem_cons_self
    by_cases hk : j = k
    · have hne : ∀ i ∈ l, decide (i ≠ k) = true := fun i hi =>
        decide_eq_true fun hik => hj (hk.trans hik.symm ▸ hi)
      rw [List.eraseP_cons_of_pos (hpj.2 hk), List.filter_cons_of_neg (by simp [hk]),
        List.filter_eq_self.2 hne]
    · rw [List.eraseP_cons_of_neg (mt hpj.1 hk), List.filter_cons_of_pos (by simp [hk]),
        ih hl fun i hi => hp i (List.mem_cons_of_mem _ hi)]

theorem remove (h : Stands capacity lifetime s r) :
    Stands capacity lifetime
      { s with
        memo.entries := s.memo.entries.filter (!·.1.same k)
        memo.order := s.memo.order.eraseP (·.same k) }
      (r.remove k) := by
  have horder : s.memo.order.eraseP (·.same k) = s.memo.order.filter (· ≠ k) := by
    refine eraseP_eq_filter (h.order ▸ h.nodup) fun j hj => ?_
    obtain ⟨e, he, rfl⟩ := List.mem_map.1 (h.order ▸ hj)
    exact h.same_iff (h.entries.mem_iff.2 he)
  rw [h.filter_same, horder]
  exact h.filter (· ≠ k)

/-- The first key leaves. -/
theorem dropFirst (h : Stands capacity lifetime s r) {e : MemoKey × MemoEntry}
    {slots : List (MemoKey × MemoEntry)} (hslots : r.slots = e :: slots) :
    Stands capacity lifetime { s with memo := s.memo.dropFirst } { r with slots := slots } := by
  have horder : s.memo.order = e.1 :: slots.map (·.1) := by rw [h.order, hslots, List.map_cons]
  have hkeys := h.nodup
  rw [hslots, List.map_cons] at hkeys
  obtain ⟨hfirst, hnodup⟩ := List.nodup_cons.1 hkeys
  have hothers : slots.filter (·.1 ≠ e.1) = slots :=
    List.filter_eq_self.2 fun f hf => decide_eq_true fun hfe => hfirst (hfe ▸ List.mem_map_of_mem hf)
  have hentries : (s.memo.entries.filter (·.1 ≠ e.1)).Perm slots := by
    have hperm := h.entries.filter (·.1 ≠ e.1)
    rwa [hslots, List.filter_cons_of_neg (by simp), hothers] at hperm
  rw [Memo.dropFirst, horder]
  refine ⟨h.capacity_eq, h.lifetime_eq, h.closed, h.now, rfl, ?_, hnodup, ?_, h.positive, ?_⟩
  · show (s.memo.entries.filter (!·.1.same e.1)).Perm slots
    rwa [h.filter_same]
  · intro k hk
    refine h.plain k ?_
    rw [hslots]
    exact List.mem_cons_of_mem _ hk
  · have hroom := h.room
    rw [hslots] at hroom
    exact (Nat.le_succ _).trans hroom

end

/-- A new key comes last. -/
theorem append (h : Stands capacity lifetime s r) (hk : k ∉ r.slots.map (·.1)) (hstorable : k.isStorable = true)
    (hfloat : k.hasJsonFloat = false) (hroom : r.slots.length < capacity) (e : MemoEntry) :
    Stands capacity lifetime { s with memo := s.memo.append k e } { r with slots := r.slots ++ [(k, e)] } := by
  have hkeys : (r.slots ++ [(k, e)]).map (·.1) = r.slots.map (·.1) ++ [k] := List.map_append
  refine ⟨h.capacity_eq, h.lifetime_eq, h.closed, h.now, ?_, ?_, ?_, ?_, h.positive, ?_⟩
  · show s.memo.order ++ [k] = (r.slots ++ [(k, e)]).map (·.1)
    rw [hkeys, h.order]
  · exact (h.entries.cons _).trans (List.perm_append_singleton _ _).symm
  · show ((r.slots ++ [(k, e)]).map (·.1)).Nodup
    rw [hkeys]
    exact List.nodup_append.2 ⟨h.nodup, List.nodup_singleton k, fun j hj i hi hji =>
      hk (hji.trans (List.mem_singleton.1 hi) ▸ hj)⟩
  · intro j hj
    replace hj : j ∈ (r.slots ++ [(k, e)]).map (·.1) := hj
    rw [hkeys] at hj
    rcases List.mem_append.1 hj with hj | hj
    · exact h.plain j hj
    · obtain rfl := List.mem_singleton.1 hj
      exact ⟨hstorable, hfloat⟩
  · show (r.slots ++ [(k, e)]).length ≤ capacity
    rw [List.length_append]
    exact hroom

theorem put [DecidableEq MemoKey] (h : Stands capacity lifetime s r) (hfloat : k.hasJsonFloat = false)
    (hopen : s.memo.closed = false) (t : Table) (expires : Instant) :
    ∃ m, s.memo.put k t expires = .ok m ∧
      Stands capacity lifetime { s with memo := m } (r.put capacity k ⟨t, expires⟩) := by
  cases hstorable : k.isStorable with
  | false =>
    rw [put_unstorable hopen hstorable, Fifo.put_unstorable hstorable]
    exact ⟨s.memo, rfl, h⟩
  | true =>
    rcases hfind : r.find? k with _ | old
    · rw [put_absent hopen hstorable (h.find?_eq.trans hfind), Fifo.put_absent hstorable hfind]
      refine ⟨_, rfl, ?_⟩
      rw [h.capacity_eq, h.entries.length_eq]
      have hk := find?_eq_none.1 hfind
      by_cases hfull : r.slots.length = capacity
      · obtain ⟨e, slots, hslots⟩ := List.exists_cons_of_length_pos (hfull ▸ h.positive)
        rw [if_pos hfull.ge, if_pos hfull, hslots, List.tail_cons]
        rw [hslots, List.length_cons] at hfull
        rw [hslots, List.map_cons] at hk
        -- the key is not in the list, so it is not in what is left of it either
        have hroom : slots.length < capacity := by omega
        exact (h.dropFirst hslots).append (mt (List.mem_cons_of_mem _) hk) hstorable hfloat hroom _
      · have hroom : r.slots.length < capacity := lt_of_le_of_ne h.room hfull
        rw [if_neg hroom.not_ge, if_neg hfull]
        exact h.append hk hstorable hfloat hroom _
    · rw [put_present hopen hstorable (h.find?_eq.trans hfind), Fifo.put_present hstorable hfind]
      exact ⟨_, rfl, h.replace _⟩

theorem get [DecidableEq MemoKey] (h : Stands capacity lifetime s r) (hopen : s.memo.closed = false)
    (k : MemoKey) :
    s.memo.get s.now k = .ok (r.table? k) := by
  cases hstorable : k.isStorable with
  | false =>
    -- such a key was never let in
    have hk : k ∉ r.slots.map (·.1) := fun hk => by
      rw [(h.plain k hk).1] at hstorable
      cases hstorable
    rw [get_unstorable hopen hstorable, Fifo.table?, find?_eq_none.2 hk]
    rfl
  | true =>
    rw [Fifo.table?, ← h.now]
    rcases hfind : r.find? k with _ | e
    · rw [get_absent hopen hstorable (h.find?_eq.trans hfind)]; rfl
    · rw [get_present hopen hstorable (h.find?_eq.trans hfind)]; rfl

end Stands

/-! ### Actions -/

variable {capacity : Nat} {lifetime : Int}

theorem alike_change {α β : Type} {f : Memo → Instant → Except Failure (α × Memo)} {g : Fifo → β × Fifo}
    (φ : α → β)
    (hclosed : ∀ m now, m.closed = true → f m now = .error (.state .memoClosed))
    (hopen : ∀ s r, Stands capacity lifetime s r → s.memo.closed = false →
      ∃ a m, f s.memo s.now = .ok (a, m) ∧ φ a = (g r).1 ∧
        Stands capacity lifetime { s with memo := m } (g r).2) :
    Flow.Alike (Stands capacity lifetime) (change f >>= fun a => pure (φ a)) (Fifo.whenOpen g) := by
  intro s r h
  rw [Fifo.whenOpen]
  cases hm : s.memo.closed with
  | true =>
    have hchange : change f s = (.failed (.state .memoClosed), s) := by
      rw [change, Flow.read_bind, id, hclosed s.memo s.now hm, Flow.ofExcept_error]
    rw [Flow.bind_failed hchange, if_pos (h.closed ▸ hm)]
    exact ⟨rfl, h⟩
  | false =>
    obtain ⟨a, m, hf, ha, hs⟩ := hopen s r h hm
    have hchange : change f s = (.done a, { s with memo := m }) := by
      rw [change, Flow.read_bind, id, hf, Flow.ofExcept_ok]; rfl
    have hr : ¬ r.closed = true := by simp [← h.closed, hm]
    rw [Flow.bind_done hchange, if_neg hr]
    exact ⟨congrArg Outcome.done ha, hs⟩

theorem passTime_some {millis : Int} {s : Timed} {now : Instant} (h : s.now.add? millis = some now) :
    passTime millis s = (.done (), { s with now }) := by
  rw [passTime, Flow.read_bind, id, h, Flow.ofCalendar_some]; rfl

theorem passTime_none {millis : Int} {s : Timed} (h : s.now.add? millis = none) :
    passTime millis s = (.overflow, s) := by
  rw [passTime, Flow.read_bind, id, h, Flow.ofCalendar_none]

theorem alike_pass (millis : Int) :
    Flow.Alike (Stands capacity lifetime) (passTime millis) (Fifo.pass millis) := by
  intro s r h
  cases hnow : r.now.add? millis with
  | none =>
    rw [passTime_none (h.now ▸ hnow), Fifo.pass_none hnow]
    exact ⟨rfl, h⟩
  | some now =>
    rw [passTime_some (h.now ▸ hnow), Fifo.pass_some hnow]
    exact ⟨rfl, h.capacity_eq, h.lifetime_eq, h.closed, rfl, h.order, h.entries, h.nodup, h.plain, h.positive,
      h.room⟩

/-- Whether an action would store a table under a key with a floating point number in a JSON document. -/
def Action.storesJsonFloat : Action → Bool
  | put k _ _ => k.hasJsonFloat
  | putDefault k _ => k.hasJsonFloat
  | _ => false

section
variable [DecidableEq MemoKey]

theorem alike_get (k : MemoKey) :
    Flow.Alike (Stands capacity lifetime) (Action.get k).perform (Fifo.perform capacity lifetime (.get k)) := by
  refine alike_change Result.table ?_ ?_
  · intro m now hm
    rw [Memo.get, checkOpen_closed hm]; rfl
  · intro s r h hm
    exact ⟨r.table? k, s.memo, by rw [h.get hm k]; rfl, rfl, h⟩

theorem alike_put {k : MemoKey} (hk : k.hasJsonFloat = false) (t : Table) (expires : Instant) :
    Flow.Alike (Stands capacity lifetime) (Action.put k t expires).perform
      (Fifo.perform capacity lifetime (.put k t expires)) := by
  refine alike_change (fun _ => Result.nothing) ?_ ?_
  · intro m now hm
    rw [Memo.put, checkOpen_closed hm]; rfl
  · intro s r h hm
    obtain ⟨m, hput, hs⟩ := h.put hk hm t expires
    exact ⟨(), m, by rw [hput]; rfl, rfl, hs⟩

theorem alike_putDefault {k : MemoKey} (hk : k.hasJsonFloat = false) (t : Table) :
    Flow.Alike (Stands capacity lifetime) (Action.putDefault k t).perform
      (Fifo.perform capacity lifetime (.putDefault k t)) := by
  intro s r h
  cases hexpires : r.now.add? lifetime with
  | none =>
    have hs : (Action.putDefault k t).perform s = (.overflow, s) := by
      refine Flow.bind_overflow ?_
      rw [putForLifetime, Flow.read_bind, id, h.now, h.lifetime_eq, hexpires, Flow.ofCalendar_none]
    have hr : Fifo.perform capacity lifetime (.putDefault k t) r = (.overflow, r) := by
      rw [Fifo.perform, Flow.read_bind, id, hexpires, Flow.ofCalendar_none]
    rw [hs, hr]
    exact ⟨rfl, h⟩
  | some expires =>
    have hs : (Action.putDefault k t).perform s = (Action.put k t expires).perform s := by
      refine Flow.bind_congr ?_
      rw [putForLifetime, Flow.read_bind, id, h.now, h.lifetime_eq, hexpires, Flow.ofCalendar_some]
    have hr : Fifo.perform capacity lifetime (.putDefault k t) r =
        Fifo.perform capacity lifetime (.put k t expires) r := by
      show (Flow.ofCalendar (r.now.add? lifetime) >>= fun expires =>
        Fifo.perform capacity lifetime (.put k t expires)) r = _
      rw [hexpires, Flow.ofCalendar_some]
    rw [hs, hr]
    exact alike_put hk t expires h

theorem alike_remove (k : MemoKey) :
    Flow.Alike (Stands capacity lifetime) (Action.remove k).perform
      (Fifo.perform capacity lifetime (.remove k)) := by
  refine alike_change Result.removed ?_ ?_
  · intro m now hm
    rw [Memo.remove, checkOpen_closed hm]; rfl
  · intro s r h hm
    rw [Memo.remove, checkOpen_open hm, h.find?_eq]
    dsimp only
    rcases hfind : r.find? k with _ | e
    · refine ⟨false, s.memo, rfl, rfl, ?_⟩
      have hall : r.slots.filter (·.1 ≠ k) = r.slots := List.filter_eq_self.2 fun e he =>
        decide_eq_true fun hek => Stands.find?_eq_none.1 hfind (hek ▸ List.mem_map_of_mem he)
      rw [Fifo.remove, hall]
      exact h
    · exact ⟨true, _, rfl, rfl, h.remove⟩

theorem alike_invalidate (statement : String) :
    Flow.Alike (Stands capacity lifetime) (Action.invalidate statement).perform
      (Fifo.perform capacity lifetime (.invalidate statement)) := by
  refine alike_change Result.number ?_ ?_
  · intro m now hm
    rw [Memo.invalidate, checkOpen_closed hm]; rfl
  · intro s r h hm
    rw [Memo.invalidate, checkOpen_open hm]
    refine ⟨_, _, rfl, ?_, ?_⟩
    · have hcount : s.memo.entries.length = s.memo.entries.countP (·.1.statement == statement) +
          (s.memo.entries.filter (·.1.statement != statement)).length := by
        rw [List.countP_eq_length_filter]
        exact List.length_eq_length_filter_add _
      rw [hcount, Nat.add_sub_cancel, h.entries.countP_eq]
    · exact h.filter (·.statement != statement)

/-- The actions on a memo and on the list that it stands for are alike. -/
theorem alike_perform {a : Action} (ha : a.storesJsonFloat = false) :
    Flow.Alike (Stands capacity lifetime) a.perform (Fifo.perform capacity lifetime a) := by
  cases a with
  | get k => exact alike_get k
  | put k t expires => exact alike_put ha t expires
  | putDefault k t => exact alike_putDefault ha t
  | remove k => exact alike_remove k
  | invalidate statement => exact alike_invalidate statement
  | clear =>
    refine alike_change (fun _ => Result.nothing) ?_ ?_
    · intro m now hm
      rw [Memo.clear, checkOpen_closed hm]; rfl
    · intro s r h hm
      exact ⟨(), _, by rw [Memo.clear, checkOpen_open hm]; rfl, rfl, h.clear⟩
  | size =>
    refine alike_change Result.number ?_ ?_
    · intro m now hm
      rw [Memo.size, checkOpen_closed hm]; rfl
    · intro s r h hm
      refine ⟨r.slots.length, s.memo, ?_, rfl, h⟩
      rw [Memo.size, checkOpen_open hm, ← h.entries.length_eq]; rfl
  | shutdown =>
    intro s r h
    refine ⟨rfl, h.capacity_eq, h.lifetime_eq, rfl, h.now, rfl, .nil, List.nodup_nil, nofun, h.positive,
      Nat.zero_le _⟩
  | pass millis => exact (alike_pass millis).bind fun _ => .pure _
  | setClock millis =>
    intro s r h
    have hr : Fifo.perform capacity lifetime (.setClock millis) r =
        ((fun _ => Result.nothing) <$> Fifo.pass (millis - s.now.millis)) r := by rw [h.now]; rfl
    rw [hr]
    exact (alike_pass (millis - s.now.millis)).map (fun _ => Result.nothing) h

/-- A memo that starts empty answers every history of actions as the list of its entries in the order of
their keys does. At every time the entries and the order have the same keys, each of them once, and there
are at most as many as the memo has room for. -/
theorem answers_eq_fifo {m : Memo} (hm : create capacity lifetime = .ok m) (now : Instant)
    {actions : List Action} (hkeys : ∀ a ∈ actions, a.storesJsonFloat = false) :
    (Flow.history Action.perform actions ⟨m, now⟩).1 =
        (Flow.history (Fifo.perform capacity lifetime) actions ⟨[], false, now⟩).1 ∧
      ∃ last, (Flow.history Action.perform actions ⟨m, now⟩).2.memo = last ∧
        (∀ k, k ∈ last.entries.map (·.1) ↔ k ∈ last.order) ∧ (last.entries.map (·.1)).Nodup ∧
        last.order.Nodup ∧ last.entries.length ≤ capacity := by
  obtain ⟨hanswers, hstands⟩ := Flow.Alike.history (fun a ha => alike_perform (hkeys a ha))
    (Stands.of_create hm now)
  have hperm := hstands.entries.map (·.1)
  have hnodup := hstands.nodup
  refine ⟨hanswers, _, rfl, fun k => ?_, hperm.nodup_iff.2 hnodup, ?_, ?_⟩
  · rw [hstands.order]
    exact hperm.mem_iff
  · rw [hstands.order]
    exact hnodup
  · rw [hstands.entries.length_eq]
    exact hstands.room

end

open Classical in
theorem answers_eq_fifo_of_eviction : ∃ m a b, create 1 60000 = .ok m ∧
    a = MemoKey.ofPage "a" .empty none ∧ b = MemoKey.ofPage "b" .empty none ∧
    (Flow.history (Fifo.perform 1 60000)
      [.putDefault a (.empty []), .putDefault b (.empty []), .get a, .size] ⟨[], false, ⟨0⟩⟩).1 =
      [.done .nothing, .done .nothing, .done (.table none), .done (.number 1)] := by
  refine ⟨_, _, _, rfl, rfl, rfl, ?_⟩
  exact (answers_eq_fifo rfl ⟨0⟩ (by decide)).1.symm.trans (by cbv)

end Memo

end NamedSql
