import NamedSql.Proofs.Fifo
import NamedSql.Proofs.Law

/-!
# Keys that match

Two keys of a memo can be the same and yet not be equal, since zeros in JSON documents are the same with
either sign, and a key may not be the same as itself. But sameness is symmetric and transitive, so keys that
are the same find the same entry. What is stored under a key is therefore found under every key that is the
same, and what is found under any other key was found there before (`Memo.find?_of_put`).
-/

namespace NamedSql

/-! ### Sameness -/

theorem Binary64.sameValue_symm {x y : Binary64} (h : x.sameValue y = true) : y.sameValue x = true := by
  simp only [sameValue, Bool.and_eq_true, Bool.or_eq_true, beq_iff_eq] at h ⊢
  obtain ⟨⟨hx, hy⟩, hbits | ⟨hzx, hzy⟩⟩ := h
  · exact ⟨⟨hy, hx⟩, .inl hbits.symm⟩
  · exact ⟨⟨hy, hx⟩, .inr ⟨hzy, hzx⟩⟩

theorem Binary64.sameValue_trans {x y z : Binary64} (h : x.sameValue y = true) (h' : y.sameValue z = true) :
    x.sameValue z = true := by
  simp only [sameValue, Bool.and_eq_true, Bool.or_eq_true, beq_iff_eq] at h h' ⊢
  obtain ⟨⟨hx, -⟩, hxy⟩ := h
  obtain ⟨⟨-, hz⟩, hyz⟩ := h'
  refine ⟨⟨hx, hz⟩, ?_⟩
  have hbits {u v : Binary64} (huv : u.bits = v.bits) : u = v := by
    cases u
    cases v
    exact congrArg Binary64.mk huv
  rcases hxy with hxy | ⟨hzx, hzy⟩
  · rw [hbits hxy]
    exact hyz
  · rcases hyz with hyz | ⟨-, hzz⟩
    · exact .inr ⟨hzx, hbits hyz ▸ hzy⟩
    · exact .inr ⟨hzx, hzz⟩

namespace Json

mutual

theorem same_symm : ∀ {j k : Json}, j.same k = true → k.same j = true
  | .null, k, h => by cases k <;> simp_all [same]
  | .boolean a, k, h => by cases k <;> simp_all [same]
  | .integer m, k, h => by cases k <;> simp_all [same]
  | .float x, k, h => by
    cases k with
    | float y =>
      rw [same] at h ⊢
      exact Binary64.sameValue_symm h
    | _ => simp [same] at h
  | .string s, k, h => by cases k <;> simp_all [same]
  | .array items, k, h => by
    cases k with
    | array js =>
      rw [same] at h ⊢
      exact sameItems_symm h
    | _ => simp [same] at h
  | .object members, k, h => by
    cases k with
    | object ms =>
      rw [same] at h ⊢
      exact sameMembers_symm h
    | _ => simp [same] at h

theorem sameItems_symm : ∀ {items js : List Json}, sameItems items js = true → sameItems js items = true
  | [], js, h => by cases js <;> simp_all [sameItems]
  | i :: items, js, h => by
    cases js with
    | nil => simp [sameItems] at h
    | cons j js =>
      rw [sameItems, Bool.and_eq_true] at h ⊢
      exact ⟨same_symm h.1, sameItems_symm h.2⟩

theorem sameMembers_symm : ∀ {members ms : List (String × Json)}, sameMembers members ms = true →
    sameMembers ms members = true
  | [], ms, h => by cases ms <;> simp_all [sameMembers]
  | (l, i) :: members, ms, h => by
    cases ms with
    | nil => simp [sameMembers] at h
    | cons m ms =>
      obtain ⟨n, j⟩ := m
      rw [sameMembers, Bool.and_eq_true, Bool.and_eq_true, beq_iff_eq] at h ⊢
      exact ⟨⟨h.1.1.symm, same_symm h.1.2⟩, sameMembers_symm h.2⟩

end

mutual

theorem same_trans : ∀ {j k l : Json}, j.same k = true → k.same l = true → j.same l = true
  | .null, k, l, h, h' => by
    cases k with
    | null => exact h'
    | _ => simp [same] at h
  | .boolean a, k, l, h, h' => by
    cases k with
    | boolean b =>
      rw [same, beq_iff_eq] at h
      rwa [h]
    | _ => simp [same] at h
  | .integer m, k, l, h, h' => by
    cases k with
    | integer b =>
      rw [same, beq_iff_eq] at h
      rwa [h]
    | _ => simp [same] at h
  | .float x, k, l, h, h' => by
    cases k with
    | float y =>
      cases l with
      | float z =>
        rw [same] at h h' ⊢
        exact Binary64.sameValue_trans h h'
      | _ => simp [same] at h'
    | _ => simp [same] at h
  | .string s, k, l, h, h' => by
    cases k with
    | string b =>
      rw [same, beq_iff_eq] at h
      rwa [h]
    | _ => simp [same] at h
  | .array items, k, l, h, h' => by
    cases k with
    | array js =>
      cases l with
      | array ks =>
        rw [same] at h h' ⊢
        exact sameItems_trans h h'
      | _ => simp [same] at h'
    | _ => simp [same] at h
  | .object members, k, l, h, h' => by
    cases k with
    | object ms =>
      cases l with
      | object ns =>
        rw [same] at h h' ⊢
        exact sameMembers_trans h h'
      | _ => simp [same] at h'
    | _ => simp [same] at h

theorem sameItems_trans : ∀ {items js ks : List Json}, sameItems items js = true → sameItems js ks = true →
    sameItems items ks = true
  | [], js, ks, h, h' => by cases js <;> simp_all [sameItems]
  | i :: items, js, ks, h, h' => by
    cases js with
    | nil => simp [sameItems] at h
    | cons j js =>
      cases ks with
      | nil => simp [sameItems] at h'
      | cons k ks =>
        rw [sameItems, Bool.and_eq_true] at h h' ⊢
        exact ⟨same_trans h.1 h'.1, sameItems_trans h.2 h'.2⟩

theorem sameMembers_trans : ∀ {members ms ns : List (String × Json)}, sameMembers members ms = true →
    sameMembers ms ns = true → sameMembers members ns = true
  | [], ms, ns, h, h' => by cases ms <;> simp_all [sameMembers]
  | (l, i) :: members, ms, ns, h, h' => by
    cases ms with
    | nil => simp [sameMembers] at h
    | cons m ms =>
      cases ns with
      | nil => simp [sameMembers] at h'
      | cons n ns =>
        obtain ⟨p, j⟩ := m
        obtain ⟨q, k⟩ := n
        rw [sameMembers, Bool.and_eq_true, Bool.and_eq_true, beq_iff_eq] at h h' ⊢
        exact ⟨⟨h.1.1.trans h'.1.1, same_trans h.1.2 h'.1.2⟩, sameMembers_trans h.2 h'.2⟩

end

end Json

namespace Value

theorem same_symm {v w : Value} (h : v.same w = true) : w.same v = true := by
  cases v <;> cases w <;> simp only [same, beq_iff_eq, reduceCtorEq] at h ⊢
  all_goals first | exact h.symm | exact Json.same_symm h

theorem same_trans {u v w : Value} (h : u.same v = true) (h' : v.same w = true) : u.same w = true := by
  cases u <;> cases v <;> simp only [same, beq_iff_eq, reduceCtorEq] at h <;>
    cases w <;> simp only [same, beq_iff_eq, reduceCtorEq] at h' ⊢
  all_goals first | exact h.trans h' | exact Json.same_trans h h'

end Value

namespace Param

theorem sameItems_symm {vs ws : List Value} (h : sameItems vs ws = true) : sameItems ws vs = true := by
  induction vs generalizing ws with
  | nil => cases ws <;> simp_all [sameItems]
  | cons v vs ih =>
    cases ws with
    | nil => simp [sameItems] at h
    | cons w ws =>
      rw [sameItems, Bool.and_eq_true] at h ⊢
      exact ⟨Value.same_symm h.1, ih h.2⟩

theorem sameItems_trans {us vs ws : List Value} (h : sameItems us vs = true) (h' : sameItems vs ws = true) :
    sameItems us ws = true := by
  induction us generalizing vs ws with
  | nil => cases vs <;> simp_all [sameItems]
  | cons u us ih =>
    cases vs with
    | nil => simp [sameItems] at h
    | cons v vs =>
      cases ws with
      | nil => simp [sameItems] at h'
      | cons w ws =>
        rw [sameItems, Bool.and_eq_true] at h h' ⊢
        exact ⟨Value.same_trans h.1 h'.1, ih h.2 h'.2⟩

theorem same_symm {p q : Param} (h : p.same q = true) : q.same p = true := by
  cases p <;> cases q <;> simp only [same, Bool.false_eq_true] at h ⊢
  · exact Value.same_symm h
  · exact sameItems_symm h

theorem same_trans {p q r : Param} (h : p.same q = true) (h' : q.same r = true) : p.same r = true := by
  cases p <;> cases q <;> simp only [same, Bool.false_eq_true] at h <;>
    cases r <;> simp only [same, Bool.false_eq_true] at h' ⊢
  · exact Value.same_trans h h'
  · exact sameItems_trans h h'

end Param

namespace Bindings

theorem sameEntries_symm {es fs : List (Key × Param)} (h : sameEntries es fs = true) :
    sameEntries fs es = true := by
  induction es generalizing fs with
  | nil => cases fs <;> simp_all [sameEntries]
  | cons e es ih =>
    cases fs with
    | nil => simp [sameEntries] at h
    | cons f fs =>
      rw [sameEntries, Bool.and_eq_true, Bool.and_eq_true, beq_iff_eq] at h ⊢
      exact ⟨⟨h.1.1.symm, Param.same_symm h.1.2⟩, ih h.2⟩

theorem sameEntries_trans {es fs gs : List (Key × Param)} (h : sameEntries es fs = true)
    (h' : sameEntries fs gs = true) : sameEntries es gs = true := by
  induction es generalizing fs gs with
  | nil => cases fs <;> simp_all [sameEntries]
  | cons e es ih =>
    cases fs with
    | nil => simp [sameEntries] at h
    | cons f fs =>
      cases gs with
      | nil => simp [sameEntries] at h'
      | cons g gs =>
        rw [sameEntries, Bool.and_eq_true, Bool.and_eq_true, beq_iff_eq] at h h' ⊢
        exact ⟨⟨h.1.1.trans h'.1.1, Param.same_trans h.1.2 h'.1.2⟩, ih h.2 h'.2⟩

end Bindings

namespace MemoKey

variable {k l m : MemoKey}

theorem same_symm (h : k.same l = true) : l.same k = true := by
  simp only [same, Bool.and_eq_true, beq_iff_eq] at h ⊢
  obtain ⟨⟨⟨hstatement, hbindings⟩, hstart⟩, hlimit⟩ := h
  exact ⟨⟨⟨hstatement.symm, Bindings.sameEntries_symm hbindings⟩, hstart.symm⟩, hlimit.symm⟩

theorem same_trans (h : k.same l = true) (h' : l.same m = true) : k.same m = true := by
  simp only [same, Bool.and_eq_true, beq_iff_eq] at h h' ⊢
  obtain ⟨⟨⟨hstatement, hbindings⟩, hstart⟩, hlimit⟩ := h
  obtain ⟨⟨⟨hstatement', hbindings'⟩, hstart'⟩, hlimit'⟩ := h'
  exact ⟨⟨⟨hstatement.trans hstatement', Bindings.sameEntries_trans hbindings hbindings'⟩,
    hstart.trans hstart'⟩, hlimit.trans hlimit'⟩

end MemoKey

/-! ### What is found in memos -/

namespace Memo

variable {m m' : Memo} {k l : MemoKey} {t : Table} {e : MemoEntry} {expires : Instant}

theorem open_of_checkOpen {u : Unit} (h : m.checkOpen = .ok u) : m.closed = false := by
  unfold checkOpen at h
  split at h
  · cases h
  · next hclosed => exact Bool.eq_false_iff.2 hclosed

theorem open_of_get {now : Instant} {found : Option Table} (h : m.get now k = .ok found) : m.closed = false := by
  unfold get at h
  obtain ⟨_, hcheck, -⟩ := bind_eq_ok.1 h
  exact open_of_checkOpen hcheck

theorem open_of_put (h : m.put k t expires = .ok m') : m.closed = false := by
  unfold put at h
  obtain ⟨_, hcheck, -⟩ := bind_eq_ok.1 h
  exact open_of_checkOpen hcheck

theorem find?_eq_some : m.find? k = some e ↔ ∃ j, m.entries.find? (·.1.same k) = some (j, e) := by
  simp [find?]

/-- Leaving out keys, all that are the same together, leaves out what is found or does not matter. -/
theorem find?_filter (entries : List (MemoKey × MemoEntry)) {p : MemoKey → Bool}
    (hp : ∀ j k, j.same k = true → p j = p k) (l : MemoKey) :
    (entries.filter fun f => p f.1).find? (fun f => f.1.same l) =
      if p l then entries.find? (fun f => f.1.same l) else none := by
  induction entries with
  | nil => simp
  | cons f entries ih =>
    by_cases hf : f.1.same l = true
    · have hpf : p f.1 = p l := hp f.1 l hf
      cases hpl : p l with
      | true =>
        rw [hpl] at hpf
        simp [hpf, hf]
      | false =>
        rw [hpl] at hpf ih
        simpa [List.filter_cons, hpf] using ih
    · have hne : f.1.same l = false := Bool.eq_false_iff.2 hf
      rw [List.find?_cons, hne, ← ih]
      cases hpf : p f.1 with
      | true => simp [hpf, hne]
      | false => simp [hpf]

theorem other_same (k j l : MemoKey) (h : j.same l = true) : (!j.same k) = !l.same k := by
  have hsame : j.same k = l.same k := by
    rw [Bool.eq_iff_iff]
    exact ⟨fun hj => MemoKey.same_trans (MemoKey.same_symm h) hj, fun hl => MemoKey.same_trans h hl⟩
  rw [hsame]

theorem other_statement (statement : String) (j l : MemoKey) (h : j.same l = true) :
    (j.statement != statement) = (l.statement != statement) := by
  simp only [MemoKey.same, Bool.and_eq_true, beq_iff_eq] at h
  rw [h.1.1.1]

/-- Nothing is found afterwards but what was found before. -/
def Forgets (m m' : Memo) : Prop :=
  ∀ l e, m'.find? l = some e → m.find? l = some e

theorem Forgets.refl (m : Memo) : Forgets m m := fun _ _ h => h

theorem Forgets.trans {m'' : Memo} (h : Forgets m m') (h' : Forgets m' m'') : Forgets m m'' :=
  fun l e hfind => h l e (h' l e hfind)

theorem forgets_filter {p : MemoKey → Bool} (hp : ∀ j k, j.same k = true → p j = p k)
    (hentries : m'.entries = m.entries.filter fun f => p f.1) : Forgets m m' := by
  intro l e h
  obtain ⟨j, hj⟩ := find?_eq_some.1 h
  rw [hentries, find?_filter _ hp] at hj
  split at hj
  · exact find?_eq_some.2 ⟨j, hj⟩
  · cases hj

theorem forgets_nil (h : m'.entries = []) : Forgets m m' := by
  intro l e hfind
  simp [find?, h] at hfind

theorem forgets_dropFirst (m : Memo) : Forgets m m.dropFirst := by
  unfold dropFirst
  split
  · exact .refl m
  · next k _ _ => exact forgets_filter (other_same k) rfl

theorem forgets_remove {found : Bool} (h : m.remove k = .ok (found, m')) : Forgets m m' := by
  unfold remove at h
  obtain ⟨_, -, h⟩ := bind_eq_ok.1 h
  split at h
  · cases h
    exact .refl m
  · cases h
    exact forgets_filter (other_same k) rfl

theorem forgets_invalidate {statement : String} {n : Nat} (h : m.invalidate statement = .ok (n, m')) :
    Forgets m m' := by
  unfold invalidate at h
  obtain ⟨_, -, h⟩ := bind_eq_ok.1 h
  cases h
  exact forgets_filter (other_statement statement) rfl

theorem forgets_clear (h : m.clear = .ok m') : Forgets m m' := by
  unfold clear at h
  obtain ⟨_, -, h⟩ := bind_eq_ok.1 h
  cases h
  exact forgets_nil rfl

theorem forgets_shutdown (m : Memo) : Forgets m m.shutdown := forgets_nil rfl

/-- An entry takes the place of the one under its key, and all others stay. -/
theorem find?_of_replace {e' : MemoEntry} (h : (m.replace k e).find? l = some e') :
    (k.same l = true ∧ e' = e) ∨ (k.same l = false ∧ m.find? l = some e') := by
  let f (old : MemoKey × MemoEntry) : MemoKey × MemoEntry := if old.1.same k then (old.1, e) else old
  have hkey : (fun x : MemoKey × MemoEntry => x.1.same l) ∘ f = fun x => x.1.same l := by
    funext x
    show (f x).1.same l = x.1.same l
    simp only [f]
    split <;> rfl
  obtain ⟨j, hj⟩ := find?_eq_some.1 h
  have hj : ((m.entries.map f).find? fun x => x.1.same l) = some (j, e') := hj
  rw [List.find?_map, hkey, Option.map_eq_some_iff] at hj
  obtain ⟨x, hx, hfx⟩ := hj
  have hsame : x.1.same l = true := List.find?_some (p := fun x : MemoKey × MemoEntry => x.1.same l) hx
  simp only [f] at hfx
  split at hfx
  · next hxk =>
    obtain ⟨-, rfl⟩ := Prod.mk.inj hfx
    exact .inl ⟨MemoKey.same_trans (MemoKey.same_symm hxk) hsame, rfl⟩
  · next hxk =>
    refine .inr ⟨Bool.eq_false_iff.2 fun hkl => hxk ?_, find?_eq_some.2 ⟨j, hfx ▸ hx⟩⟩
    exact MemoKey.same_trans hsame (MemoKey.same_symm hkl)

theorem find?_of_append {e' : MemoEntry} (h : (m.append k e).find? l = some e') :
    (k.same l = true ∧ e' = e) ∨ (k.same l = false ∧ m.find? l = some e') := by
  obtain ⟨j, hj⟩ := find?_eq_some.1 h
  have hj : ((k, e) :: m.entries).find? (fun x => x.1.same l) = some (j, e') := hj
  rw [List.find?_cons] at hj
  split at hj
  · next hkl =>
    obtain ⟨-, rfl⟩ := Prod.mk.inj (Option.some.inj hj)
    exact .inl ⟨hkl, rfl⟩
  · next hkl => exact .inr ⟨hkl, find?_eq_some.2 ⟨j, hj⟩⟩

/-- What is found after something was stored: that under the keys that are the same as its own, and under
other keys what was there before. -/
theorem find?_of_put (hput : m.put k t expires = .ok m') (hk : k.isStorable = true) {e' : MemoEntry}
    (h : m'.find? l = some e') :
    (k.same l = true ∧ e' = ⟨t, expires⟩) ∨ (k.same l = false ∧ m.find? l = some e') := by
  have hopen : m.closed = false := open_of_put hput
  cases hfind : m.find? k with
  | some old =>
    rw [put_present hopen hk hfind] at hput
    obtain rfl := Except.ok.inj hput
    exact find?_of_replace h
  | none =>
    rw [put_absent hopen hk hfind] at hput
    obtain rfl := Except.ok.inj hput
    rcases find?_of_append h with hnew | ⟨hother, hold⟩
    · exact .inl hnew
    · refine .inr ⟨hother, ?_⟩
      split at hold
      · exact forgets_dropFirst m l e' hold
      · exact hold

/-! ### Several memos -/

variable {memos memos' : List Memo} {n : Nat}

/-- The entry that the memo with a number has under a key. -/
def findIn (memos : List Memo) (n : Nat) (k : MemoKey) : Option MemoEntry :=
  memos[n]?.bind (·.find? k)

theorem findIn_eq_some : findIn memos n k = some e ↔ ∃ m, memos[n]? = some m ∧ m.find? k = some e :=
  Option.bind_eq_some_iff

/-- Nothing is found in any memo afterwards but what was found there before. -/
def AllForget (memos memos' : List Memo) : Prop :=
  ∀ n l e, findIn memos' n l = some e → findIn memos n l = some e

theorem AllForget.refl (memos : List Memo) : AllForget memos memos := fun _ _ _ h => h

theorem AllForget.trans {memos'' : List Memo} (h : AllForget memos memos') (h' : AllForget memos' memos'') :
    AllForget memos memos'' :=
  fun n l e hfind => h n l e (h' n l e hfind)

theorem allForget_set (hm : memos[n]? = some m) (h : Forgets m m') : AllForget memos (memos.set n m') := by
  intro j l e hfind
  obtain ⟨memo, hmemo, hfind⟩ := findIn_eq_some.1 hfind
  rw [List.getElem?_set] at hmemo
  split at hmemo
  · next hj =>
    obtain rfl := hj
    split at hmemo
    · obtain rfl := Option.some.inj hmemo
      exact findIn_eq_some.2 ⟨m, hm, h l e hfind⟩
    · cases hmemo
  · exact findIn_eq_some.2 ⟨memo, hmemo, hfind⟩

/-- What is found in the memos after something was stored in one of them. -/
theorem findIn_of_put (hm : memos[n]? = some m) (hput : m.put k t expires = .ok m') (hk : k.isStorable = true)
    {j : Nat} (h : findIn (memos.set n m') j l = some e) :
    (j = n ∧ k.same l = true ∧ e = ⟨t, expires⟩) ∨ ((j = n → k.same l = false) ∧ findIn memos j l = some e) := by
  obtain ⟨memo, hmemo, hfind⟩ := findIn_eq_some.1 h
  rw [List.getElem?_set] at hmemo
  split at hmemo
  · next hj =>
    obtain rfl := hj
    split at hmemo
    · obtain rfl := Option.some.inj hmemo
      rcases find?_of_put hput hk hfind with ⟨hsame, he⟩ | ⟨hother, hold⟩
      · exact .inl ⟨rfl, hsame, he⟩
      · exact .inr ⟨fun _ => hother, findIn_eq_some.2 ⟨m, hm, hold⟩⟩
    · cases hmemo
  · next hj => exact .inr ⟨fun h => absurd h.symm hj, findIn_eq_some.2 ⟨memo, hmemo, hfind⟩⟩

/-! ### Actions -/

/-- Actions that store tables which were not retrieved. -/
def Action.puts : Action → Bool
  | .put .. | .putDefault .. => true
  | _ => false

theorem forgets_change {α : Type} {f : Memo → Instant → Except Failure (α × Memo)}
    (hf : ∀ m now a m', f m now = .ok (a, m') → Forgets m m') :
    Obeys (.always Failure fun s => Forgets m s.memo) (change f) := by
  intro s hs
  unfold change
  rw [Flow.ends_bind, Flow.ends_read, Flow.ends_bind, Flow.ends_ofExcept]
  split
  · next r hr => exact hs.trans (hf _ _ _ _ hr)
  · exact hs

theorem forgets_passTime (millis : Int) : Obeys (.always Failure fun s => Forgets m s.memo) (passTime millis) :=
  (Obeys.read _).bind fun _ => (Obeys.ofCalendar _).bind fun _ => .modify fun _ hs => hs

theorem map_eq_ok {α β : Type} {x : Except Failure α} {f : α → β} {y : β} (h : x.map f = .ok y) :
    ∃ a, x = .ok a ∧ f a = y := by
  cases x with
  | error e => cases h
  | ok a => exact ⟨a, rfl, Except.ok.inj h⟩

/-- Removing, invalidating, clearing and reading make nothing be found that was not found before. -/
theorem forgets_perform {action : Action} (h : action.puts = false) :
    Obeys (.always Failure fun s => Forgets m s.memo) action.perform := by
  cases action with
  | get k =>
    refine (forgets_change fun m now t m' hget => ?_).bind fun _ => .pure _
    obtain ⟨_, -, hm⟩ := map_eq_ok hget
    obtain ⟨-, rfl⟩ := Prod.mk.inj hm
    exact .refl m
  | put | putDefault => cases h
  | remove k => exact (forgets_change fun _ _ _ _ => forgets_remove).map _
  | invalidate statement => exact (forgets_change fun _ _ _ _ => forgets_invalidate).map _
  | clear =>
    refine (forgets_change fun m now u m' hclear => ?_).bind fun _ => .pure _
    obtain ⟨memo, hmemo, hm⟩ := map_eq_ok hclear
    obtain ⟨-, rfl⟩ := Prod.mk.inj hm
    exact forgets_clear hmemo
  | size =>
    refine (forgets_change fun m now n m' hsize => ?_).map _
    obtain ⟨_, -, hm⟩ := map_eq_ok hsize
    obtain ⟨-, rfl⟩ := Prod.mk.inj hm
    exact .refl m
  | shutdown =>
    have hshutdown (s : Timed) (hs : Forgets m s.memo) : Forgets m s.memo.shutdown :=
      hs.trans (forgets_shutdown s.memo)
    exact (Obeys.modify hshutdown).bind fun _ => .pure _
  | pass millis => exact (forgets_passTime _).bind fun _ => .pure _
  | setClock millis => exact (Obeys.read _).bind fun _ => (forgets_passTime _).bind fun _ => .pure _

end Memo

end NamedSql
