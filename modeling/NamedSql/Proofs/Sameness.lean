import NamedSql.Memo
import Mathlib.Tactic.Tauto

/-!
# Keys of memos

The keys of a memo are compared by their own equality, under which a stream equals nothing and the
numbers in JSON documents are compared by value. The main theorem says that it is equality, for keys
that tables can be stored under and that hold no floating point numbers in JSON documents.
-/

namespace NamedSql

/-! ### JSON documents -/

namespace Json

mutual

/-- Whether there is a floating point number in a document. -/
def hasFloat : Json → Bool
  | .float _ => true
  | .array items => itemsHaveFloat items
  | .object members => membersHaveFloat members
  | _ => false

def itemsHaveFloat : List Json → Bool
  | [] => false
  | j :: js => j.hasFloat || itemsHaveFloat js

def membersHaveFloat : List (String × Json) → Bool
  | [] => false
  | (_, j) :: ms => j.hasFloat || membersHaveFloat ms

end

mutual

theorem same_iff : ∀ {j : Json} (k : Json), j.hasFloat = false → (j.same k = true ↔ j = k)
  | .null, k, _ => by cases k <;> simp [same]
  | .boolean a, k, _ => by cases k <;> simp [same]
  | .integer m, k, _ => by cases k <;> simp [same]
  | .float x, k, h => by simp [hasFloat] at h
  | .string s, k, _ => by cases k <;> simp [same]
  | .array items, k, h => by
    cases k with
    | array js => rw [same, sameItems_iff js h, Json.array.injEq]
    | _ => simp [same]
  | .object members, k, h => by
    cases k with
    | object ms => rw [same, sameMembers_iff ms h, Json.object.injEq]
    | _ => simp [same]

theorem sameItems_iff : ∀ {items : List Json} (js : List Json), itemsHaveFloat items = false →
    (sameItems items js = true ↔ items = js)
  | [], js, _ => by cases js <;> simp [sameItems]
  | i :: items, js, h => by
    obtain ⟨hi, hitems⟩ := Bool.or_eq_false_iff.1 h
    cases js with
    | nil => simp [sameItems]
    | cons j js =>
      rw [sameItems, Bool.and_eq_true, same_iff j hi, sameItems_iff js hitems, List.cons.injEq]

theorem sameMembers_iff : ∀ {members : List (String × Json)} (ms : List (String × Json)),
    membersHaveFloat members = false → (sameMembers members ms = true ↔ members = ms)
  | [], ms, _ => by cases ms <;> simp [sameMembers]
  | (l, i) :: members, ms, h => by
    obtain ⟨hi, hmembers⟩ := Bool.or_eq_false_iff.1 h
    cases ms with
    | nil => simp [sameMembers]
    | cons m ms =>
      obtain ⟨n, j⟩ := m
      rw [sameMembers, Bool.and_eq_true, Bool.and_eq_true, beq_iff_eq, same_iff j hi,
        sameMembers_iff ms hmembers, List.cons.injEq, Prod.mk.injEq]

end

end Json

/-! ### Values and parameters -/

namespace Value

def hasJsonFloat : Value → Bool
  | .json j => j.hasFloat
  | _ => false

theorem same_iff {v : Value} (w : Value) (h : v.hasJsonFloat = false) : v.same w = true ↔ v = w := by
  cases v with
  | json j =>
    cases w with
    | json k => rw [same, Json.same_iff k h, Value.json.injEq]
    | _ => simp [same]
  | _ => cases w <;> simp [same]

end Value

namespace Param

def hasJsonFloat : Param → Bool
  | .value v => v.hasJsonFloat
  | .sequence items => items.any Value.hasJsonFloat
  | .stream _ => false

theorem sameItems_iff {vs : List Value} (ws : List Value) (h : vs.any Value.hasJsonFloat = false) :
    sameItems vs ws = true ↔ vs = ws := by
  induction vs generalizing ws with
  | nil => cases ws <;> simp [sameItems]
  | cons v vs ih =>
    obtain ⟨hv, hvs⟩ := Bool.or_eq_false_iff.1 h
    cases ws with
    | nil => simp [sameItems]
    | cons w ws => rw [sameItems, Bool.and_eq_true, Value.same_iff w hv, ih ws hvs, List.cons.injEq]

theorem same_iff {p : Param} (q : Param) (h : p.hasJsonFloat = false) :
    p.same q = true ↔ p = q ∧ p.isStream = false := by
  cases p with
  | value v =>
    cases q with
    | value w => rw [same, Value.same_iff w h]; simp [isStream]
    | _ => simp [same]
  | sequence vs =>
    cases q with
    | sequence ws => rw [same, sameItems_iff ws h]; simp [isStream]
    | _ => simp [same]
  | stream payload => simp [same, isStream]

end Param

namespace Bindings

def hasJsonFloat (b : Bindings) : Bool :=
  b.entries.any (·.2.hasJsonFloat)

theorem sameEntries_iff {es : List (Key × Param)} (fs : List (Key × Param))
    (h : es.any (·.2.hasJsonFloat) = false) :
    sameEntries es fs = true ↔ es = fs ∧ es.any (·.2.isStream) = false := by
  induction es generalizing fs with
  | nil => cases fs <;> simp [sameEntries]
  | cons e es ih =>
    obtain ⟨he, hes⟩ := Bool.or_eq_false_iff.1 h
    cases fs with
    | nil => simp [sameEntries]
    | cons f fs =>
      obtain ⟨k, p⟩ := e
      obtain ⟨l, q⟩ := f
      rw [sameEntries, Bool.and_eq_true, Bool.and_eq_true, beq_iff_eq, Param.same_iff q he, ih fs hes,
        List.any_cons, Bool.or_eq_false_iff, List.cons.injEq, Prod.mk.injEq]
      tauto

theorem same_iff {b : Bindings} (c : Bindings) (h : b.hasJsonFloat = false) :
    b.same c = true ↔ b = c ∧ b.hasStream = false := by
  obtain ⟨es⟩ := b
  obtain ⟨fs⟩ := c
  rw [same, sameEntries_iff fs h, Bindings.mk.injEq, hasStream]

end Bindings

/-! ### Keys -/

namespace MemoKey

def hasJsonFloat (k : MemoKey) : Bool :=
  k.bindings.hasJsonFloat

/-- Two keys are the same when they are equal and tables can be stored under them. -/
theorem same_iff {k : MemoKey} (l : MemoKey) (h : k.hasJsonFloat = false) :
    k.same l = true ↔ k = l ∧ k.isStorable = true := by
  obtain ⟨statement, bindings, start, limit⟩ := k
  obtain ⟨statement', bindings', start', limit'⟩ := l
  simp only [same, Bool.and_eq_true, beq_iff_eq, Bindings.same_iff bindings' h, MemoKey.mk.injEq,
    isStorable, Bool.not_eq_true']
  tauto

end MemoKey

end NamedSql
