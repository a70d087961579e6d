import NamedSql.Proofs.Matching

/-!
# What is the same as itself

A NaN in a JSON document is not the same as itself, but no text spells one (`Json.hasNaN_of_ofText?`). Bindings
without one are the same as themselves exactly if they hold no stream (`Bindings.same_self_iff`), whatever other
numbers they hold.
-/

namespace NamedSql

/-! ### Numbers -/

namespace Binary64

/-- A number that is not a NaN is the same as itself. -/
theorem sameValue_self {x : Binary64} (h : x.isNaN = false) : x.sameValue x = true := by
  simp [sameValue, h]

/-- The magnitudes up to infinity are those of numbers. -/
theorem isNaN_ofMagnitude {negative : Bool} {magnitude : Nat} (h : magnitude ≤ infinityMagnitude) :
    (ofMagnitude negative magnitude).isNaN = false := by
  have hmagnitude : magnitude ≤ 2047 * 2 ^ 52 := h
  have hbits : (ofMagnitude negative magnitude).bits.toNat = if negative then 2 ^ 63 + magnitude else magnitude := by
    have htwo : twoTo 63 = 2 ^ 63 := rfl
    rw [ofMagnitude, UInt64.toNat_ofNat', htwo]
    split <;> omega
  have htop : twoTo 11 = 2 ^ 11 := rfl
  have hcut : twoTo 52 = 2 ^ 52 := rfl
  rw [isNaN, exponentField, fractionField, hbits, htop, hcut, Bool.and_eq_false_iff, beq_eq_false_iff_ne,
    bne_eq_false_iff_eq]
  split <;> omega

theorem isNaN_ofRatio (negative : Bool) (num den : Nat) : (ofRatio negative num den).isNaN = false :=
  isNaN_ofMagnitude (Nat.min_le_right _ _)

theorem isNaN_of_isZero {x : Binary64} (h : x.isZero = true) : x.isNaN = false := by
  rw [isZero, Bool.and_eq_true, beq_iff_eq, beq_iff_eq] at h
  rw [isNaN, h.1]
  rfl

theorem isNaN_neg (x : Binary64) : x.neg.isNaN = x.isNaN := by
  have hbits : x.neg.bits.toNat = x.bits.toNat ^^^ 2 ^ 63 := by
    rw [neg, UInt64.toNat_xor]
    rfl
  have hlow : x.neg.bits.toNat % 2 ^ 63 = x.bits.toNat % 2 ^ 63 := by
    rw [hbits, Nat.xor_mod_two_pow, Nat.mod_self, Nat.xor_zero]
  have htop : twoTo 11 = 2 ^ 11 := rfl
  have hcut : twoTo 52 = 2 ^ 52 := rfl
  have hexponent : x.neg.exponentField = x.exponentField := by
    rw [exponentField, exponentField, htop, hcut]
    omega
  have hfraction : x.neg.fractionField = x.fractionField := by
    rw [fractionField, fractionField, hcut]
    omega
  rw [isNaN, isNaN, hexponent, hfraction]

end Binary64

/-! ### Documents -/

namespace Json

mutual

/-- Whether there is a NaN in a document. -/
def hasNaN : Json → Bool
  | .float x => x.isNaN
  | .array items => itemsHaveNaN items
  | .object members => membersHaveNaN members
  | _ => false

def itemsHaveNaN : List Json → Bool
  | [] => false
  | j :: js => j.hasNaN || itemsHaveNaN js

def membersHaveNaN : List (String × Json) → Bool
  | [] => false
  | (_, j) :: ms => j.hasNaN || membersHaveNaN ms

end

mutual

theorem same_self : ∀ {j : Json}, j.hasNaN = false → j.same j = true
  | .null, _ => rfl
  | .boolean _, _ => by rw [same, beq_self_eq_true]
  | .integer _, _ => by rw [same, beq_self_eq_true]
  | .float x, h => by rw [same, Binary64.sameValue_self h]
  | .string _, _ => by rw [same, beq_self_eq_true]
  | .array items, h => by rw [same, sameItems_self h]
  | .object members, h => by rw [same, sameMembers_self h]

theorem sameItems_self : ∀ {items : List Json}, itemsHaveNaN items = false → sameItems items items = true
  | [], _ => rfl
  | i :: items, h => by
    obtain ⟨hi, hitems⟩ := Bool.or_eq_false_iff.1 h
    rw [sameItems, same_self hi, sameItems_self hitems, Bool.and_self]

theorem sameMembers_self : ∀ {members : List (String × Json)}, membersHaveNaN members = false →
    sameMembers members members = true
  | [], _ => rfl
  | (k, i) :: members, h => by
    obtain ⟨hi, hmembers⟩ := Bool.or_eq_false_iff.1 h
    rw [sameMembers, beq_self_eq_true, same_self hi, sameMembers_self hmembers, Bool.and_self, Bool.and_self]

end

/-! ### Documents that are read -/

theorem isNaN_of_scale? {divisions : Nat} {x y : Binary64} {exponent : Int}
    (h : scale? divisions x exponent = some y) : y.isNaN = false := by
  fun_induction scale? divisions x exponent with
  | case1 | case5 => cases h
  | case2 | case3 =>
    obtain rfl := Option.some.inj h
    exact Binary64.isNaN_ofRatio _ _ _
  | case4 _ _ _ _ hzero =>
    obtain rfl := Option.some.inj h
    exact Binary64.isNaN_of_isZero hzero
  | case6 =>
    obtain rfl := Option.some.inj h
    rfl
  | case7 _ _ _ _ _ _ ih => exact ih h

theorem hasNaN_of_float? {negative : Bool} {significand : Nat} {exponent : Int} {j : Json}
    (h : float? negative significand exponent = some j) : j.hasNaN = false := by
  obtain ⟨x, hx, rfl⟩ := Option.map_eq_some_iff.1 h
  have hnan : x.isNaN = false := isNaN_of_scale? hx
  rw [hasNaN]
  split
  next => rw [Binary64.isNaN_neg, hnan]
  next => exact hnan

theorem hasNaN_of_ofNumeral? {n : Numeral} {j : Json} (h : ofNumeral? n = some j) : j.hasNaN = false := by
  unfold ofNumeral? at h
  dsimp only at h
  split at h
  next =>
    split at h
    next => exact hasNaN_of_float? h
    next =>
      split at h
      next =>
        obtain rfl := Option.some.inj h
        rfl
      next =>
        split at h
        next =>
          obtain rfl := Option.some.inj h
          rfl
        next => exact hasNaN_of_float? h
  next => exact hasNaN_of_float? h

theorem membersHaveNaN_putMember {key : String} {v : Json} {members : List (String × Json)} (hv : v.hasNaN = false)
    (h : membersHaveNaN members = false) : membersHaveNaN (putMember key v members) = false := by
  induction members with
  | nil => simp [putMember, membersHaveNaN, hv]
  | cons m members ih =>
    obtain ⟨k, w⟩ := m
    obtain ⟨hw, hmembers⟩ := Bool.or_eq_false_iff.1 h
    unfold putMember
    split
    next => simp [membersHaveNaN, hv, hmembers]
    next =>
      split
      next => simp [membersHaveNaN, hv, hw, hmembers]
      next => simp [membersHaveNaN, hw, ih hmembers]

mutual

theorem hasNaN_of_ofSpelling? : ∀ {depth : Nat} {v : Spelling} {j : Json}, ofSpelling? depth v = some j →
    j.hasNaN = false
  | _, .null, _, h => by
    obtain rfl := Option.some.inj h
    rfl
  | _, .boolean b, _, h => by
    obtain rfl := Option.some.inj h
    rfl
  | _, .number n, _, h => hasNaN_of_ofNumeral? h
  | _, .string s, _, h => by
    obtain ⟨_, -, rfl⟩ := Option.map_eq_some_iff.1 h
    rfl
  | 0, .array items, _, h => by cases h
  | depth + 1, .array items, _, h => by
    obtain ⟨js, hjs, rfl⟩ := Option.map_eq_some_iff.1 h
    exact itemsHaveNaN_of_itemsOf? hjs
  | 0, .object members, _, h => by cases h
  | depth + 1, .object members, _, h => by
    obtain ⟨ms, hms, rfl⟩ := Option.map_eq_some_iff.1 h
    exact membersHaveNaN_of_membersOf? rfl hms

theorem itemsHaveNaN_of_itemsOf? : ∀ {depth : Nat} {items : List Spelling} {js : List Json},
    itemsOf? depth items = some js → itemsHaveNaN js = false
  | _, [], _, h => by
    obtain rfl := Option.some.inj h
    rfl
  | depth, v :: rest, _, h => by
    obtain ⟨j, hj, h⟩ := Option.bind_eq_some_iff.1 h
    obtain ⟨js, hjs, h⟩ := Option.bind_eq_some_iff.1 h
    obtain rfl := Option.some.inj h
    rw [itemsHaveNaN, hasNaN_of_ofSpelling? hj, itemsHaveNaN_of_itemsOf? hjs, Bool.or_self]

theorem membersHaveNaN_of_membersOf? : ∀ {depth : Nat} {found ms : List (String × Json)}
    {members : List (List StringPart × Spelling)}, membersHaveNaN found = false →
    membersOf? depth found members = some ms → membersHaveNaN ms = false
  | _, found, _, [], hfound, h => by
    obtain rfl := Option.some.inj h
    exact hfound
  | depth, found, _, (key, v) :: rest, hfound, h => by
    obtain ⟨k, -, h⟩ := Option.bind_eq_some_iff.1 h
    obtain ⟨j, hj, h⟩ := Option.bind_eq_some_iff.1 h
    exact membersHaveNaN_of_membersOf? (membersHaveNaN_putMember (hasNaN_of_ofSpelling? hj) hfound) h

end

/-- There is no NaN in a document that is read. -/
theorem hasNaN_of_ofText? {s : List Char} {j : Json} (h : ofText? s = some j) : j.hasNaN = false := by
  obtain ⟨v, -, hv⟩ := Option.bind_eq_some_iff.1 h
  exact hasNaN_of_ofSpelling? hv

end Json

namespace Value

/-- Whether there is a NaN in a JSON document; a number that is bound as such may be one. -/
def hasJsonNaN : Value → Bool
  | .json j => j.hasNaN
  | _ => false

theorem same_self {v : Value} (h : v.hasJsonNaN = false) : v.same v = true := by
  cases v with
  | json j => exact Json.same_self h
  | _ => simp [same]

end Value

namespace Param

def hasJsonNaN : Param → Bool
  | .value v => v.hasJsonNaN
  | .sequence items => items.any Value.hasJsonNaN
  | .stream _ => false

theorem sameItems_self {vs : List Value} (h : vs.any Value.hasJsonNaN = false) : sameItems vs vs = true := by
  induction vs with
  | nil => rfl
  | cons v vs ih =>
    obtain ⟨hv, hvs⟩ := Bool.or_eq_false_iff.1 h
    rw [sameItems, Value.same_self hv, ih hvs, Bool.and_self]

theorem same_self {p : Param} (h : p.hasJsonNaN = false) (hstream : p.isStream = false) : p.same p = true := by
  cases p with
  | value v => exact Value.same_self h
  | sequence vs => exact sameItems_self h
  | stream payload => cases hstream

theorem isStream_of_same {p q : Param} (h : p.same q = true) : p.isStream = false := by
  cases p with
  | stream payload => simp [same] at h
  | _ => rfl

end Param

namespace Bindings

def hasJsonNaN (b : Bindings) : Bool :=
  b.entries.any (·.2.hasJsonNaN)

theorem sameEntries_self {es : List (Key × Param)} (h : es.any (·.2.hasJsonNaN) = false)
    (hstream : es.any (·.2.isStream) = false) : sameEntries es es = true := by
  induction es with
  | nil => rfl
  | cons e es ih =>
    obtain ⟨he, hes⟩ := Bool.or_eq_false_iff.1 h
    obtain ⟨hestream, hesstream⟩ := Bool.or_eq_false_iff.1 hstream
    rw [sameEntries, beq_self_eq_true, Param.same_self he hestream, ih hes hesstream, Bool.and_self, Bool.and_self]

theorem hasStream_of_same {b c : Bindings} (h : b.same c = true) : b.hasStream = false := by
  obtain ⟨es⟩ := b
  obtain ⟨fs⟩ := c
  unfold same at h
  unfold hasStream
  dsimp only at h ⊢
  induction es generalizing fs with
  | nil => rfl
  | cons e es ih =>
    cases fs with
    | nil => simp [sameEntries] at h
    | cons f fs =>
      rw [sameEntries, Bool.and_eq_true, Bool.and_eq_true] at h
      rw [List.any_cons, Param.isStream_of_same h.1.2, ih fs h.2, Bool.or_self]

theorem same_self_iff {b : Bindings} (h : b.hasJsonNaN = false) : b.same b = true ↔ b.hasStream = false :=
  ⟨hasStream_of_same, sameEntries_self h⟩

end Bindings

end NamedSql
