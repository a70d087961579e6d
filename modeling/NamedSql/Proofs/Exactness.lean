import NamedSql.Vendor
import Mathlib

/-!
# Floating point numbers as integers

`Binary64.value?` is the exact value of a pattern, as the format defines it. Only finite numbers with an
integral value that fits 64 bits become integers, and they become this value (`Binary64.float_toInteger`). The
one exception is `2 ^ 63`: as a floating point number the greatest integer is `2 ^ 63` as well, so it passes the
comparison and is cut (`Binary64.float_beyond_integers`).
-/

namespace NamedSql

namespace Binary64

variable {x : Binary64} {n : Int}

def sign (x : Binary64) : Int :=
  if x.isNegative then -1 else 1

/-- The number that a pattern stands for; infinities and NaNs stand for none. -/
def value? (x : Binary64) : Option ℚ :=
  let fraction : ℚ := x.fractionField / 2 ^ 52
  if x.exponentField = 2047 then none
  else if x.exponentField = 0 then some (x.sign * (fraction * 2 ^ (-1022 : ℤ)))
  else some (x.sign * ((1 + fraction) * 2 ^ ((x.exponentField : ℤ) - 1023)))

/-! ### The value over a common denominator -/

theorem cast_twoTo (n : Nat) : (twoTo n : ℚ) = 2 ^ n :=
  Nat.cast_pow 2 n

theorem twoTo_pos (n : Nat) : 0 < twoTo n :=
  Nat.pow_pos Nat.two_pos

theorem isFinite_iff : x.isFinite = true ↔ x.exponentField ≠ 2047 := by
  simp [isFinite]

/-- Fifty-two bits behind the point and a power counted from -1022 are a power counted from -1074. -/
theorem scale_eq (m : ℚ) (k : ℤ) : m / 2 ^ 52 * 2 ^ (k - 1022) = m * 2 ^ k / 2 ^ 1074 := by
  have htwo : (2 : ℚ) ≠ 0 := two_ne_zero
  have hpower : (2 : ℚ) ^ (k - 1022) = 2 ^ k * 2 ^ (52 : ℕ) / 2 ^ (1074 : ℕ) := by
    rw [← zpow_natCast, ← zpow_natCast, ← zpow_add₀ htwo, ← zpow_sub₀ htwo]
    congr 1
    push_cast
    ring
  rw [hpower, ← mul_div_assoc, div_mul_eq_mul_div, mul_comm ((2 : ℚ) ^ k), mul_left_comm,
    mul_div_cancel_left₀ _ (pow_ne_zero 52 htwo)]

theorem value?_eq (h : x.isFinite = true) :
    x.value? = some ((x.sign : ℚ) * ((x.scaledMagnitude : ℚ) / (twoTo 1074 : ℚ))) := by
  rw [isFinite_iff] at h
  unfold value? scaledMagnitude significand power
  dsimp only
  rw [if_neg h, Nat.cast_mul, cast_twoTo, cast_twoTo]
  by_cases hsmall : x.exponentField = 0
  · have hscale := scale_eq x.fractionField 0
    rw [if_pos hsmall, if_pos hsmall, hsmall]
    rw [zero_sub, zpow_zero] at hscale
    rw [hscale, Nat.zero_sub, pow_zero]
  · have hscale := scale_eq (2 ^ 52 + x.fractionField) ((x.exponentField - 1 : Nat) : ℤ)
    have hpower : ((x.exponentField - 1 : Nat) : ℤ) - 1022 = (x.exponentField : ℤ) - 1023 := by omega
    rw [if_neg hsmall, if_neg hsmall, Nat.cast_add, cast_twoTo]
    rw [hpower, add_div, div_self (pow_ne_zero 52 two_ne_zero), zpow_natCast] at hscale
    rw [hscale]

theorem value?_of_not_isFinite (h : ¬ x.isFinite = true) : x.value? = none :=
  if_pos (by simpa [isFinite] using h)

/-! ### Integral values -/

theorem sign_mul_eq_iff (x : Binary64) (a b : ℤ) : x.sign * a = b ↔ a = x.sign * b := by
  unfold sign
  split <;> omega

theorem toInt?_eq_some_iff : x.toInt? = some n ↔ x.value? = some (n : ℚ) := by
  by_cases hfinite : x.isFinite = true
  · have hpos := twoTo_pos 1074
    have hden : (twoTo 1074 : ℚ) ≠ 0 := Nat.cast_ne_zero.2 hpos.ne'
    -- both sides are put over the common denominator
    have hvalue : x.value? = some (n : ℚ) ↔ (x.scaledMagnitude : ℤ) = x.sign * (n * (twoTo 1074 : ℤ)) := by
      rw [value?_eq hfinite, Option.some.injEq, ← mul_div_assoc, div_eq_iff hden, ← sign_mul_eq_iff]
      exact_mod_cast Iff.rfl
    have hresult : x.toInt? = if x.scaledMagnitude % twoTo 1074 = 0 then
        some (x.sign * ((x.scaledMagnitude / twoTo 1074 : Nat) : ℤ)) else none := by
      unfold toInt? sign
      dsimp only
      rw [hfinite, Bool.true_and]
      by_cases hdvd : x.scaledMagnitude % twoTo 1074 = 0
      · rw [if_pos hdvd, if_pos (beq_iff_eq.2 hdvd)]
        split
        · rw [neg_one_mul]
        · rw [one_mul]
      · rw [if_neg hdvd, if_neg fun h => hdvd (eq_of_beq h)]
    rw [hresult, hvalue]
    generalize twoTo 1074 = den at *
    generalize x.scaledMagnitude = scaled
    constructor
    · intro h
      split at h
      · next hdvd =>
        obtain ⟨k, rfl⟩ := Nat.dvd_of_mod_eq_zero hdvd
        rw [Nat.mul_div_cancel_left k hpos, Option.some.injEq, sign_mul_eq_iff] at h
        rw [Nat.cast_mul, h]
        ring
      · cases h
    · intro h
      have hdvd : (den : ℤ) ∣ (scaled : ℤ) := ⟨x.sign * n, by rw [h]; ring⟩
      obtain ⟨k, rfl⟩ := Int.natCast_dvd_natCast.1 hdvd
      have hk : (k : ℤ) = x.sign * n := by
        have hden : (den : ℤ) ≠ 0 := by exact_mod_cast hpos.ne'
        apply mul_left_cancel₀ hden
        rw [← Nat.cast_mul, h]
        ring
      rw [if_pos (Nat.mul_mod_right den k), Nat.mul_div_cancel_left k hpos, Option.some.injEq, sign_mul_eq_iff, hk]
  · rw [value?_of_not_isFinite hfinite]
    unfold toInt?
    simp [hfinite]

/-! ### Conversion -/

theorem toInteger?_eq_some_iff {i : Int64} (h : x.value? ≠ some ((2 ^ 63 : Int) : ℚ)) :
    x.toInteger? = some i ↔ x.value? = some (i.toInt : ℚ) := by
  have hmin := i.le_toInt
  have hmax := i.toInt_lt
  have hleast : minInteger = -2 ^ 63 := rfl
  have hgreatest : maxInteger = 2 ^ 63 - 1 := rfl
  unfold toInteger?
  rw [← toInt?_eq_some_iff, Option.bind_eq_some_iff, hleast, hgreatest]
  constructor
  · rintro ⟨n, hn, hi⟩
    have hne : n ≠ 2 ^ 63 := by
      rintro rfl
      exact h (toInt?_eq_some_iff.1 hn)
    split at hi
    · next hrange =>
      have hlt : n < 2 ^ 63 := by omega
      have hfits : (Int64.ofInt n).toInt = n := Int64.toInt_ofInt_of_le hrange.1 hlt
      rw [min_eq_left (by omega)] at hi
      rw [hn, ← Option.some.inj hi, hfits]
    · cases hi
  · intro hn
    refine ⟨i.toInt, hn, ?_⟩
    rw [if_pos (by omega), min_eq_left (by omega), Int64.ofInt_toInt]

theorem convert_float (x : Binary64) : Converters.standard.convert (.float x) .integer =
    match x.toInteger? with
    | some i => .ok (.integer i)
    | none => .error (.conversion (some .numeric) .integer) := by
  show Kind.numeric.convert (.float x) .integer = _
  unfold Kind.convert Kind.convert? Kind.convertNumeric?
  dsimp only
  cases x.toInteger? <;> rfl

/-- A number other than `2 ^ 63` becomes an integer if its exact value is one of 64 bits, and then this one;
all others cannot be converted. The number `2 ^ 63` becomes the greatest integer. -/
theorem float_toInteger (x : Binary64) :
    (x.value? ≠ some ((2 ^ 63 : Int) : ℚ) →
      (∀ w, Converters.standard.convert (.float x) .integer = .ok w ↔
        ∃ i : Int64, x.value? = some (i.toInt : ℚ) ∧ w = .integer i) ∧
      ((∀ i : Int64, x.value? ≠ some (i.toInt : ℚ)) →
        Converters.standard.convert (.float x) .integer = .error (.conversion (some .numeric) .integer))) ∧
    (x.value? = some ((2 ^ 63 : Int) : ℚ) →
      Converters.standard.convert (.float x) .integer = .ok (.integer 9223372036854775807)) := by
  rw [convert_float]
  refine ⟨fun h => ⟨fun w => ?_, fun hnone => ?_⟩, fun h => ?_⟩
  · constructor
    · intro hw
      split at hw
      · next i hi => exact ⟨i, (toInteger?_eq_some_iff h).1 hi, (Except.ok.inj hw).symm⟩
      · cases hw
    · rintro ⟨i, hi, rfl⟩
      rw [(toInteger?_eq_some_iff h).2 hi]
  · split
    · next i hi => exact absurd ((toInteger?_eq_some_iff h).1 hi) (hnone i)
    · rfl
  · have hvalue : x.toInt? = some (2 ^ 63) := toInt?_eq_some_iff.2 h
    have hcut : x.toInteger? = some 9223372036854775807 := by
      unfold toInteger?
      rw [hvalue]
      rfl
    rw [hcut]

/-- The greatest number below `2 ^ 63`, and a fraction. -/
theorem float_toInteger_of_greatest :
    Converters.standard.convert (.float ⟨0x43dfffffffffffff⟩) .integer = .ok (.integer 9223372036854774784) ∧
      Converters.standard.convert (.float ⟨0xc00c000000000000⟩) .integer =
        .error (.conversion (some .numeric) .integer) := by
  have hgreatest : value? ⟨0x43dfffffffffffff⟩ = some (((9223372036854774784 : Int64).toInt : Int) : ℚ) :=
    toInt?_eq_some_iff.1 (by decide +kernel)
  have hfraction : toInt? ⟨0xc00c000000000000⟩ = none := by decide +kernel
  have hnot (n : Int) : value? ⟨0xc00c000000000000⟩ ≠ some (n : ℚ) := by
    rw [ne_eq, ← toInt?_eq_some_iff, hfraction]
    nofun
  constructor
  · have hother : value? ⟨0x43dfffffffffffff⟩ ≠ some ((2 ^ 63 : Int) : ℚ) := by
      rw [hgreatest, ne_eq, Option.some.injEq, Int.cast_inj]
      decide
    exact (((float_toInteger _).1 hother).1 _).2 ⟨_, hgreatest, rfl⟩
  · exact ((float_toInteger _).1 (hnot (2 ^ 63))).2 fun i => hnot i.toInt

/-- The number `2 ^ 63` is no integer of 64 bits, and is converted to one all the same. -/
theorem float_beyond_integers :
    value? ⟨0x43e0000000000000⟩ = some ((2 ^ 63 : Int) : ℚ) ∧
      (∀ i : Int64, value? ⟨0x43e0000000000000⟩ ≠ some (i.toInt : ℚ)) ∧
      Converters.standard.convert (.float ⟨0x43e0000000000000⟩) .integer = .ok (.integer 9223372036854775807) := by
  have hvalue : value? ⟨0x43e0000000000000⟩ = some ((2 ^ 63 : Int) : ℚ) := toInt?_eq_some_iff.1 (by decide +kernel)
  have hresult : toInteger? ⟨0x43e0000000000000⟩ = some 9223372036854775807 := by decide +kernel
  refine ⟨hvalue, fun i hi => ?_, ?_⟩
  · rw [hvalue, Option.some.injEq, Int.cast_inj] at hi
    have hmax := i.toInt_lt
    omega
  · rw [convert_float, hresult]

end Binary64

end NamedSql
