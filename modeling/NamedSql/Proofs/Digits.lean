import NamedSql.Calendar.Written
import NamedSql.Proofs.Grammar

/-!
# Digits

The digits of a number are read as the number, also with zeros in front (`number?_padded`).
-/

namespace NamedSql

namespace Decimal

variable {n : Nat}

theorem value_eq_ofDigitChars (digits : List Char) : value digits = Nat.ofDigitChars 10 digits 0 :=
  Nat.ofDigitChars_eq_foldl.symm

theorem isDigit_eq_charIsDigit (c : Char) : isDigit c = c.isDigit := by
  simp only [isDigit, Char.isDigit, Char.le_def, ge_iff_le]

theorem isDigit_toDigits : ∀ c ∈ Nat.toDigits 10 n, isDigit c = true := by
  intro c hc
  rw [isDigit_eq_charIsDigit]
  exact Nat.isDigit_of_mem_toDigits (by decide) (by decide) hc

/-- Only zero starts with a zero. -/
theorem head?_toDigits (hn : 0 < n) : (Nat.toDigits 10 n).head? ≠ some '0' := by
  induction n using Nat.strong_induction_on with
  | _ n ih =>
    by_cases hsmall : n < 10
    · rw [Nat.toDigits_of_lt_base hsmall]
      intro hzero
      have hn0 : n = 0 := Nat.digitChar_eq_zero.1 (Option.some.inj hzero)
      omega
    · rw [Nat.toDigits_of_base_le (by decide) (by omega), List.head?_append_of_ne_nil _ Nat.toDigits_ne_nil]
      exact ih (n / 10) (by omega) (by omega)

theorem isBlank_of_isDigit {c : Char} (hc : isDigit c = true) : Text.isBlank c = false := by
  obtain ⟨hlow, hhigh⟩ := Template.isDigit_iff.1 hc
  exact Text.isBlank_of_between hlow hhigh (by decide) (by decide)

end Decimal

namespace Text

variable {c : Char} {s : List Char}

theorem trimStart_cons (hc : isBlank c = false) : trimStart (c :: s) = c :: s :=
  List.dropWhile_cons_of_neg (by rw [hc]; decide)

theorem trimStart_digits {digits rest : List Char} (hne : digits ≠ []) (hdigits : ∀ c ∈ digits, Decimal.isDigit c = true) :
    trimStart (digits ++ rest) = digits ++ rest := by
  obtain ⟨c, digits, rfl⟩ := List.exists_cons_of_ne_nil hne
  exact trimStart_cons (Decimal.isBlank_of_isDigit (hdigits c List.mem_cons_self))

theorem trimStart_eq_self (hs : ∀ c ∈ s.head?, isBlank c = false) : trimStart s = s := by
  rcases s with _ | ⟨c, s⟩
  · rfl
  · exact trimStart_cons (hs c rfl)

theorem trim_eq_self (hs : ∀ c ∈ s.head?, isBlank c = false) (hend : ∀ c ∈ s.getLast?, isBlank c = false) :
    trim s = s := by
  rw [← List.head?_reverse] at hend
  rw [trim, trimStart_eq_self hs, trimStart_eq_self hend, List.reverse_reverse]

/-- Text that starts with something else than white space and ends with a digit is not trimmed. -/
theorem trim_of_digits {digits : List Char} (hs : ∀ d ∈ (s ++ digits).head?, isBlank d = false) (hne : digits ≠ [])
    (hdigits : ∀ d ∈ digits, Decimal.isDigit d = true) : trim (s ++ digits) = s ++ digits := by
  refine trim_eq_self hs fun d hd => ?_
  rw [List.getLast?_append_of_ne_nil _ hne] at hd
  exact Decimal.isBlank_of_isDigit (hdigits d (List.mem_of_getLast? hd))

end Text

namespace Calendar

open Decimal Text

variable {width n : Nat} {rest : List Char}

theorem value_padded (width n : Nat) : value (padded width n) = n := by
  rw [value_eq_ofDigitChars, padded, Nat.ofDigitChars_append, Nat.ofDigitChars_replicate_zero, Nat.mul_zero,
    Nat.ofDigitChars_ten_toDigits]

theorem isDigit_padded : ∀ c ∈ padded width n, isDigit c = true := by
  intro c hc
  rcases List.mem_append.1 hc with hzero | hdigit
  · rw [List.eq_of_mem_replicate hzero]
    rfl
  · exact isDigit_toDigits c hdigit

theorem padded_ne_nil : padded width n ≠ [] :=
  List.append_ne_nil_of_right_ne_nil _ Nat.toDigits_ne_nil

theorem length_padded (hwidth : 0 < width) (hn : n < 10 ^ width) : (padded width n).length = width := by
  have hlength : (Nat.toDigits 10 n).length ≤ width := (Nat.length_toDigits_le_iff (by decide) hwidth).2 hn
  rw [padded, List.length_append, List.length_replicate]
  omega

/-- A number is read up to its width, whatever follows. -/
theorem number?_padded (hwidth : 0 < width) (hn : n < 10 ^ width) :
    number? width (padded width n ++ rest) = some (n, rest) := by
  have hlength : (padded width n).length = width := length_padded hwidth hn
  have htake : (padded width n ++ rest).take width = padded width n := by
    rw [List.take_append_of_le_length hlength.ge, List.take_of_length_le hlength.le]
  have hdigits : (padded width n).takeWhile isDigit = padded width n :=
    List.takeWhile_eq_self_iff.2 isDigit_padded
  have hne : (padded width n).isEmpty = false := List.isEmpty_eq_false_iff.2 padded_ne_nil
  simp only [number?, trimStart_digits padded_ne_nil isDigit_padded, htake, hdigits, hne, Bool.false_eq_true, if_false,
    value_padded, List.drop_left]

end Calendar

end NamedSql
