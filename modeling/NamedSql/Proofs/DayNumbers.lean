import NamedSql.Calendar
import Mathlib

/-!
# Dates and their day numbers

Years and months cut the days into stretches without gaps (`daysBeforeYear_succ`, `daysBeforeMonth_succ`), so
each day lies in one year and in one month of it. `Date.ofDayNumber?` finds both: its guess of the year is at
most one off (`yearOfDay_spec`), and it tries the months in turn (`monthOfDay_spec`). A date is thus found
exactly by its own number (`Date.ofDayNumber?_eq_some_iff`).
-/

namespace NamedSql

open Calendar

namespace Calendar

/-! ### Years -/

def daysInYear (year : Int) : Nat :=
  if isLeap year then 366 else 365

theorem isLeap_iff {year : Int} : isLeap year = true ↔ year % 4 = 0 ∧ (year % 100 ≠ 0 ∨ year % 400 = 0) := by
  simp [isLeap]

theorem daysBeforeYear_succ (year : Int) : daysBeforeYear (year + 1) = daysBeforeYear year + daysInYear year := by
  unfold daysBeforeYear daysInYear
  split
  · next h =>
    rw [isLeap_iff] at h
    omega
  · next h =>
    rw [isLeap_iff] at h
    omega

theorem daysBeforeYear_mono {y z : Int} (h : y ≤ z) : daysBeforeYear y ≤ daysBeforeYear z := by
  unfold daysBeforeYear
  omega

/-- The year of a day lies in the years that are given by bounds of the day. -/
theorem year_le_of_days {y z : Int} (h : daysBeforeYear y < daysBeforeYear (z + 1)) : y ≤ z := by
  by_contra hlt
  have hmono := daysBeforeYear_mono (y := z + 1) (z := y) (by omega)
  omega

/-- Four centuries have 146097 days, and no stretch of years is more than two days off their mean. -/
theorem yearOfDay_spec (n : Int) :
    daysBeforeYear (Date.yearOfDay n) ≤ n ∧ n < daysBeforeYear (Date.yearOfDay n + 1) := by
  have hbefore : daysBeforeYear (n * 400 / 146097) ≤ n := by
    unfold daysBeforeYear
    omega
  have hbehind : n < daysBeforeYear (n * 400 / 146097 + 1 + 1 + 1) := by
    unfold daysBeforeYear
    omega
  unfold Date.yearOfDay
  dsimp only
  split
  · next h =>
    rw [Int.add_sub_cancel]
    exact ⟨hbefore, h⟩
  · next h =>
    split
    · next h' => exact ⟨h', hbehind⟩
    · next h' => exact ⟨by omega, by omega⟩

theorem yearOfDay_eq {n year : Int} (hfrom : daysBeforeYear year ≤ n) (hto : n < daysBeforeYear (year + 1)) :
    Date.yearOfDay n = year := by
  obtain ⟨hfrom', hto'⟩ := yearOfDay_spec n
  have hle := year_le_of_days (hfrom'.trans_lt hto)
  have hge := year_le_of_days (hfrom.trans_lt hto')
  omega

/-! ### Months -/

theorem daysBeforeMonth_succ (year : Int) {month : Nat} (h : 1 ≤ month) :
    daysBeforeMonth year (month + 1) = daysBeforeMonth year month + daysInMonth year month := by
  cases month with
  | zero => omega
  | succ month => rfl

theorem daysBeforeMonth_end (year : Int) : daysBeforeMonth year 13 = daysInYear year := by
  simp only [daysBeforeMonth, daysInMonth, daysInYear]
  split <;> rfl

theorem daysBeforeMonth_mono (year : Int) {m n : Nat} (hm : 1 ≤ m) (h : m ≤ n) :
    daysBeforeMonth year m ≤ daysBeforeMonth year n := by
  induction n, h using Nat.le_induction with
  | base => exact Nat.le_refl _
  | succ n hmn ih =>
    rw [daysBeforeMonth_succ year (hm.trans hmn)]
    omega

theorem month_le_of_days {year : Int} {m n : Nat} (hn : 1 ≤ n)
    (h : daysBeforeMonth year m < daysBeforeMonth year (n + 1)) : m ≤ n := by
  by_contra hlt
  have hmono := daysBeforeMonth_mono year (m := n + 1) (n := m) (by omega) (by omega)
  omega

/-- The month and the day that are found for the day `n` of a year, counted from 0. -/
structure InMonth (year : Int) (n month day : Nat) : Prop where
  month_pos : 1 ≤ month
  month_le : month ≤ 12
  day_pos : 1 ≤ day
  day_le : day ≤ daysInMonth year month
  days : daysBeforeMonth year month + day = n + 1

theorem monthOfDay_spec (year : Int) {n left month : Nat} (hleft : month + left = 12) (hmonth : 1 ≤ month)
    (hfrom : daysBeforeMonth year month ≤ n) (hto : n < daysInYear year) :
    InMonth year n (Date.monthOfDay year n left month).1 (Date.monthOfDay year n left month).2 := by
  induction left generalizing month with
  | zero =>
    obtain rfl : month = 12 := hleft
    have hend := daysBeforeMonth_succ year hmonth
    rw [daysBeforeMonth_end] at hend
    refine ⟨hmonth, Nat.le_refl _, ?_, ?_, ?_⟩ <;> simp only [Date.monthOfDay] <;> omega
  | succ left ih =>
    rw [Date.monthOfDay]
    split
    · next h =>
      rw [daysBeforeMonth_succ year hmonth] at h
      refine ⟨hmonth, ?_, ?_, ?_, ?_⟩ <;> dsimp only <;> omega
    · next h => exact ih (by omega) (by omega) (by omega)

theorem InMonth.unique {year : Int} {n m m' d d' : Nat} (h : InMonth year n m d) (h' : InMonth year n m' d') :
    m = m' ∧ d = d' := by
  have hdays := h.days
  have hdays' := h'.days
  have hend := daysBeforeMonth_succ year h.month_pos
  have hend' := daysBeforeMonth_succ year h'.month_pos
  have hpos := h.day_pos
  have hpos' := h'.day_pos
  have hle := h.day_le
  have hle' := h'.day_le
  have hlt : daysBeforeMonth year m < daysBeforeMonth year (m' + 1) := by omega
  have hlt' : daysBeforeMonth year m' < daysBeforeMonth year (m + 1) := by omega
  obtain rfl : m = m' :=
    Nat.le_antisymm (month_le_of_days h'.month_pos hlt) (month_le_of_days h.month_pos hlt')
  exact ⟨rfl, by omega⟩

end Calendar

namespace Date

variable {d : Date} {n : Int}

theorem daysBeforeYear_le (d : Date) : daysBeforeYear d.year ≤ d.dayNumber + epochDays := by
  obtain ⟨-, -, -, -, hday, -⟩ := d.valid
  unfold dayNumber
  omega

theorem inMonth (d : Date) : InMonth d.year (d.dayNumber + epochDays - daysBeforeYear d.year).toNat d.month d.day := by
  obtain ⟨-, -, hmonth, hmonth', hday, hday'⟩ := d.valid
  refine ⟨hmonth, hmonth', hday, hday', ?_⟩
  unfold dayNumber
  omega

theorem lt_daysBeforeYear (d : Date) : d.dayNumber + epochDays < daysBeforeYear (d.year + 1) := by
  have hin := d.inMonth
  have hmonth := daysBeforeMonth_succ d.year hin.month_pos
  have hyear := daysBeforeMonth_mono d.year (m := d.month + 1) (n := 13) (by omega) (by have := hin.month_le; omega)
  rw [daysBeforeMonth_end] at hyear
  have hdays := hin.days
  have hday := hin.day_le
  have hfrom := d.daysBeforeYear_le
  rw [daysBeforeYear_succ]
  omega

/-- The day numbers of the calendar. -/
def InCalendar (n : Int) : Prop :=
  daysBeforeYear minYear ≤ n + epochDays ∧ n + epochDays < daysBeforeYear (maxYear + 1)

theorem inCalendar_dayNumber (d : Date) : InCalendar d.dayNumber := by
  obtain ⟨hmin, hmax, -⟩ := d.valid
  exact ⟨(daysBeforeYear_mono hmin).trans d.daysBeforeYear_le,
    d.lt_daysBeforeYear.trans_le (daysBeforeYear_mono (by omega))⟩

theorem ofDayNumber?_dayNumber (d : Date) : ofDayNumber? d.dayNumber = some d := by
  have hyear : yearOfDay (d.dayNumber + epochDays) = d.year :=
    yearOfDay_eq d.daysBeforeYear_le d.lt_daysBeforeYear
  have hfrom := d.daysBeforeYear_le
  have hto := d.lt_daysBeforeYear
  rw [daysBeforeYear_succ] at hto
  have hfound : InMonth d.year (d.dayNumber + epochDays - daysBeforeYear d.year).toNat _ _ :=
    monthOfDay_spec d.year (rfl : 1 + 11 = 12) (Nat.le_refl 1) (Nat.zero_le _) (by omega)
  obtain ⟨hmonth, hday⟩ := hfound.unique d.inMonth
  unfold ofDayNumber?
  dsimp only
  rw [hyear, hmonth, hday]
  exact dif_pos d.valid

/-- Each day of the calendar has a date. -/
theorem exists_dayNumber (h : InCalendar n) : ∃ d : Date, d.dayNumber = n := by
  obtain ⟨hmin, hmax⟩ := h
  obtain ⟨hfrom, hto⟩ := yearOfDay_spec (n + epochDays)
  have hfirst : minYear ≤ yearOfDay (n + epochDays) := year_le_of_days (hmin.trans_lt hto)
  have hlast : yearOfDay (n + epochDays) ≤ maxYear := year_le_of_days (hfrom.trans_lt hmax)
  generalize yearOfDay (n + epochDays) = year at *
  rw [daysBeforeYear_succ] at hto
  obtain ⟨hmonth, hmonth', hday, hday', hdays⟩ : InMonth year (n + epochDays - daysBeforeYear year).toNat _ _ :=
    monthOfDay_spec year (rfl : 1 + 11 = 12) (Nat.le_refl 1) (Nat.zero_le _) (by omega)
  refine ⟨⟨year, _, _, hfirst, hlast, hmonth, hmonth', hday, hday'⟩, ?_⟩
  unfold dayNumber
  dsimp only
  omega

theorem ofDayNumber?_eq_some_iff : ofDayNumber? n = some d ↔ d.dayNumber = n := by
  constructor
  · intro h
    have hyear : yearOfDay (n + epochDays) = d.year := by
      unfold ofDayNumber? ofFields? at h
      dsimp only at h
      split at h
      · rw [← Option.some.inj h]
      · cases h
    -- a day in a year of the calendar has a date, and this date is the one that is found
    obtain ⟨hfrom, hto⟩ := yearOfDay_spec (n + epochDays)
    rw [hyear] at hfrom hto
    obtain ⟨hmin, hmax, -⟩ := d.valid
    have hn : InCalendar n := ⟨(daysBeforeYear_mono hmin).trans hfrom, hto.trans_le (daysBeforeYear_mono (by omega))⟩
    obtain ⟨d', rfl⟩ := exists_dayNumber hn
    rw [ofDayNumber?_dayNumber] at h
    rw [Option.some.inj h]
  · rintro rfl
    exact ofDayNumber?_dayNumber d

end Date

end NamedSql
