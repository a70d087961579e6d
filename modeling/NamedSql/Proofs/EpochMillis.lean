import NamedSql.Proofs.DayNumbers
import NamedSql.Vendor

/-!
# Timestamps and milliseconds

A number of milliseconds has a timestamp if it lies between the first and the last instant of the calendar, also
before 1970, and the timestamp has this number (`Timestamp.ofMillis?_eq_some_iff`). A timestamp outside leap
seconds comes back from its milliseconds without the finer part of its nanoseconds.
-/

namespace NamedSql

open Calendar

namespace Timestamp

variable {t : Timestamp} {n : Int}

/-- Whether a timestamp lies within one of the seconds that all minutes have. -/
def IsRegular (t : Timestamp) : Prop :=
  t.nano < 1000000000

/-- The timestamp at the start of its millisecond. -/
def cutToMillis (t : Timestamp) : Timestamp where
  date := t.date
  hour := t.hour
  minute := t.minute
  second := t.second
  nano := t.nano / 1000000 * 1000000
  valid := by
    obtain ⟨hhour, hminute, hsecond, hnano, hleap⟩ := t.valid
    refine ⟨hhour, hminute, hsecond, ?_, fun h => hleap ?_⟩
    · omega
    · omega

/-- Milliseconds since midnight. -/
def millisOfDay (t : Timestamp) : Int :=
  ((t.hour * 60 + t.minute) * 60 + t.second) * 1000 + t.nano / 1000000

theorem toMillis_eq (t : Timestamp) : t.toMillis = t.date.dayNumber * 86400000 + t.millisOfDay := by
  unfold toMillis millisOfDay
  omega

theorem millisOfDay_lt (ht : t.IsRegular) : 0 ≤ t.millisOfDay ∧ t.millisOfDay < 86400000 := by
  obtain ⟨hhour, hminute, hsecond, -, -⟩ := t.valid
  unfold IsRegular at ht
  unfold millisOfDay
  omega

/-- The time of a day that has a number of milliseconds, cut into its fields. -/
theorem fields_eq (hn : n % 86400000 = t.millisOfDay) (ht : t.IsRegular) :
    (n % 86400000).toNat / 3600000 = t.hour ∧ (n % 86400000).toNat / 60000 % 60 = t.minute ∧
      (n % 86400000).toNat / 1000 % 60 = t.second ∧
      (n % 86400000).toNat % 1000 * 1000000 = t.nano / 1000000 * 1000000 := by
  obtain ⟨hhour, hminute, hsecond, -, -⟩ := t.valid
  unfold IsRegular at ht
  unfold millisOfDay at hn
  omega

theorem ofMillis?_toMillis (ht : t.IsRegular) : ofMillis? t.toMillis = some t.cutToMillis := by
  obtain ⟨hfrom, hto⟩ := millisOfDay_lt ht
  have hday : t.toMillis / 86400000 = t.date.dayNumber := by
    rw [toMillis_eq]
    omega
  have htime : t.toMillis % 86400000 = t.millisOfDay := by
    rw [toMillis_eq]
    omega
  obtain ⟨hhour, hminute, hsecond, hnano⟩ := fields_eq htime ht
  unfold ofMillis?
  rw [hday, Date.ofDayNumber?_dayNumber, Option.bind_some]
  dsimp only
  rw [hhour, hminute, hsecond, hnano]
  exact dif_pos t.cutToMillis.valid

theorem toMillis_of_ofMillis? (h : ofMillis? n = some t) : t.toMillis = n := by
  obtain ⟨date, hdate, h⟩ := Option.bind_eq_some_iff.1 h
  have hday : date.dayNumber = n / 86400000 := Date.ofDayNumber?_eq_some_iff.1 hdate
  unfold ofFields? at h
  dsimp only at h
  split at h
  · obtain rfl := Option.some.inj h
    unfold toMillis
    dsimp only
    omega
  · cases h

/-! ### The range of the calendar -/

theorem inCalendar_iff : Date.InCalendar (n / 86400000) ↔ Instant.first.millis ≤ n ∧ n ≤ Instant.last.millis := by
  have hfirst : daysBeforeYear minYear = epochDays + Instant.first.millis / 86400000 := by decide +kernel
  have hlast : daysBeforeYear (maxYear + 1) = epochDays + (Instant.last.millis + 1) / 86400000 := by decide +kernel
  unfold Date.InCalendar
  rw [hfirst, hlast]
  simp only [Instant.first, Instant.last]
  omega

theorem exists_ofMillis?_iff : (∃ t, ofMillis? n = some t) ↔ Instant.first.millis ≤ n ∧ n ≤ Instant.last.millis := by
  rw [← inCalendar_iff]
  constructor
  · rintro ⟨t, h⟩
    obtain ⟨date, hdate, -⟩ := Option.bind_eq_some_iff.1 h
    rw [← Date.ofDayNumber?_eq_some_iff.1 hdate]
    exact date.inCalendar_dayNumber
  · intro h
    obtain ⟨date, hday⟩ := Date.exists_dayNumber h
    have htime : ValidTime ((n % 86400000).toNat / 3600000) ((n % 86400000).toNat / 60000 % 60)
        ((n % 86400000).toNat / 1000 % 60) ((n % 86400000).toNat % 1000 * 1000000) := by
      unfold ValidTime
      omega
    refine ⟨⟨date, _, _, _, _, htime⟩, ?_⟩
    unfold ofMillis?
    rw [← hday, Date.ofDayNumber?_dayNumber, Option.bind_some]
    exact dif_pos htime

theorem toMillis_mem (ht : t.IsRegular) : Instant.first.millis ≤ t.toMillis ∧ t.toMillis ≤ Instant.last.millis :=
  exists_ofMillis?_iff.1 ⟨_, ofMillis?_toMillis ht⟩

/-! ### Conversion -/

theorem convert_integer {m : Int64} {w : Value} : Converters.standard.convert (.integer m) .timestamp = .ok w ↔
    ∃ t, ofMillis? m.toInt = some t ∧ w = .timestamp t := by
  show Kind.numeric.convert (.integer m) .timestamp = .ok w ↔ _
  unfold Kind.convert Kind.convert? Kind.convertNumeric?
  dsimp only
  cases ofMillis? m.toInt with
  | none => simp
  | some t => simp [eq_comm]

/-- Integers that have a timestamp are its milliseconds, those within the calendar have one, and a timestamp
outside leap seconds becomes the start of its millisecond. -/
theorem millis_convert :
    (∀ (m : Int64) (w : Value), Converters.standard.convert (.integer m) .timestamp = .ok w →
      Converters.standard.convert w .integer = .ok (.integer m)) ∧
    (∀ m : Int64, (∃ w, Converters.standard.convert (.integer m) .timestamp = .ok w) ↔
      Instant.first.millis ≤ m.toInt ∧ m.toInt ≤ Instant.last.millis) ∧
    ∀ t : Timestamp, t.IsRegular → ∃ m : Int64, m.toInt = t.toMillis ∧
      Converters.standard.convert (.timestamp t) .integer = .ok (.integer m) ∧
      Converters.standard.convert (.integer m) .timestamp = .ok (.timestamp t.cutToMillis) := by
  refine ⟨fun m w h => ?_, fun m => ?_, fun t ht => ?_⟩
  · obtain ⟨t, ht, rfl⟩ := convert_integer.1 h
    show Except.ok (Value.integer (Int64.ofInt t.toMillis)) = _
    rw [toMillis_of_ofMillis? ht, Int64.ofInt_toInt]
  · rw [← exists_ofMillis?_iff]
    constructor
    · rintro ⟨w, h⟩
      obtain ⟨t, ht, -⟩ := convert_integer.1 h
      exact ⟨t, ht⟩
    · rintro ⟨t, ht⟩
      exact ⟨_, convert_integer.2 ⟨t, ht, rfl⟩⟩
  · obtain ⟨hfirst, hlast⟩ := toMillis_mem ht
    have hfits : (Int64.ofInt t.toMillis).toInt = t.toMillis := by
      simp only [Instant.first, Instant.last] at hfirst hlast
      exact Int64.toInt_ofInt_of_le (by omega) (by omega)
    refine ⟨Int64.ofInt t.toMillis, hfits, rfl, ?_⟩
    exact convert_integer.2 ⟨_, by rw [hfits, ofMillis?_toMillis ht], rfl⟩

/-- The last second of a leap day long before 1970. -/
def leapDayEnd : Timestamp :=
  ⟨⟨-400, 2, 29, by decide⟩, 23, 59, 59, 123456789, by decide⟩

theorem millis_convert_of_leapDayEnd :
    leapDayEnd.IsRegular ∧
      (∃ m : Int64, m.toInt = -74784816000877 ∧
        Converters.standard.convert (.timestamp leapDayEnd) .integer = .ok (.integer m) ∧
        Converters.standard.convert (.integer m) .timestamp = .ok (.timestamp leapDayEnd.cutToMillis)) ∧
      Converters.standard.convert (.integer (-74784816000877)) .timestamp = .ok (.timestamp leapDayEnd.cutToMillis) ∧
      Converters.standard.convert (.timestamp leapDayEnd.cutToMillis) .integer = .ok (.integer (-74784816000877)) := by
  have hregular : leapDayEnd.IsRegular := by
    unfold IsRegular
    decide
  have hmillis : leapDayEnd.toMillis = -74784816000877 := by decide +kernel
  have hfound : Converters.standard.convert (.integer (-74784816000877)) .timestamp =
      .ok (.timestamp leapDayEnd.cutToMillis) :=
    convert_integer.2 ⟨leapDayEnd.cutToMillis, by decide +kernel, rfl⟩
  exact ⟨hregular, hmillis ▸ millis_convert.2.2 leapDayEnd hregular, hfound, millis_convert.1 _ _ hfound⟩

end Timestamp

end NamedSql
