import NamedSql.Proofs.Digits

/-!
# Reading written dates and timestamps

Every date and every timestamp of the calendar is read from the text that is written for it, with years of
any sign and length, with fractions of any length and with leap seconds (`Date.ofText?_render`,
`Timestamp.ofText?_render`). White space around it would not count, but the text has none.
-/

namespace NamedSql

open Decimal Text Calendar

namespace Calendar

variable {rest : List Char}

theorem after?_cons (c : Char) (s : List Char) : after? c (c :: s) = some s :=
  if_pos rfl

theorem number?_two {n : Nat} (hn : n < 100) : number? 2 (padded 2 n ++ rest) = some (n, rest) :=
  number?_padded (by decide) hn

/-! ### Dates -/

theorem signed?_padded (n : Nat) (hrest : ∀ c ∈ rest.head?, isDigit c = false) :
    year?.signed? (padded 4 n ++ rest) = some (n, rest) := by
  have htake : (padded 4 n ++ rest).takeWhile isDigit = padded 4 n := Template.takeWhile_run isDigit_padded hrest
  have hdrop : (padded 4 n ++ rest).dropWhile isDigit = rest := Template.dropWhile_run isDigit_padded hrest
  have hne : (padded 4 n).isEmpty = false := List.isEmpty_eq_false_iff.2 padded_ne_nil
  simp only [year?.signed?, htake, hdrop, hne, Bool.false_eq_true, if_false, value_padded]

theorem year?_digits {digits : List Char} (hne : digits ≠ []) (hdigits : ∀ c ∈ digits, isDigit c = true) :
    year? (digits ++ rest) = (number? 4 (digits ++ rest)).map fun (n, r) => ((n : Int), r) := by
  have hsign (c : Char) (r : List Char) (h : digits ++ rest = c :: r) : isDigit c = true := by
    obtain ⟨d, others, rfl⟩ := List.exists_cons_of_ne_nil hne
    obtain ⟨rfl, -⟩ := List.cons.inj h
    exact hdigits d List.mem_cons_self
  unfold year?
  rw [trimStart_digits hne hdigits]
  split
  · next r h => exact absurd (hsign _ r h) (by decide)
  · next r h => exact absurd (hsign _ r h) (by decide)
  · rfl

theorem year?_minus (s : List Char) : year? ('-' :: s) = (year?.signed? s).map fun (n, r) => (-(n : Int), r) := by
  rw [year?, trimStart_cons (by decide)]
  rfl

theorem year?_plus (s : List Char) : year? ('+' :: s) = (year?.signed? s).map fun (n, r) => ((n : Int), r) := by
  rw [year?, trimStart_cons (by decide)]
  rfl

theorem year?_renderYear (year : Int) (hrest : ∀ c ∈ rest.head?, isDigit c = false) :
    year? (renderYear year ++ rest) = some (year, rest) := by
  unfold renderYear
  dsimp only
  split
  · have hyear : -(year.natAbs : Int) = year := by omega
    rw [List.cons_append, year?_minus, signed?_padded _ hrest]
    exact congrArg (fun n => some (n, rest)) hyear
  · have hyear : (year.natAbs : Int) = year := by omega
    split
    · rw [List.cons_append, year?_plus, signed?_padded _ hrest]
      exact congrArg (fun n => some (n, rest)) hyear
    · have hfour : year.natAbs < 10 ^ 4 := by omega
      rw [year?_digits padded_ne_nil isDigit_padded, number?_padded (by decide) hfour]
      exact congrArg (fun n => some (n, rest)) hyear

theorem renderYear_head (year : Int) (rest : List Char) : ∀ c ∈ (renderYear year ++ rest).head?, isBlank c = false := by
  intro c hc
  unfold renderYear at hc
  dsimp only at hc
  split at hc
  · obtain rfl : '-' = c := Option.some.inj hc
    decide
  · split at hc
    · obtain rfl : '+' = c := Option.some.inj hc
      decide
    · rw [List.head?_append_of_ne_nil _ padded_ne_nil] at hc
      exact isBlank_of_isDigit (isDigit_padded c (List.mem_of_mem_head? hc))

theorem daysInMonth_le (year : Int) (month : Nat) : daysInMonth year month ≤ 31 := by
  unfold daysInMonth
  split
  · split <;> decide
  all_goals decide

theorem date?_render (d : Date) (rest : List Char) : date? (d.render ++ rest) = some (d, rest) := by
  obtain ⟨-, -, -, hmonth, -, hday⟩ := d.valid
  have hlast : d.day ≤ 31 := hday.trans (daysInMonth_le d.year d.month)
  have hfields : Date.ofFields? d.year d.month d.day = some d := dif_pos d.valid
  have htext : d.render ++ rest =
      renderYear d.year ++ '-' :: (padded 2 d.month ++ '-' :: (padded 2 d.day ++ rest)) := by
    simp [Date.render]
  have hdash : ∀ c ∈ ('-' :: (padded 2 d.month ++ '-' :: (padded 2 d.day ++ rest))).head?, isDigit c = false := by
    intro c hc
    obtain rfl : '-' = c := Option.some.inj hc
    decide
  rw [htext]
  have hyear := year?_renderYear d.year hdash
  have hmonth (s : List Char) : number? 2 (padded 2 d.month ++ s) = some (d.month, s) := number?_two (by omega)
  have hday (s : List Char) : number? 2 (padded 2 d.day ++ s) = some (d.day, s) := number?_two (by omega)
  simp only [date?, hyear, hmonth, hday, hfields, after?_cons, Option.bind_eq_bind, Option.bind_some, pure]

/-! ### Times -/

theorem fraction?_padded {width n : Nat} (hwidth : 0 < width) (hnine : width ≤ 9) (hn : n < 10 ^ width) :
    fraction? ('.' :: padded width n) = some (n * tenTo (9 - width), []) := by
  have hlength : (padded width n).length = width := length_padded hwidth hn
  have htake : (padded width n).takeWhile isDigit = padded width n := List.takeWhile_eq_self_iff.2 isDigit_padded
  have hdrop : (padded width n).dropWhile isDigit = [] := List.dropWhile_eq_nil_iff.2 isDigit_padded
  have hkept : (padded width n).take 9 = padded width n := List.take_of_length_le (by omega)
  have hne : (padded width n).isEmpty = false := List.isEmpty_eq_false_iff.2 padded_ne_nil
  simp only [fraction?, htake, hdrop, hkept, hne, hlength, Bool.false_eq_true, if_false, value_padded]

/-- The fraction has three, six or nine digits, or is left out. -/
theorem fraction?_renderFraction {nano : Nat} (hnano : nano < 1000000000) :
    fraction? (renderFraction nano) = some (nano, []) := by
  unfold renderFraction
  split
  · next hzero =>
    rw [hzero]
    rfl
  split
  · next hmillis =>
    have hthree : nano / 1000000 * tenTo 6 = nano := Nat.div_mul_cancel (Nat.dvd_of_mod_eq_zero hmillis)
    rw [fraction?_padded (by decide) (by decide) (by omega)]
    exact congrArg (fun n => some (n, [])) hthree
  split
  · next hmicros =>
    have hsix : nano / 1000 * tenTo 3 = nano := Nat.div_mul_cancel (Nat.dvd_of_mod_eq_zero hmicros)
    rw [fraction?_padded (by decide) (by decide) (by omega)]
    exact congrArg (fun n => some (n, [])) hsix
  · rw [fraction?_padded (by decide) (by decide) (by omega)]
    exact congrArg (fun n => some (n, [])) (Nat.mul_one nano)

/-- The text of the time of day. -/
def renderTime (t : Timestamp) : List Char :=
  padded 2 t.hour ++ ':' :: (padded 2 t.minute ++ ':' :: (padded 2 (t.second + t.nano / 1000000000) ++
    renderFraction (t.nano % 1000000000)))

theorem render_eq (t : Timestamp) : t.render = t.date.render ++ ' ' :: renderTime t := by
  simp [Timestamp.render, renderTime]

theorem time?_renderTime (t : Timestamp) : time? t.date (renderTime t) = some (t, []) := by
  obtain ⟨hhour, hminute, hsecond, hnano, hleap⟩ := id t.valid
  have hfields : Timestamp.ofFields? t.date t.hour t.minute t.second t.nano = some t := dif_pos t.valid
  have hhour (s : List Char) : number? 2 (padded 2 t.hour ++ s) = some (t.hour, s) := number?_two (by omega)
  have hminute (s : List Char) : number? 2 (padded 2 t.minute ++ s) = some (t.minute, s) := number?_two (by omega)
  have hsecond' (s : List Char) : number? 2 (padded 2 (t.second + t.nano / 1000000000) ++ s) =
      some (t.second + t.nano / 1000000000, s) := number?_two (by omega)
  have hfraction : fraction? (renderFraction (t.nano % 1000000000)) = some (t.nano % 1000000000, []) :=
    fraction?_renderFraction (Nat.mod_lt _ (by decide))
  -- the second 60 is written just for the leap seconds
  have htime : if t.second + t.nano / 1000000000 = 60 then
      Timestamp.ofFields? t.date t.hour t.minute 59 (1000000000 + t.nano % 1000000000) = some t
    else
      Timestamp.ofFields? t.date t.hour t.minute (t.second + t.nano / 1000000000) (t.nano % 1000000000) = some t := by
    by_cases hmilliard : 1000000000 ≤ t.nano
    · have hlast : t.second = 59 := hleap hmilliard
      have hrest : 1000000000 + t.nano % 1000000000 = t.nano := by omega
      rw [if_pos (by omega), hrest, ← hlast]
      exact hfields
    · have hnone : t.nano / 1000000000 = 0 := by omega
      have hall : t.nano % 1000000000 = t.nano := by omega
      rw [if_neg (by omega), hnone, hall]
      exact hfields
  simp only [time?, renderTime, hhour, hminute, hsecond', hfraction, after?_cons, Option.bind_eq_bind,
    Option.bind_some, pure]
  split at htime
  · next hsixty => rw [if_pos hsixty, htime, Option.bind_some]
  · next hsixty => rw [if_neg hsixty, htime, Option.bind_some]

theorem renderFraction_cases (nano : Nat) :
    renderFraction nano = [] ∨ ∃ width n, renderFraction nano = '.' :: padded width n := by
  unfold renderFraction
  split
  · exact .inl rfl
  split
  · exact .inr ⟨_, _, rfl⟩
  split
  · exact .inr ⟨_, _, rfl⟩
  · exact .inr ⟨_, _, rfl⟩

end Calendar

namespace Date

theorem trim_render (d : Date) : trim d.render = d.render := by
  have htext : d.render = renderYear d.year ++ '-' :: padded 2 d.month ++ ['-'] ++ padded 2 d.day := by
    simp [render]
  rw [htext]
  refine trim_of_digits ?_ padded_ne_nil isDigit_padded
  simp only [List.append_assoc]
  exact renderYear_head _ _

theorem ofText?_render (d : Date) : ofText? d.render = some d := by
  have hread : date? d.render = some (d, []) := by
    have h := date?_render d []
    rwa [List.append_nil] at h
  rw [ofText?, hread]

end Date

namespace Timestamp

theorem trim_render (t : Timestamp) : trim t.render = t.render := by
  have hhead (s : List Char) : ∀ c ∈ (t.date.render ++ s).head?, isBlank c = false := by
    rw [Date.render, List.append_assoc, List.append_assoc]
    exact renderYear_head _ _
  -- the last digit is one of the second or of the fraction
  rcases renderFraction_cases (t.nano % 1000000000) with hnone | ⟨width, n, hsome⟩
  · have htext : t.render = t.date.render ++ (' ' :: padded 2 t.hour ++ ':' :: padded 2 t.minute ++ [':']) ++
        padded 2 (t.second + t.nano / 1000000000) := by
      simp [render, hnone]
    rw [htext]
    refine trim_of_digits ?_ padded_ne_nil isDigit_padded
    rw [List.append_assoc]
    exact hhead _
  · have htext : t.render = t.date.render ++ (' ' :: padded 2 t.hour ++ ':' :: padded 2 t.minute ++
        ':' :: padded 2 (t.second + t.nano / 1000000000) ++ ['.']) ++ padded width n := by
      simp [render, hsome]
    rw [htext]
    refine trim_of_digits ?_ padded_ne_nil isDigit_padded
    rw [List.append_assoc]
    exact hhead _

theorem ofText?_render (t : Timestamp) : ofText? t.render = some t := by
  have hdate : date? t.render = some (t.date, ' ' :: renderTime t) := by
    rw [render_eq]
    exact date?_render t.date _
  have htrim : trimStart (' ' :: renderTime t) = renderTime t := by
    have hblank : trimStart (' ' :: renderTime t) = trimStart (renderTime t) := rfl
    rw [hblank]
    exact trimStart_digits padded_ne_nil isDigit_padded
  have hread : readWith? (some <| trimStart ·) t.render = some t := by
    simp only [readWith?, hdate, htrim, time?_renderTime, Option.bind_eq_bind, Option.bind_some]
  rw [ofText?, hread]
  rfl

end Timestamp

end NamedSql
