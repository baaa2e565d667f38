import Mathlib.Order.Monotone.Basic
import Mathlib.Tactic.IntervalCases

/-!
# Instants and calendar dates

Instants are milliseconds since the beginning of 1970, UTC; days are counted
from there, too. `CivilDate.ofDays` gives the Gregorian date of a day, which
determines the day (`CivilDate.days_ofDays`). It counts years from March, so
that a leap day is the last day of its year.
-/

namespace Framework

def isLeapYear (year : Nat) : Bool := year % 4 = 0 && (year % 100 ≠ 0 || year % 400 = 0)

def monthLength (year month : Nat) : Nat :=
  if month = 2 then if isLeapYear year then 29 else 28
  else if month = 4 ∨ month = 6 ∨ month = 9 ∨ month = 11 then 30
  else 31

/-- A date of the Gregorian calendar, from 1970 on. -/
structure CivilDate where
  year : Nat
  month : Nat
  day : Nat
  year_le : 1970 ≤ year
  month_pos : 1 ≤ month
  month_le : month ≤ 12
  day_pos : 1 ≤ day
  day_le : day ≤ monthLength year month

/-! ## Years from March -/

/-- The days before the year `y` from March, counted from March of the year 0. -/
def marchYearStart (y : Nat) : Nat := 365 * y + y / 4 - y / 100 + y / 400

/-- The year from March a day is in, both counted from March of the year 0. -/
def marchYear (n : Nat) : Nat :=
  let century := min (n % 146097 / 36524) 3
  let rest := n % 146097 - century * 36524
  400 * (n / 146097) + 100 * century + 4 * (rest / 1461) + min (rest % 1461 / 365) 3

/-- A day is in a period of 400 years, a century, a period of 4 years and a year. Only
the last year of a period can have a day 365, if not cut short by its century. -/
theorem marchYear_split (n : Nat) : ∃ p c q y r, n = 146097 * p + 36524 * c + 1461 * q + 365 * y + r ∧
    marchYear n = 400 * p + 100 * c + 4 * q + y ∧ c ≤ 3 ∧ q ≤ 24 ∧ y ≤ 3 ∧ r ≤ 365 ∧
    (r = 365 → y = 3 ∧ (q = 24 → c = 3)) := by
  have hc : n % 146097 - min (n % 146097 / 36524) 3 * 36524 ≤ 36524 := by omega
  have hn : n = 146097 * (n / 146097) + 36524 * min (n % 146097 / 36524) 3 +
      (n % 146097 - min (n % 146097 / 36524) 3 * 36524) := by omega
  refine ⟨n / 146097, min (n % 146097 / 36524) 3,
    (n % 146097 - min (n % 146097 / 36524) 3 * 36524) / 1461,
    min ((n % 146097 - min (n % 146097 / 36524) 3 * 36524) % 1461 / 365) 3,
    (n % 146097 - min (n % 146097 / 36524) 3 * 36524) % 1461 -
      365 * min ((n % 146097 - min (n % 146097 / 36524) 3 * 36524) % 1461 / 365) 3, ?_⟩
  refine ⟨by omega, rfl, by omega, by omega, by omega, by omega, fun hr => ⟨by omega, fun hq => ?_⟩⟩
  omega

/-- A day is in its year. -/
theorem marchYear_bounds (n : Nat) :
    marchYearStart (marchYear n) ≤ n ∧ n < marchYearStart (marchYear n + 1) := by
  obtain ⟨p, c, q, y, r, hn, hy, hc, hq, hy', hr, hl⟩ := marchYear_split n
  rw [hy, marchYearStart, marchYearStart]
  omega

theorem isLeapYear_iff {year : Nat} :
    isLeapYear year = true ↔ year % 4 = 0 ∧ (year % 100 ≠ 0 ∨ year % 400 = 0) := by
  simp [isLeapYear]

/-- A year from March ends in its leap day, if it has one. -/
theorem marchYearStart_succ (y : Nat) : marchYearStart (y + 1) =
    marchYearStart y + if isLeapYear (y + 1) then 366 else 365 := by
  unfold marchYearStart
  by_cases h : isLeapYear (y + 1) = true
  · rw [if_pos h]
    rw [isLeapYear_iff] at h
    omega
  · rw [if_neg h]
    have h : (y + 1) % 4 ≠ 0 ∨ (y + 1) % 100 = 0 ∧ (y + 1) % 400 ≠ 0 := by
      rw [isLeapYear_iff] at h
      tauto
    rcases h with h | ⟨h, h'⟩
    · have h₁ : (y + 1) / 4 = y / 4 := by omega
      have h₂ : (y + 1) / 100 = y / 100 := by omega
      have h₃ : (y + 1) / 400 = y / 400 := by omega
      omega
    · have h₁ : (y + 1) / 4 = y / 4 + 1 := by omega
      have h₂ : (y + 1) / 100 = y / 100 + 1 := by omega
      have h₃ : (y + 1) / 400 = y / 400 := by omega
      omega

theorem marchYearStart_mono : Monotone marchYearStart := by
  refine monotone_nat_of_le_succ fun y => ?_
  rw [marchYearStart_succ]
  omega

/-! ## Months from March -/

/-- The days before the month of index `m` from March. -/
def marchMonthStart (m : Nat) : Nat := (153 * m + 2) / 5

/-- The month a day of a year from March is in. -/
def marchMonth (r : Nat) : Nat := (5 * r + 2) / 153

theorem marchMonth_bounds (r : Nat) :
    marchMonthStart (marchMonth r) ≤ r ∧ r < marchMonthStart (marchMonth r + 1) := by
  unfold marchMonthStart marchMonth
  omega

theorem marchMonth_le {r : Nat} (hr : r ≤ 365) : marchMonth r ≤ 11 := by
  unfold marchMonth
  omega

/-- A month has as many days as there are up to the next. -/
theorem monthLength_of_lt {y m : Nat} (hm : m < 10) :
    monthLength y (m + 3) = marchMonthStart (m + 1) - marchMonthStart m := by
  unfold monthLength marchMonthStart
  interval_cases m <;> rfl

theorem monthLength_january (y : Nat) : monthLength y 1 = 31 := rfl

theorem monthLength_february (y : Nat) : monthLength y 2 = if isLeapYear y then 29 else 28 := rfl

theorem monthLength_le (year month : Nat) : monthLength year month ≤ 31 := by
  unfold monthLength
  split
  · split <;> decide
  · split <;> decide

/-! ## Dates -/

namespace CivilDate

/-- The days since the beginning of 1970. -/
def days (date : CivilDate) : Nat :=
  if date.month ≤ 2 then
    marchYearStart (date.year - 1) + marchMonthStart (date.month + 9) + (date.day - 1) - 719468
  else marchYearStart date.year + marchMonthStart (date.month - 3) + (date.day - 1) - 719468

/-- The day `r` of the year from March `y`. -/
def ofMarch (y r : Nat) (hy : 1970 ≤ y ∨ y = 1969 ∧ 306 ≤ r) (hr : r ≤ 365)
    (hl : r = 365 → isLeapYear (y + 1) = true) : CivilDate :=
  have hb := marchMonth_bounds r
  if hm : marchMonth r < 10 then
    { year := y
      month := marchMonth r + 3
      day := r - marchMonthStart (marchMonth r) + 1
      year_le := by
        unfold marchMonth at hm
        omega
      month_pos := by omega
      month_le := by omega
      day_pos := by omega
      day_le := by
        rw [monthLength_of_lt hm]
        omega }
  else
    { year := y + 1
      month := marchMonth r - 9
      day := r - marchMonthStart (marchMonth r) + 1
      year_le := by omega
      month_pos := by omega
      month_le := by
        have hm' := marchMonth_le hr
        omega
      day_pos := by omega
      day_le := by
        have hm' := marchMonth_le hr
        obtain hm' | hm' : marchMonth r = 10 ∨ marchMonth r = 11 := by omega
        · rw [hm', marchMonthStart, marchMonthStart] at hb
          rw [hm', marchMonthStart, monthLength_january]
          omega
        · rw [hm', marchMonthStart, marchMonthStart] at hb
          rw [hm', marchMonthStart, monthLength_february]
          split
          · omega
          · next h =>
            have hr' : r ≠ 365 := fun h' => h (hl h')
            omega }

/-- A day since 1970 is not before January of the year 1969 from March. -/
theorem marchYear_ge (n : Nat) : 1970 ≤ marchYear (n + 719468) ∨
    marchYear (n + 719468) = 1969 ∧
      306 ≤ n + 719468 - marchYearStart (marchYear (n + 719468)) := by
  have hb := marchYear_bounds (n + 719468)
  have h₉ : marchYearStart 1969 = 719162 := rfl
  obtain h | h | h : 1970 ≤ marchYear (n + 719468) ∨ marchYear (n + 719468) = 1969 ∨
    marchYear (n + 719468) + 1 ≤ 1969 := by omega
  · exact .inl h
  · right
    rw [h, h₉]
    omega
  · have hm := marchYearStart_mono h
    omega

/-- The date of a day. -/
def ofDays (n : Nat) : CivilDate :=
  have hb := marchYear_bounds (n + 719468)
  have hs := marchYearStart_succ (marchYear (n + 719468))
  ofMarch (marchYear (n + 719468)) (n + 719468 - marchYearStart (marchYear (n + 719468)))
    (marchYear_ge n)
    (by split at hs <;> omega)
    (by
      intro hr
      by_contra hl
      rw [if_neg hl] at hs
      omega)

theorem days_ofMarch (y r : Nat) (hy : 1970 ≤ y ∨ y = 1969 ∧ 306 ≤ r) (hr : r ≤ 365)
    (hl : r = 365 → isLeapYear (y + 1) = true) :
    (ofMarch y r hy hr hl).days = marchYearStart y + r - 719468 := by
  have hb := marchMonth_bounds r
  have hm := marchMonth_le hr
  unfold ofMarch days
  split
  · next h =>
    have hn : ¬ marchMonth r + 3 ≤ 2 := by omega
    simp only [hn, if_false, Nat.add_sub_cancel]
    omega
  · next h =>
    have hn : marchMonth r - 9 ≤ 2 := by omega
    have hm' : marchMonth r - 9 + 9 = marchMonth r := by omega
    simp only [hn, if_true, hm', Nat.add_sub_cancel]
    omega

/-- The date of a day determines the day. -/
theorem days_ofDays (n : Nat) : (ofDays n).days = n := by
  have hb := marchYear_bounds (n + 719468)
  rw [ofDays, days_ofMarch]
  omega

/-- The days from the beginning of 1970 to the beginning of a year. -/
def newYear (year : Nat) : Nat := marchYearStart (year - 1) + 306 - 719468

theorem newYear_mono {y z : Nat} (h : y ≤ z) : newYear y ≤ newYear z := by
  have hm : marchYearStart (y - 1) ≤ marchYearStart (z - 1) := marchYearStart_mono (by omega)
  unfold newYear
  omega

/-- A date is in its year. -/
theorem days_bounds (date : CivilDate) :
    newYear date.year ≤ date.days ∧ date.days < newYear (date.year + 1) := by
  obtain ⟨year, month, day, hy, hm, hm', hd, hd'⟩ := date
  have h31 := monthLength_le year month
  have hs : marchYearStart (year - 1 + 1) = _ := marchYearStart_succ (year - 1)
  rw [Nat.sub_add_cancel (by omega : 1 ≤ year)] at hs
  have h₁₉₆₉ : 719162 ≤ marchYearStart (year - 1) :=
    marchYearStart_mono (show 1969 ≤ year - 1 by omega)
  unfold days newYear
  simp only [Nat.add_sub_cancel]
  split
  · obtain rfl | rfl : month = 1 ∨ month = 2 := by omega
    · rw [monthLength_january] at hd'
      simp only [marchMonthStart]
      split at hs <;> omega
    · rw [monthLength_february] at hd'
      simp only [marchMonthStart]
      split at hs <;> split at hd' <;> omega
  · have hk : marchMonthStart (month - 3) ≤ 275 := by
      unfold marchMonthStart
      omega
    split at hs <;> omega

theorem year_lt_iff (date : CivilDate) {year : Nat} :
    date.year < year ↔ date.days < newYear year := by
  obtain ⟨hb, hb'⟩ := days_bounds date
  constructor
  · intro h
    exact lt_of_lt_of_le hb' (newYear_mono (Nat.succ_le_of_lt h))
  · intro h
    by_contra hy
    have hm := newYear_mono (not_lt.mp hy)
    omega

end CivilDate

/-! ## Instants -/

/-- A date and a time of day, in UTC. -/
structure UtcTime where
  date : CivilDate
  hour : Fin 24
  minute : Fin 60
  second : Fin 60
  millisecond : Fin 1000

namespace UtcTime

/-- The milliseconds since the beginning of 1970. -/
def millis (t : UtcTime) : Nat :=
  86400000 * t.date.days + 3600000 * t.hour + 60000 * t.minute + 1000 * t.second + t.millisecond

def ofMillis (ms : Nat) : UtcTime where
  date := .ofDays (ms / 86400000)
  hour := Fin.ofNat 24 (ms / 3600000)
  minute := Fin.ofNat 60 (ms / 60000)
  second := Fin.ofNat 60 (ms / 1000)
  millisecond := Fin.ofNat 1000 ms

/-- The calendar and the clock determine the instant. -/
theorem millis_ofMillis (ms : Nat) : (ofMillis ms).millis = ms := by
  unfold millis ofMillis
  simp only [CivilDate.days_ofDays, Fin.val_ofNat]
  omega

theorem ofMillis_injective : Function.Injective ofMillis :=
  Function.LeftInverse.injective millis_ofMillis

/-- The year of an instant. -/
theorem year_ofMillis_lt_iff {ms year : Nat} :
    (ofMillis ms).date.year < year ↔ ms < 86400000 * CivilDate.newYear year := by
  rw [CivilDate.year_lt_iff, ofMillis, CivilDate.days_ofDays]
  omega

end UtcTime

end Framework
