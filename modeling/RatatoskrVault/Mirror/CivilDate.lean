import RatatoskrVault.Lib.Calendar

/-! The date of a snapshot's timestamp. The divisions of `civil_date` count the years from the
first of March, in eras of 400 years. -/
namespace RatatoskrVault

open Lib Calendar

/-- The result of an operation on `i64`; nothing when it overflows. -/
def inI64 (n : ℤ) : Option ℤ := if -2 ^ 63 ≤ n ∧ n < 2 ^ 63 then some n else none

def yearOfEra (dayOfEra : ℤ) : Option ℤ := do
  let quads ← inI64 (dayOfEra - dayOfEra.tdiv 1460)
  let centuries ← inI64 (quads + dayOfEra.tdiv 36524)
  let days ← inI64 (centuries - dayOfEra.tdiv 146096)
  return days.tdiv 365

def dayOfYear (dayOfEra yearOfEra : ℤ) : Option ℤ := do
  let years ← inI64 (365 * yearOfEra)
  let leaps ← inI64 (years + yearOfEra.tdiv 4)
  let first ← inI64 (leaps - yearOfEra.tdiv 100)
  inI64 (dayOfEra - first)

def monthAndDay (dayOfYear : ℤ) : Option (ℤ × ℤ) := do
  let fifths ← inI64 (5 * dayOfYear)
  let shifted ← inI64 (fifths + 2)
  let monthPrime := shifted.tdiv 153
  let months ← inI64 (153 * monthPrime)
  let first ← inI64 (months + 2)
  let before ← inI64 (dayOfYear - first.tdiv 5)
  let day ← inI64 (before + 1)
  let month ← inI64 (monthPrime + if monthPrime < 10 then 3 else -9)
  return (month, day)

def civilDate (daysSinceEpoch : ℤ) : Option (ℤ × ℤ × ℤ) := do
  let shifted ← inI64 (daysSinceEpoch + 719468)
  let base ← if 0 ≤ shifted then some shifted else inI64 (shifted - 146096)
  let era := base.tdiv 146097
  let eras ← inI64 (era * 146097)
  let dayOfEra ← inI64 (shifted - eras)
  let yearOfEra ← yearOfEra dayOfEra
  let years ← inI64 (era * 400)
  let year ← inI64 (yearOfEra + years)
  let dayOfYear ← dayOfYear dayOfEra yearOfEra
  let (month, day) ← monthAndDay dayOfYear
  let year ← inI64 (year + if month ≤ 2 then 1 else 0)
  return (year, month, day)

/-- The last day whose seconds fit `u64`. -/
def lastDay : ℤ := (2 ^ 64 - 1) / 86400

theorem inI64_eq {n : ℤ} (hlow : -2 ^ 63 ≤ n) (hhigh : n < 2 ^ 63) :
    inI64 n = some n := if_pos ⟨hlow, hhigh⟩

section

variable {doe : ℤ}

/-- The year of a day, by its quotients. -/
def eraYear (doe : ℤ) : ℤ := (doe - doe / 1460 + doe / 36524 - doe / 146096) / 365

theorem yearOfEra_eq (hlow : 0 ≤ doe) (hhigh : doe < 146097) :
    yearOfEra doe = some (eraYear doe) := by
  unfold yearOfEra eraYear
  rw [Int.tdiv_eq_ediv_of_nonneg hlow, Int.tdiv_eq_ediv_of_nonneg hlow,
    Int.tdiv_eq_ediv_of_nonneg hlow, inI64_eq (by omega) (by omega), Option.bind_eq_bind,
    Option.bind_some, inI64_eq (by omega) (by omega), Option.bind_some,
    inI64_eq (by omega) (by omega), Option.bind_some,
    Int.tdiv_eq_ediv_of_nonneg (by omega)]
  rfl

theorem eraYear_mem (hlow : 0 ≤ doe) (hhigh : doe < 146097) :
    0 ≤ eraYear doe ∧ eraYear doe ≤ 399 := by
  unfold eraYear
  omega

/-- The days of the era before a year of it. -/
theorem daysBeforeYear_eraYear (hlow : 0 ≤ doe) (hhigh : doe < 146097) :
    daysBeforeYear (eraYear doe + 1) =
      365 * eraYear doe + eraYear doe / 4 - eraYear doe / 100 := by
  have hera := eraYear_mem hlow hhigh
  unfold daysBeforeYear
  rw [add_sub_cancel_right]
  omega

/-- The last day of an era has no century of its own. -/
theorem century_of_eraYear (hlow : 0 ≤ doe) (hhigh : doe < 146096) :
    eraYear doe / 100 = doe / 36524 := by
  unfold eraYear
  omega

/-- A group of four years is one day longer than the quotient by 1460 counts. -/
theorem quad_of_eraYear (hlow : 0 ≤ doe) (hhigh : doe < 146096) :
    doe / 1460 ≤ eraYear doe / 4 ∨ doe / 1460 = eraYear doe / 4 + 1 := by
  have hcentury := century_of_eraYear hlow hhigh
  unfold eraYear at hcentury ⊢
  omega

/-- A year has begun by each of its days. -/
theorem first_le_of_eraYear (hlow : 0 ≤ doe) (hhigh : doe < 146097) :
    daysBeforeYear (eraYear doe + 1) ≤ doe := by
  by_cases hlast : doe = 146096
  · subst hlast
    decide
  · have hcentury := century_of_eraYear hlow (by omega)
    have hquad := quad_of_eraYear hlow (by omega)
    have hyear : 365 * eraYear doe ≤ doe - doe / 1460 + doe / 36524 := by
      unfold eraYear
      omega
    rw [daysBeforeYear_eraYear hlow hhigh]
    omega

/-- A year is not over on any of its days. -/
theorem lt_of_eraYear (hlow : 0 ≤ doe) (hhigh : doe < 146097) :
    doe < daysBeforeYear (eraYear doe + 2) := by
  by_cases hlast : doe = 146096
  · subst hlast
    decide
  · have hcentury := century_of_eraYear hlow (by omega)
    have hquad := quad_of_eraYear hlow (by omega)
    have hyear : doe - doe / 1460 + doe / 36524 < 365 * (eraYear doe + 1) := by
      unfold eraYear
      omega
    have hera := eraYear_mem hlow hhigh
    generalize eraYear doe = year at *
    have hfour : (year + 1) / 4 = if year % 4 = 3 then year / 4 + 1 else year / 4 := by
      split_ifs <;> omega
    have hhundred : (year + 1) / 100 = if year % 100 = 99 then year / 100 + 1 else year / 100 := by
      split_ifs <;> omega
    have hfirst : 0 ≤ (year + 1) / 400 := by omega
    unfold daysBeforeYear
    rw [show year + 2 - 1 = year + 1 by omega, hfour, hhundred]
    rcases hquad with hquad | hquad
    · split_ifs <;> omega
    · have hlong : year % 4 = 3 := by omega
      rw [if_pos hlong]
      split_ifs <;> omega

theorem dayOfYear_eq (hlow : 0 ≤ doe) (hhigh : doe < 146097) :
    dayOfYear doe (eraYear doe) = some (doe - daysBeforeYear (eraYear doe + 1)) := by
  have hera := eraYear_mem hlow hhigh
  rw [daysBeforeYear_eraYear hlow hhigh]
  unfold dayOfYear
  rw [Int.tdiv_eq_ediv_of_nonneg hera.1, Int.tdiv_eq_ediv_of_nonneg hera.1,
    inI64_eq (by omega) (by omega), Option.bind_eq_bind, Option.bind_some,
    inI64_eq (by omega) (by omega), Option.bind_some,
    inI64_eq (by omega) (by omega), Option.bind_some,
    inI64_eq (by omega) (by omega)]

end

/-- The month that starts a year from March. -/
def monthOf (doy : ℤ) : ℤ := (5 * doy + 2) / 153 + if (5 * doy + 2) / 153 < 10 then 3 else -9

def dayOf (doy : ℤ) : ℤ := doy - (153 * ((5 * doy + 2) / 153) + 2) / 5 + 1

theorem monthAndDay_eq {doy : ℤ} (hlow : 0 ≤ doy) (hhigh : doy < 366) :
    monthAndDay doy = some (monthOf doy, dayOf doy) := by
  unfold monthAndDay
  rw [inI64_eq (by omega) (by omega), Option.bind_eq_bind, Option.bind_some,
    inI64_eq (by omega) (by omega), Option.bind_some]
  have hprime : (5 * doy + 2).tdiv 153 = (5 * doy + 2) / 153 :=
    Int.tdiv_eq_ediv_of_nonneg (by omega)
  simp only [hprime]
  rw [inI64_eq (by omega) (by omega), Option.bind_some,
    inI64_eq (by omega) (by omega), Option.bind_some,
    Int.tdiv_eq_ediv_of_nonneg (by omega), inI64_eq (by omega) (by omega), Option.bind_some,
    inI64_eq (by omega) (by omega), Option.bind_some,
    inI64_eq (by split_ifs <;> omega) (by split_ifs <;> omega)]
  rfl

theorem monthOf_mem {doy : ℤ} (hlow : 0 ≤ doy) (hhigh : doy < 366) :
    1 ≤ monthOf doy ∧ monthOf doy ≤ 12 := by
  unfold monthOf
  split_ifs <;> omega

/-- January and February belong to the year that started the March before. -/
def yearOf (year doy : ℤ) : ℤ := year + if monthOf doy ≤ 2 then 1 else 0

/-- Every day of the year from March is one of its month, and of the year of that month. -/
theorem dayOf_mem {year doy : ℤ} (hlow : 0 ≤ doy) (hhigh : doy < daysInYear (year + 1)) :
    1 ≤ dayOf doy ∧ dayOf doy ≤ daysInMonth (yearOf year doy) (monthOf doy) ∧
      daysBeforeYear (yearOf year doy) + daysBeforeMonth (yearOf year doy) (monthOf doy)
        + dayOf doy = daysBeforeYear (year + 1) + doy - 305 := by
  have hyear := daysBeforeYear_succ year
  have hprime : 0 ≤ (5 * doy + 2) / 153 ∧ (5 * doy + 2) / 153 ≤ 11 := by
    unfold daysInYear at hhigh
    split_ifs at hhigh <;> omega
  obtain ⟨hmarch, hfebruary⟩ := hprime
  unfold yearOf monthOf dayOf daysInMonth daysBeforeMonth
  unfold daysInYear at hyear hhigh
  generalize hquot : (5 * doy + 2) / 153 = prime at *
  interval_cases prime
  all_goals
    norm_num
    split_ifs at * <;> omega

/-- Every day whose seconds fit `u64` has the date that the calendar gives it. -/
theorem civilDate_eq {days : ℤ} (hlow : 0 ≤ days) (hhigh : days ≤ lastDay) :
    ∃ date : Date, civilDate days = some (date.year, date.month, date.day) ∧
      date.toDays = days := by
  have hlast : days ≤ 213503982334601 := hhigh
  obtain ⟨era, hera⟩ : ∃ era, (days + 719468) / 146097 = era := ⟨_, rfl⟩
  obtain ⟨doe, hdoe⟩ : ∃ doe, days + 719468 - era * 146097 = doe := ⟨_, rfl⟩
  have hfirst : 0 ≤ doe := by omega
  have hnext : doe < 146097 := by omega
  have hyear := eraYear_mem hfirst hnext
  have hbegun := first_le_of_eraYear hfirst hnext
  have hover := lt_of_eraYear hfirst hnext
  obtain ⟨doy, hdoy⟩ : ∃ doy, doe - daysBeforeYear (eraYear doe + 1) = doy := ⟨_, rfl⟩
  obtain ⟨year, hsum⟩ : ∃ year, eraYear doe + era * 400 = year := ⟨_, rfl⟩
  have hlength : doy < daysInYear (year + 1) := by
    have hsucc := daysBeforeYear_succ (eraYear doe + 1)
    rw [show eraYear doe + 1 + 1 = eraYear doe + 2 by omega] at hsucc
    rw [← hsum, show eraYear doe + era * 400 + 1 = eraYear doe + 1 + era * 400 by omega,
      daysInYear_add_eras]
    omega
  have hshort : doy < 366 := by
    unfold daysInYear at hlength
    split_ifs at hlength <;> omega
  have hmonth := monthOf_mem (show 0 ≤ doy by omega) hshort
  obtain ⟨hday, hdays, hcount⟩ := dayOf_mem (show 0 ≤ doy by omega) hlength
  refine ⟨⟨yearOf year doy, monthOf doy, dayOf doy, hmonth, hday, hdays⟩, ?_, ?_⟩
  · unfold civilDate
    rw [inI64_eq (by omega) (by omega), Option.bind_eq_bind, Option.bind_some,
      if_pos (by omega), Option.bind_some]
    simp only [Int.tdiv_eq_ediv_of_nonneg (show 0 ≤ days + 719468 by omega), hera]
    rw [inI64_eq (by omega) (by omega), Option.bind_some, hdoe,
      inI64_eq (by omega) (by omega), Option.bind_some, yearOfEra_eq hfirst hnext,
      Option.bind_some, inI64_eq (by omega) (by omega), Option.bind_some, hsum,
      inI64_eq (by omega) (by omega), Option.bind_some, dayOfYear_eq hfirst hnext, hdoy,
      Option.bind_some, monthAndDay_eq (by omega) hshort, Option.bind_eq_bind, Option.bind_some]
    dsimp only
    rw [inI64_eq (by split_ifs <;> omega) (by split_ifs <;> omega)]
    rfl
  · have heras := daysBeforeYear_add_eras (eraYear doe + 1) era
    rw [show eraYear doe + 1 + era * 400 = year + 1 by omega] at heras
    have hepoch : daysBeforeYear 1970 = 719162 := by decide
    unfold Date.toDays
    dsimp only
    omega

/-- `civil_date` counts the days of the calendar from 1970 on: it is the inverse of the number of
days before a date, and keeps the order. -/
theorem civilDate_gregorian :
    (∀ days, 0 ≤ days → days ≤ lastDay → ∃ date : Date,
      civilDate days = some (date.year, date.month, date.day) ∧ date.toDays = days) ∧
    (∀ date : Date, 0 ≤ date.toDays → date.toDays ≤ lastDay →
      civilDate date.toDays = some (date.year, date.month, date.day)) ∧
    civilDate 0 = some (1970, 1, 1) ∧
    (∀ days later, 0 ≤ days → days < later → later ≤ lastDay → ∃ date date' : Date,
      civilDate days = some (date.year, date.month, date.day) ∧
        civilDate later = some (date'.year, date'.month, date'.day) ∧ date.key < date'.key) := by
  refine ⟨fun days hlow hhigh => civilDate_eq hlow hhigh, fun date hlow hhigh => ?_, by decide,
    fun days later hlow hlt hhigh => ?_⟩
  · obtain ⟨found, hfound, hdays⟩ := civilDate_eq hlow hhigh
    rw [Date.toDays_injective hdays] at hfound
    exact hfound
  · obtain ⟨date, hdate, hdays⟩ := civilDate_eq hlow (show days ≤ lastDay by omega)
    obtain ⟨date', hdate', hlater⟩ := civilDate_eq (show 0 ≤ later by omega) hhigh
    have horder : date.toDays < date'.toDays := by omega
    exact ⟨date, date', hdate, hdate', Date.toDays_lt_iff.mp horder⟩

end RatatoskrVault
