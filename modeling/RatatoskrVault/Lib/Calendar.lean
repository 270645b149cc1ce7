import Mathlib.Algebra.Order.Ring.Int
import Mathlib.Data.Prod.Lex
import Mathlib.Tactic.IntervalCases

/-! The Gregorian calendar, extended to every year: its dates, in their order, and the number of
days to each of them. -/
namespace RatatoskrVault.Lib.Calendar

def IsLeap (year : ℤ) : Prop := 4 ∣ year ∧ (¬ 100 ∣ year ∨ 400 ∣ year)

instance (year : ℤ) : Decidable (IsLeap year) := by
  unfold IsLeap
  infer_instance

def daysInMonth (year month : ℤ) : ℤ :=
  if month = 2 then if IsLeap year then 29 else 28
  else if month = 4 ∨ month = 6 ∨ month = 9 ∨ month = 11 then 30
  else 31

def daysInYear (year : ℤ) : ℤ := if IsLeap year then 366 else 365

/-- A day of the calendar. -/
structure Date where
  year : ℤ
  month : ℤ
  day : ℤ
  month_mem : 1 ≤ month ∧ month ≤ 12
  day_mem : 1 ≤ day ∧ day ≤ daysInMonth year month

/-- Year, month and day, compared in this order. -/
def Date.key (date : Date) : ℤ ×ₗ ℤ ×ₗ ℤ := toLex (date.year, toLex (date.month, date.day))

/-- The days from the first day of the year 1 to that of another year. -/
def daysBeforeYear (year : ℤ) : ℤ :=
  365 * (year - 1) + (year - 1) / 4 - (year - 1) / 100 + (year - 1) / 400

/-- The days of a year before a month. -/
def daysBeforeMonth (year month : ℤ) : ℤ :=
  (367 * month - 362) / 12 - if month ≤ 2 then 0 else if IsLeap year then 1 else 2

/-- The days from the first day of 1970. -/
def Date.toDays (date : Date) : ℤ :=
  daysBeforeYear date.year + daysBeforeMonth date.year date.month + date.day - 1
    - daysBeforeYear 1970

theorem daysBeforeYear_succ (year : ℤ) :
    daysBeforeYear (year + 1) = daysBeforeYear year + daysInYear year := by
  unfold daysBeforeYear daysInYear IsLeap
  split_ifs <;> omega

theorem daysBeforeYear_mono {year year' : ℤ} (h : year ≤ year') :
    daysBeforeYear year ≤ daysBeforeYear year' := by
  unfold daysBeforeYear
  omega

/-- The calendar repeats itself after 400 years. -/
theorem daysBeforeYear_add_eras (year era : ℤ) :
    daysBeforeYear (year + era * 400) = daysBeforeYear year + era * 146097 := by
  unfold daysBeforeYear
  omega

theorem daysInYear_add_eras (year era : ℤ) :
    daysInYear (year + era * 400) = daysInYear year := by
  have hhere := daysBeforeYear_succ year
  have hlater := daysBeforeYear_succ (year + era * 400)
  rw [daysBeforeYear_add_eras, show year + era * 400 + 1 = year + 1 + era * 400 by omega,
    daysBeforeYear_add_eras] at hlater
  omega

theorem daysBeforeMonth_succ (year : ℤ) {month : ℤ} (hfirst : 1 ≤ month) (hlast : month ≤ 11) :
    daysBeforeMonth year (month + 1) = daysBeforeMonth year month + daysInMonth year month := by
  unfold daysBeforeMonth daysInMonth
  by_cases hleap : IsLeap year
  · simp only [if_pos hleap]
    interval_cases month <;> decide
  · simp only [if_neg hleap]
    interval_cases month <;> decide

theorem daysBeforeMonth_december (year : ℤ) :
    daysBeforeMonth year 12 + daysInMonth year 12 = daysInYear year := by
  unfold daysBeforeMonth daysInMonth daysInYear
  split_ifs <;> omega

theorem daysInMonth_pos (year month : ℤ) : 1 ≤ daysInMonth year month := by
  unfold daysInMonth
  split_ifs <;> omega

theorem daysBeforeMonth_lt (year : ℤ) {month month' : ℤ} (hfirst : 1 ≤ month)
    (hlt : month < month') (hlast : month' ≤ 12) :
    daysBeforeMonth year month + daysInMonth year month ≤ daysBeforeMonth year month' := by
  induction month', (show month + 1 ≤ month' from hlt) using Int.leInduction with
  | base => exact (daysBeforeMonth_succ year hfirst (by omega)).ge
  | succ later hlater ih =>
    have hbefore := ih (by omega) (by omega)
    have hnext := daysBeforeMonth_succ year (show 1 ≤ later by omega) (by omega)
    have hpos := daysInMonth_pos year later
    omega

/-- A day lies in its year. -/
theorem Date.day_of_year (date : Date) :
    0 ≤ daysBeforeMonth date.year date.month + date.day - 1 ∧
      daysBeforeMonth date.year date.month + date.day ≤ daysInYear date.year := by
  obtain ⟨hfirst, hlast⟩ := date.month_mem
  obtain ⟨hday, hmonth⟩ := date.day_mem
  have hjanuary : 0 ≤ daysBeforeMonth date.year date.month := by
    unfold daysBeforeMonth
    split_ifs <;> omega
  have hdecember := daysBeforeMonth_december date.year
  constructor
  · omega
  · by_cases heq : date.month = 12
    · rw [heq] at hmonth ⊢
      omega
    · have hbefore := daysBeforeMonth_lt date.year hfirst
        (show date.month < 12 by omega) le_rfl
      have hpos := daysInMonth_pos date.year 12
      omega

/-- A later date has more days before it. -/
theorem Date.toDays_lt {a b : Date} (h : a.key < b.key) : a.toDays < b.toDays := by
  have ha := a.day_of_year
  have hb := b.day_of_year
  unfold toDays
  rcases Prod.Lex.lt_iff.mp h with hyear | ⟨hyear, hrest⟩
  · have hnext := daysBeforeYear_succ a.year
    have hmono := daysBeforeYear_mono (show a.year + 1 ≤ b.year from hyear)
    omega
  · have hsame : a.year = b.year := hyear
    rcases Prod.Lex.lt_iff.mp hrest with hmonth | ⟨hmonth, hday⟩
    · have hmonth' : a.month < b.month := hmonth
      have hbefore := daysBeforeMonth_lt b.year a.month_mem.1 hmonth' b.month_mem.2
      have hlast := a.day_mem.2
      have hfirst := b.day_mem.1
      rw [hsame] at hlast ⊢
      omega
    · have hmonth' : a.month = b.month := hmonth
      have hday' : a.day < b.day := hday
      rw [hsame, hmonth']
      omega

theorem Date.key_injective : Function.Injective Date.key := by
  rintro ⟨year, month, day, hmonth, hday⟩ ⟨year', month', day', hmonth', hday'⟩ h
  have hyear : year = year' := congrArg (fun k => (ofLex k).1) h
  have hm : month = month' := congrArg (fun k => (ofLex (ofLex k).2).1) h
  have hd : day = day' := congrArg (fun k => (ofLex (ofLex k).2).2) h
  subst hyear hm hd
  rfl

theorem Date.toDays_lt_iff {a b : Date} : a.toDays < b.toDays ↔ a.key < b.key := by
  refine ⟨fun h => ?_, toDays_lt⟩
  by_contra hnot
  rcases lt_or_eq_of_le (not_lt.mp hnot) with hlt | heq
  · exact absurd (toDays_lt hlt) (by omega)
  · rw [key_injective heq] at h
    omega

theorem Date.toDays_injective : Function.Injective Date.toDays := by
  intro a b h
  apply key_injective
  apply le_antisymm
  · exact not_lt.mp fun hlt => by have := toDays_lt hlt; omega
  · exact not_lt.mp fun hlt => by have := toDays_lt hlt; omega

end RatatoskrVault.Lib.Calendar
