/-
# The calendar

Days have numbers, of which 1970-01-01 has 0, and the Gregorian year, month and day of a number are computed from the
era of 400 years it is in. The number of a date is what the language's definition of a time value says: the days of the
years before, of the months before and of the month.

* `daysFromCivil_civilFromDays`: **the date of a day has its number**.
* `daysFromCivil_lt`: a later year is later.
-/
import Mathlib.Data.Int.Basic
import Mathlib.Tactic.IntervalCases

namespace AgentDesk

/-- Year, month and day of the day with a number; day 0 is 1970-01-01. -/
def civilFromDays (days : ℤ) : ℤ × ℕ × ℕ :=
  -- eras of 400 years, counted from the first of March of year 0
  let z := days + 719468
  let dayOfEra := (z % 146097).toNat
  let yearOfEra := (dayOfEra - dayOfEra / 1460 + dayOfEra / 36524 - dayOfEra / 146096) / 365
  let dayOfYear := dayOfEra - (365 * yearOfEra + yearOfEra / 4 - yearOfEra / 100)
  let m := (5 * dayOfYear + 2) / 153
  let month := if m < 10 then m + 3 else m - 9
  (z / 146097 * 400 + yearOfEra + (if month ≤ 2 then 1 else 0), month, dayOfYear - (153 * m + 2) / 5 + 1)

def leapYear (year : ℤ) : Bool := year % 4 = 0 && (year % 100 ≠ 0 || year % 400 = 0)

/-- The number of the first of January. -/
def dayFromYear (year : ℤ) : ℤ := 365 * (year - 1970) + (year - 1969) / 4 - (year - 1901) / 100 + (year - 1601) / 400

/-- The days of a year before a month; January is month 1. -/
def daysBefore (leap : Bool) (month : ℕ) : ℕ :=
  [0, 31, 59, 90, 120, 151, 181, 212, 243, 273, 304, 334].getD (month - 1) 0 + if leap && 2 < month then 1 else 0

def daysFromCivil (year : ℤ) (month day : ℕ) : ℤ := dayFromYear year + daysBefore (leapYear year) month + day - 1

/-! ### Years of an era -/

/-- The year of a day of an era. -/
def yearOfEra (doe : ℕ) : ℕ := (doe - doe / 1460 + doe / 36524 - doe / 146096) / 365

theorem yearOfEra_eq {c q s : ℕ} (hc : c ≤ 3) (hr : 1461 * q + s < 36524) (hs : s ≤ 1460) :
    yearOfEra (36524 * c + (1461 * q + s)) = 100 * c + 4 * q + min (s / 365) 3 := by
  have hera : (36524 * c + (1461 * q + s)) / 146096 = 0 := by omega
  have hcentury : (36524 * c + (1461 * q + s)) / 36524 = c := by omega
  have hcycle : (36524 * c + (1461 * q + s)) / 1460 = 25 * c + q + (24 * c + q + s) / 1460 := by omega
  rw [yearOfEra, hera, hcentury, hcycle]
  omega

theorem yearOfEra_spec {doe : ℕ} (h : doe < 146097) : yearOfEra doe ≤ 399 ∧
    365 * yearOfEra doe + yearOfEra doe / 4 - yearOfEra doe / 100 ≤ doe ∧
      doe ≤ 365 * yearOfEra doe + yearOfEra doe / 4 - yearOfEra doe / 100 + 365 := by
  by_cases hlast : doe = 146096
  · subst hlast
    decide
  · have hsplit : doe = 36524 * (doe / 36524) + (1461 * (doe % 36524 / 1461) + doe % 36524 % 1461) := by omega
    have hyear : yearOfEra (36524 * (doe / 36524) + (1461 * (doe % 36524 / 1461) + doe % 36524 % 1461)) =
        100 * (doe / 36524) + 4 * (doe % 36524 / 1461) + min (doe % 36524 % 1461 / 365) 3 :=
      yearOfEra_eq (by omega) (by omega) (by omega)
    rw [← hsplit] at hyear
    have hquarter : yearOfEra doe / 4 = 25 * (doe / 36524) + doe % 36524 / 1461 := by omega
    have hhundred : yearOfEra doe / 100 = doe / 36524 := by omega
    omega

/-! ### Dates -/

def leapDay (year : ℤ) : ℕ := if leapYear year then 1 else 0

theorem dayFromYear_succ (year : ℤ) : dayFromYear (year + 1) = dayFromYear year + 365 + leapDay year := by
  unfold dayFromYear leapDay leapYear
  split
  · rename_i hleap
    simp only [Bool.and_eq_true, Bool.or_eq_true, decide_eq_true_eq] at hleap
    omega
  · rename_i hleap
    simp only [Bool.and_eq_true, Bool.or_eq_true, decide_eq_true_eq, not_and, not_or, not_not] at hleap
    omega

theorem march_first (era : ℤ) {yoe : ℕ} (hyoe : yoe ≤ 399) :
    dayFromYear (era * 400 + yoe) + 59 + leapDay (era * 400 + yoe) =
      era * 146097 + (365 * yoe + yoe / 4 - yoe / 100 : ℕ) - 719468 := by
  unfold dayFromYear leapDay leapYear
  split
  · rename_i hleap
    simp only [Bool.and_eq_true, Bool.or_eq_true, decide_eq_true_eq] at hleap
    omega
  · rename_i hleap
    simp only [Bool.and_eq_true, Bool.or_eq_true, decide_eq_true_eq, not_and, not_or, not_not] at hleap
    omega

theorem daysBefore_eq (year : ℤ) {month : ℕ} (hmonth : 2 < month) :
    daysBefore (leapYear year) month = daysBefore false month + leapDay year := by
  unfold daysBefore leapDay
  simp [hmonth]

theorem daysBefore_march {m : ℕ} (hm : m < 10) : daysBefore false (m + 3) = 59 + (153 * m + 2) / 5 := by
  interval_cases m <;> rfl

/-- **The date of a day has its number.** -/
theorem daysFromCivil_civilFromDays (n : ℤ) :
    daysFromCivil (civilFromDays n).1 (civilFromDays n).2.1 (civilFromDays n).2.2 = n := by
  have hdoe : ((n + 719468) % 146097).toNat < 146097 := by omega
  have hera : ((n + 719468) / 146097) * 146097 + ((n + 719468) % 146097).toNat = n + 719468 := by omega
  obtain ⟨hyoe, hlow, hhigh⟩ := yearOfEra_spec hdoe
  generalize hday : ((n + 719468) % 146097).toNat = doe at hdoe hera hyoe hlow hhigh
  generalize hround : (n + 719468) / 146097 = era at hera
  have hmarch := march_first era hyoe
  have hnext := dayFromYear_succ (era * 400 + yearOfEra doe)
  have hcivil : civilFromDays n =
      (let doy := doe - (365 * yearOfEra doe + yearOfEra doe / 4 - yearOfEra doe / 100)
       let m := (5 * doy + 2) / 153
       let month := if m < 10 then m + 3 else m - 9
       (era * 400 + yearOfEra doe + (if month ≤ 2 then 1 else 0), month, doy - (153 * m + 2) / 5 + 1)) := by
    rw [civilFromDays, hday, hround]
    rfl
  generalize hyear : yearOfEra doe = yoe at hyoe hlow hhigh hmarch hnext hcivil
  generalize hstart : 365 * yoe + yoe / 4 - yoe / 100 = start at hlow hhigh hmarch hcivil
  rw [hcivil]
  dsimp only
  have hm : (5 * (doe - start) + 2) / 153 ≤ 11 := by omega
  have hback : (153 * ((5 * (doe - start) + 2) / 153) + 2) / 5 ≤ doe - start := by omega
  generalize hmonth : (5 * (doe - start) + 2) / 153 = m at hm hback
  by_cases hspring : m < 10
  · have hlate : ¬ m + 3 ≤ 2 := by omega
    rw [if_pos hspring, if_neg hlate, daysFromCivil, daysBefore_eq _ (by omega), daysBefore_march hspring]
    simp only [add_zero]
    omega
  · obtain rfl | rfl : m = 10 ∨ m = 11 := by omega
    · have hjanuary : daysBefore (leapYear (era * 400 + yoe + 1)) 1 = 0 := by simp [daysBefore]
      simp only [Nat.reduceLT, if_false, Nat.reduceSub, Nat.reduceLeDiff, if_true, daysFromCivil, hjanuary]
      omega
    · have hfebruary : daysBefore (leapYear (era * 400 + yoe + 1)) 2 = 31 := by simp [daysBefore]
      simp only [Nat.reduceLT, if_false, Nat.reduceSub, Nat.reduceLeDiff, if_true, daysFromCivil, hfebruary]
      omega

/-- A later year is later. -/
theorem daysFromCivil_lt {year year' : ℤ} (h : year < year') (month day : ℕ) :
    daysFromCivil year month day < daysFromCivil year' month day := by
  have hyears : dayFromYear year + 365 ≤ dayFromYear year' := by
    unfold dayFromYear
    omega
  have hbefore : ∀ leap, daysBefore leap month ≤ daysBefore false month + 1 ∧
      daysBefore false month ≤ daysBefore leap month := by
    intro leap
    unfold daysBefore
    constructor
    · split <;> simp
    · simp
  have hfirst := hbefore (leapYear year)
  have hsecond := hbefore (leapYear year')
  unfold daysFromCivil
  omega

end AgentDesk
