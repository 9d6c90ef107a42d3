/-
The proleptic Gregorian calendar.  Dates are counted in days from 1970-01-01 through years
that begin in March, so that the leap day is the last of its year.
-/
import Mathlib.Data.Int.Basic
import Mathlib.Tactic.IntervalCases

namespace Gregorian

structure Date where
  year : Int
  month : Int
  day : Int
deriving DecidableEq, Repr

/-- A leap year is divisible by 4 and not by 100, or divisible by 400. -/
def IsLeap (year : Int) : Prop := year % 4 = 0 ∧ year % 100 ≠ 0 ∨ year % 400 = 0

instance (year : Int) : Decidable (IsLeap year) := inferInstanceAs (Decidable (_ ∨ _))

def daysInMonth (year month : Int) : Int :=
  if month = 2 then if IsLeap year then 29 else 28
  else if month = 4 ∨ month = 6 ∨ month = 9 ∨ month = 11 then 30
  else 31

namespace Date

structure Valid (date : Date) : Prop where
  month : 1 ≤ date.month ∧ date.month ≤ 12
  day : 1 ≤ date.day ∧ date.day ≤ daysInMonth date.year date.month

/-- The day after a date. -/
def next (date : Date) : Date :=
  if date.day < daysInMonth date.year date.month then ⟨date.year, date.month, date.day + 1⟩
  else if date.month < 12 then ⟨date.year, date.month + 1, 1⟩
  else ⟨date.year + 1, 1, 1⟩

/-- The day before a date. -/
def previous (date : Date) : Date :=
  if 1 < date.day then ⟨date.year, date.month, date.day - 1⟩
  else if 1 < date.month then
    ⟨date.year, date.month - 1, daysInMonth date.year (date.month - 1)⟩
  else ⟨date.year - 1, 12, 31⟩

/-- The year that began in the last March. -/
def marchYear (date : Date) : Int := if date.month ≤ 2 then date.year - 1 else date.year

/-- The months since the last March. -/
def marchMonth (date : Date) : Int := if date.month ≤ 2 then date.month + 9 else date.month - 3

/-- The days from the first of March to the first of a later month. -/
def monthStart (months : Int) : Int := (153 * months + 2) / 5

/-- The days since the last first of March. -/
def marchDay (date : Date) : Int := monthStart date.marchMonth + date.day - 1

/-- The days from the March of year 0 to the March of another year. -/
def yearStart (year : Int) : Int := 365 * year + year / 4 - year / 100 + year / 400

/-- The days since 1970-01-01. -/
def dayNumber (date : Date) : Int := yearStart date.marchYear + date.marchDay - 719468

variable {date : Date}

theorem daysInMonth_pos (year month : Int) : 28 ≤ daysInMonth year month := by
  rw [daysInMonth]
  split <;> split <;> decide

theorem valid_next (hvalid : date.Valid) : date.next.Valid := by
  obtain ⟨hmonth, hday⟩ := hvalid
  rw [next]
  split
  · next hwithin => exact ⟨hmonth, by simp only; omega⟩
  · split
    · next hwithin =>
      have hlength := daysInMonth_pos date.year (date.month + 1)
      exact ⟨by simp only; omega, by simp only; omega⟩
    · have hlength := daysInMonth_pos (date.year + 1) 1
      exact ⟨by simp only; omega, by simp only; omega⟩

theorem valid_previous (hvalid : date.Valid) : date.previous.Valid := by
  obtain ⟨hmonth, hday⟩ := hvalid
  rw [previous]
  split
  · exact ⟨hmonth, by simp only; omega⟩
  · split
    · have hlength := daysInMonth_pos date.year (date.month - 1)
      exact ⟨by simp only; omega, by simp only; omega⟩
    · exact ⟨by simp only; omega, (by decide : (1 : Int) ≤ 31), le_rfl⟩

/-- A month other than February ends where the next one starts. -/
theorem daysInMonth_eq (year : Int) {month : Int} (hmonth : 1 ≤ month ∧ month ≤ 12)
    (hother : month ≠ 2) : daysInMonth year month =
      monthStart ((if month ≤ 2 then month + 9 else month - 3) + 1) -
        monthStart (if month ≤ 2 then month + 9 else month - 3) := by
  obtain ⟨hleast, hgreatest⟩ := hmonth
  rw [daysInMonth, if_neg hother]
  interval_cases month
  all_goals first | rfl | exact absurd rfl hother

/-- A year that begins in March ends with the February of the next. -/
theorem yearStart_succ (year : Int) :
    yearStart year = yearStart (year - 1) + monthStart 11 + daysInMonth year 2 := by
  have hstart : monthStart 11 = 337 := by decide
  rw [hstart, yearStart, yearStart, daysInMonth, if_pos rfl]
  split
  · next hleap =>
    rw [IsLeap] at hleap
    omega
  · next hleap =>
    rw [IsLeap] at hleap
    omega

/-- The number of the next date is the next number. -/
theorem dayNumber_next (hvalid : date.Valid) : date.next.dayNumber = date.dayNumber + 1 := by
  obtain ⟨hmonth, hday⟩ := hvalid
  obtain ⟨year, month, day⟩ := date
  simp only at hmonth hday
  rw [next]
  split
  · simp only [dayNumber, marchYear, marchMonth, marchDay]
    omega
  · next hlast =>
    have hlength : day = daysInMonth year month := le_antisymm hday.2 (not_lt.mp hlast)
    split
    · next hmore =>
      rcases lt_trichotomy month 2 with hjanuary | rfl | hlater
      · obtain rfl : month = 1 := by omega
        change yearStart (year - 1) + (monthStart 11 + 1 - 1) - 719468 =
          yearStart (year - 1) + (monthStart 10 + day - 1) - 719468 + 1
        have hdays : daysInMonth year 1 = 31 := rfl
        have hmonths : monthStart 11 = monthStart 10 + 31 := by decide
        omega
      · have hyear := yearStart_succ year
        change yearStart year + (0 + 1 - 1) - 719468 =
          yearStart (year - 1) + (monthStart 11 + day - 1) - 719468 + 1
        omega
      · rw [daysInMonth_eq year hmonth hlater.ne', if_neg (by omega)] at hlength
        simp only [dayNumber, marchYear, marchMonth, marchDay]
        rw [if_neg (by omega), if_neg (by omega), if_neg (by omega), if_neg (by omega),
          show month + 1 - 3 = month - 3 + 1 by omega]
        omega
    · next hlatest =>
      obtain rfl : month = 12 := le_antisymm hmonth.2 (not_lt.mp hlatest)
      change yearStart (year + 1 - 1) + (monthStart 10 + 1 - 1) - 719468 =
        yearStart year + (monthStart 9 + day - 1) - 719468 + 1
      have hdays : daysInMonth year 12 = 31 := rfl
      have hmonths : monthStart 10 = monthStart 9 + 31 := by decide
      rw [add_sub_cancel_right]
      omega

/-- A date is the day after the day before it. -/
theorem next_previous (hvalid : date.Valid) : date.previous.next = date := by
  obtain ⟨hmonth, hday⟩ := hvalid
  obtain ⟨year, month, day⟩ := date
  simp only at hmonth hday
  rw [previous]
  split
  · next hlater =>
    rw [next, if_pos (by simp only; omega)]
    simp only [sub_add_cancel]
  · next hfirst =>
    obtain rfl : day = 1 := le_antisymm (not_lt.mp hfirst) hday.1
    split
    · next hmonths =>
      rw [next, if_neg (lt_irrefl _), if_pos (by simp only; omega)]
      simp only [sub_add_cancel]
    · next honly =>
      obtain rfl : month = 1 := le_antisymm (not_lt.mp honly) hmonth.1
      have hlast : next ⟨year - 1, 12, 31⟩ = ⟨year - 1 + 1, 1, 1⟩ := rfl
      rw [sub_add_cancel] at hlast
      exact hlast

/-- Every day has a valid date. -/
theorem exists_valid (number : Int) : ∃ date : Date, date.Valid ∧ date.dayNumber = number := by
  induction number using Int.induction_on with
  | zero => exact ⟨⟨1970, 1, 1⟩, ⟨by decide, by decide⟩, by decide⟩
  | succ number ih =>
      obtain ⟨date, hvalid, hnumber⟩ := ih
      exact ⟨date.next, valid_next hvalid, by rw [dayNumber_next hvalid, hnumber]⟩
  | pred number ih =>
      obtain ⟨date, hvalid, hnumber⟩ := ih
      have hnext := dayNumber_next (valid_previous hvalid)
      rw [next_previous hvalid, hnumber] at hnext
      exact ⟨date.previous, valid_previous hvalid, by omega⟩

/-- Where a date is in the year that began in March. -/
theorem march_bounds (hvalid : date.Valid) :
    (0 ≤ date.marchMonth ∧ date.marchMonth ≤ 11) ∧
      date.day ≤ (if date.marchMonth = 11 then 29 else
        monthStart (date.marchMonth + 1) - monthStart date.marchMonth) ∧
      (date.marchDay = 365 → IsLeap (date.marchYear + 1)) := by
  obtain ⟨hmonth, hday⟩ := hvalid
  obtain ⟨year, month, day⟩ := date
  simp only at hmonth hday
  by_cases hfebruary : month = 2
  · subst hfebruary
    change (0 ≤ 11 ∧ 11 ≤ 11) ∧ day ≤ 29 ∧
      (monthStart 11 + day - 1 = 365 → IsLeap (year - 1 + 1))
    have hstart : monthStart 11 = 337 := by decide
    rw [daysInMonth, if_pos rfl] at hday
    rw [hstart, sub_add_cancel]
    split at hday
    · next hleap => exact ⟨by decide, hday.2, fun _ => hleap⟩
    · exact ⟨by decide, by omega, fun hlast => by omega⟩
  · rw [daysInMonth_eq year hmonth hfebruary] at hday
    simp only [marchYear, marchMonth, marchDay]
    generalize hmonths : (if month ≤ 2 then month + 9 else month - 3) = months at hday
    have hrange : 0 ≤ months ∧ months < 11 := by
      rw [← hmonths]
      split <;> omega
    refine ⟨by omega, ?_, fun hlast => ?_⟩
    · rw [if_neg (by omega)]
      exact hday.2
    · have hend : monthStart (months + 1) ≤ 337 := by
        rw [monthStart]
        omega
      omega

end Date

end Gregorian
