/-
The date of the hardware report.  A closed formula over eras of 400 years turns a count of
days into a date.
-/
import Wiiland.Core.Arithmetic
import Wiiland.Lib.Gregorian

namespace Wiiland

namespace Daemon

namespace Report

open Gregorian

/-- The years since the start of an era, of a day of it. -/
def yearOfEra (doe : Int) : Int :=
  (doe - doe.tdiv 1460 + doe.tdiv 36524 - doe.tdiv 146096).tdiv 365

/-- The day of a year that begins in March, of a day of its era. -/
def dayOfYear (doe : Int) : Int :=
  doe - (365 * yearOfEra doe + (yearOfEra doe).tdiv 4 - (yearOfEra doe).tdiv 100)

/-- The months since March, of a day of the year. -/
def monthOfYear (doy : Int) : Int := (5 * doy + 2).tdiv 153

def eraOf (z : Int) : Int := (if 0 ≤ z then z else z - 146096).tdiv 146097

/-- The formula in exact arithmetic. -/
def civilDate (days : Int) : Date :=
  let z := days + 719468
  let era := eraOf z
  let doe := z - era * 146097
  let y := yearOfEra doe + era * 400
  let doy := dayOfYear doe
  let mp := monthOfYear doy
  let d := doy - (153 * mp + 2).tdiv 5 + 1
  let m := mp + if mp < 10 then 3 else -9
  ⟨y + if m ≤ 2 then 1 else 0, m, d⟩

/-- The exact results of the 64-bit operations of the formula. -/
def civilFromDaysOps (days : Int) : List Operation :=
  let z := days + 719468
  let era := eraOf z
  let doe := z - era * 146097
  let yoe := yearOfEra doe
  let doy := dayOfYear doe
  let mp := monthOfYear doy
  let d := doy - (153 * mp + 2).tdiv 5 + 1
  let m := mp + if mp < 10 then 3 else -9
  (if 0 ≤ z then [] else [.i64 (z - 146096)]) ++
    [.i64 z, .i64 (era * 146097), .i64 doe, .i64 (doe - doe.tdiv 1460),
      .i64 (doe - doe.tdiv 1460 + doe.tdiv 36524),
      .i64 (doe - doe.tdiv 1460 + doe.tdiv 36524 - doe.tdiv 146096),
      .i64 (era * 400), .i64 (yoe + era * 400), .i64 (365 * yoe), .i64 (365 * yoe + yoe.tdiv 4),
      .i64 (365 * yoe + yoe.tdiv 4 - yoe.tdiv 100), .i64 doy, .i64 (5 * doy), .i64 (5 * doy + 2),
      .i64 (153 * mp), .i64 (153 * mp + 2), .i64 (doy - (153 * mp + 2).tdiv 5), .i64 d, .i64 m,
      .i64 (yoe + era * 400 + if m ≤ 2 then 1 else 0)]

/-- The date of a day, unless the arithmetic overflows. -/
def civilFromDays (days : Int) : Option Date :=
  if Exact (civilFromDaysOps days) then some (civilDate days) else none

/-- The quotient is rounded down on both sides of zero. -/
theorem eraOf_eq (z : Int) : eraOf z = z / 146097 := by
  rw [eraOf]
  split
  · next hsign => exact Int.tdiv_eq_ediv_of_nonneg hsign
  · next hsign =>
    have hmirror : (z - 146096).tdiv 146097 = -((146096 - z) / 146097) := by
      rw [← Int.tdiv_eq_ediv_of_nonneg (by omega), ← Int.neg_tdiv, neg_sub]
    rw [hmirror]
    omega

/-- A day of an era, split into centuries, leap cycles, years and days. -/
theorem yearOfEra_eq {century cycle year day doe : Int} (hcentury : 0 ≤ century ∧ century ≤ 3)
    (hcycle : 0 ≤ cycle ∧ cycle ≤ 24) (hyear : 0 ≤ year ∧ year ≤ 3) (hday : 0 ≤ day ∧ day ≤ 365)
    (hleap : day = 365 → year = 3 ∧ (cycle < 24 ∨ century = 3))
    (hdoe : doe = 36524 * century + 1461 * cycle + 365 * year + day) :
    yearOfEra doe = 100 * century + 4 * cycle + year := by
  have hleaps : doe / 1460 = 25 * century + cycle +
      (24 * century + cycle + 365 * year + day) / 1460 := by omega
  have heras : doe / 146096 = if doe = 146096 then 1 else 0 := by
    split <;> omega
  have hcenturies : doe / 36524 = century + if doe = 146096 then 1 else 0 := by
    split <;> omega
  have hyears : doe - doe / 1460 + doe / 36524 - doe / 146096 =
      365 * (100 * century + 4 * cycle + year) +
        (day - (24 * century + cycle + 365 * year + day) / 1460) := by omega
  have hnonneg : 0 ≤ doe := by omega
  rw [yearOfEra, Int.tdiv_eq_ediv_of_nonneg hnonneg, Int.tdiv_eq_ediv_of_nonneg hnonneg,
    Int.tdiv_eq_ediv_of_nonneg hnonneg, hyears, Int.tdiv_eq_ediv_of_nonneg (by omega)]
  omega

/-- The formula finds the month that a day of the year is in. -/
theorem monthOfYear_eq {months day : Int} (hmonths : 0 ≤ months ∧ months ≤ 11) (hday : 1 ≤ day)
    (hlast : day ≤ if months = 11 then 29 else
      Date.monthStart (months + 1) - Date.monthStart months) :
    monthOfYear (Date.monthStart months + day - 1) = months := by
  rw [Date.monthStart] at hlast ⊢
  rw [monthOfYear, Int.tdiv_eq_ediv_of_nonneg (by omega)]
  split at hlast
  · omega
  · rw [Date.monthStart] at hlast
    omega

/-- What the formula computes step by step, of a day of a year that began in March. -/
structure Steps (days year day months : Int) : Prop where
  era : eraOf (days + 719468) = year / 400
  doe : 0 ≤ days + 719468 - year / 400 * 146097 ∧
    days + 719468 - year / 400 * 146097 < 146097
  yoe : yearOfEra (days + 719468 - year / 400 * 146097) = year % 400
  doy : dayOfYear (days + 719468 - year / 400 * 146097) = day
  mp : monthOfYear day = months

theorem day_bounds {date : Date} (hvalid : date.Valid) :
    0 ≤ date.marchDay ∧ date.marchDay ≤ 365 := by
  obtain ⟨hmonths, hlast, _⟩ := Date.march_bounds hvalid
  have hfirst := hvalid.day.1
  rw [Date.marchDay]
  simp only [Date.monthStart] at hlast ⊢
  split at hlast <;> omega

theorem steps_dayNumber {date : Date} (hvalid : date.Valid) :
    Steps date.dayNumber date.marchYear date.marchDay date.marchMonth := by
  obtain ⟨hmonths, hlast, hleap⟩ := Date.march_bounds hvalid
  have hfirst := hvalid.day.1
  have hday := day_bounds hvalid
  have hmp : monthOfYear date.marchDay = date.marchMonth := monthOfYear_eq hmonths hfirst hlast
  rw [IsLeap] at hleap
  have hyears : date.dayNumber + 719468 = Date.yearStart date.marchYear + date.marchDay := by
    rw [Date.dayNumber]
    omega
  rw [Date.yearStart] at hyears
  generalize date.marchYear = year at *
  generalize date.marchDay = day at *
  have hdoe : date.dayNumber + 719468 - year / 400 * 146097 =
      36524 * (year % 400 / 100) + 1461 * (year % 100 / 4) + 365 * (year % 4) + day := by
    omega
  have hyoe := yearOfEra_eq (by omega) (by omega) (by omega) hday (by omega) hdoe
  have hyear : 100 * (year % 400 / 100) + 4 * (year % 100 / 4) + year % 4 = year % 400 := by omega
  rw [hyear] at hyoe
  refine ⟨?_, ?_, hyoe, ?_, hmp⟩
  · rw [eraOf_eq]
    omega
  · omega
  · rw [dayOfYear, hyoe, Int.tdiv_eq_ediv_of_nonneg (by omega),
      Int.tdiv_eq_ediv_of_nonneg (by omega), hdoe]
    omega

/-- The formula finds the date of every day. -/
theorem civilDate_dayNumber {date : Date} (hvalid : date.Valid) :
    civilDate date.dayNumber = date := by
  obtain ⟨hera, _, hyoe, hdoy, hmp⟩ := steps_dayNumber hvalid
  obtain ⟨hmonths, _⟩ := Date.march_bounds hvalid
  obtain ⟨hmonth, _⟩ := hvalid
  have hmonth : (date.marchMonth + if date.marchMonth < 10 then 3 else -9) = date.month := by
    rw [Date.marchMonth]
    split <;> split <;> omega
  have hday : date.marchDay - (153 * date.marchMonth + 2).tdiv 5 + 1 = date.day := by
    rw [Date.marchDay, Date.monthStart, Int.tdiv_eq_ediv_of_nonneg (by omega)]
    omega
  have hyear : date.marchYear % 400 + date.marchYear / 400 * 400 +
      (if date.month ≤ 2 then 1 else 0) = date.year := by
    rw [Int.emod_add_ediv_mul, Date.marchYear]
    split <;> omega
  rw [civilDate]
  simp only [hera, hyoe, hdoy, hmp, hmonth, hday, hyear]

/-- The date of every day is valid, and the date of the next day is the next date. -/
theorem civilDate_spec (days : Int) :
    (civilDate days).Valid ∧ civilDate (days + 1) = (civilDate days).next := by
  obtain ⟨date, hvalid, rfl⟩ := Date.exists_valid days
  rw [← Date.dayNumber_next hvalid, civilDate_dayNumber hvalid,
    civilDate_dayNumber (Date.valid_next hvalid)]
  exact ⟨hvalid, rfl⟩

/-- The arithmetic overflows only at the ends of the 64-bit range. -/
theorem exact_civilFromDaysOps (days : Int) :
    Exact (civilFromDaysOps days) ↔
      -9223372036854775808 + 146096 ≤ days + 719468 ∧ days + 719468 ≤ 9223372036854775807 := by
  obtain ⟨date, hvalid, rfl⟩ := Date.exists_valid days
  obtain ⟨hera, hdoe, hyoe, hdoy, hmp⟩ := steps_dayNumber hvalid
  obtain ⟨hmonths, _⟩ := Date.march_bounds hvalid
  have hday := day_bounds hvalid
  have hyear := Int.emod_nonneg date.marchYear (by decide : (400 : Int) ≠ 0)
  have hless := Int.emod_lt_of_pos date.marchYear (by decide : (0 : Int) < 400)
  rw [civilFromDaysOps]
  simp only [hera, hyoe, hdoy, hmp]
  generalize date.dayNumber + 719468 = z at *
  generalize date.marchYear / 400 = era at *
  generalize date.marchYear % 400 = yoe at *
  generalize hrest : z - era * 146097 = doe at *
  have hdoeNonneg := hdoe.1
  simp only [Int.tdiv_eq_ediv_of_nonneg hdoeNonneg, Int.tdiv_eq_ediv_of_nonneg hyear,
    Int.tdiv_eq_ediv_of_nonneg (by omega : 0 ≤ 153 * date.marchMonth + 2)]
  generalize date.marchMonth = mp at *
  generalize date.marchDay = doy at *
  by_cases hsign : 0 ≤ z
  · simp only [if_pos hsign, exact_append, exact_cons, exact_nil, fits_i64, and_true, true_and,
      Wrap.IsI64]
    constructor
    · intro hexact
      exact ⟨by omega, hexact.1.2⟩
    · intro hrange
      omega
  · simp only [if_neg hsign, exact_append, exact_cons, exact_nil, fits_i64, and_true, Wrap.IsI64]
    constructor
    · intro hexact
      exact ⟨by linarith only [hexact.1.1], hexact.2.1.2⟩
    · intro hrange
      omega

/-- The dates follow the Gregorian calendar. -/
theorem civilFromDays_calendar :
    civilFromDays 0 = some ⟨1970, 1, 1⟩ ∧
    ∀ days date, civilFromDays days = some date → date.Valid ∧
      ∀ following, civilFromDays (days + 1) = some following → following = date.next := by
  have hexact : ∀ {days date}, civilFromDays days = some date → date = civilDate days := by
    intro days date hdate
    rw [civilFromDays] at hdate
    split at hdate
    · exact (Option.some.inj hdate).symm
    · cases hdate
  refine ⟨?_, fun days date hdate => ?_⟩
  · rw [civilFromDays, if_pos ((exact_civilFromDaysOps 0).mpr (by decide))]
    exact congrArg some (@civilDate_dayNumber ⟨1970, 1, 1⟩ ⟨by decide, by decide⟩)
  · obtain ⟨hvalid, hnext⟩ := civilDate_spec days
    rw [hexact hdate]
    exact ⟨hvalid, fun following hfollowing => (hexact hfollowing).trans hnext⟩

/-- The leap day of the year 2000 and the day after it. -/
theorem civilFromDays_calendar_leap :
    civilFromDays 11016 = some ⟨2000, 2, 29⟩ ∧ Date.Valid ⟨2000, 2, 29⟩ ∧
      (⟨2000, 3, 1⟩ : Date) = Date.next ⟨2000, 2, 29⟩ := by
  have hleap : civilFromDays 11016 = some ⟨2000, 2, 29⟩ := by decide
  obtain ⟨hvalid, hnext⟩ := civilFromDays_calendar.2 11016 ⟨2000, 2, 29⟩ hleap
  exact ⟨hleap, hvalid, hnext ⟨2000, 3, 1⟩ (by decide)⟩

end Report

end Daemon

end Wiiland
