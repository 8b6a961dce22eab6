import Mathlib.Tactic.IntervalCases
import Specimen.Format.Calendar

/-!
# Days and their dates

The date of a day is a date of the calendar, and the day is found again from it. The days of an era
are taken apart into centuries, groups of four years, years and days; every division by which a date
is found falls into place on these parts.
-/

namespace Specimen

namespace Calendar

/-- A day of an era of 400 years: its century, its four years in the century, its year among these
and its day of the year. Years start in March, so that only the last of four has a leap day, which
three of the four centuries leave out at their end. -/
structure EraDay where
  century : Nat
  quad : Nat
  year : Nat
  day : Nat
  century_lt : century < 4
  quad_lt : quad < 25
  year_lt : year < 4
  day_lt : day < 365 ∨ day = 365 ∧ year = 3 ∧ (quad < 24 ∨ century = 3)

namespace EraDay

/-- The number of the day in its era. -/
def number (d : EraDay) : Nat :=
  36524 * d.century + 1461 * d.quad + 365 * d.year + d.day

def yearOfEra (d : EraDay) : Nat :=
  100 * d.century + 4 * d.quad + d.year

theorem exists_number_eq {n : Nat} (h : n < 146097) : ∃ d : EraDay, d.number = n := by
  -- The last day of the era would be the first of a fifth century, and a leap day of a fifth year.
  have hcentury : ∃ century rest, n = 36524 * century + rest ∧ century < 4 ∧
      (rest < 36524 ∨ rest = 36524 ∧ century = 3) := by
    by_cases hlast : n = 146096
    · exact ⟨3, 36524, by omega, by omega, by omega⟩
    · exact ⟨n / 36524, n % 36524, by omega, by omega, by omega⟩
  obtain ⟨century, rest, rfl, hlt, hrest⟩ := hcentury
  have hyear : ∃ year day, rest % 1461 = 365 * year + day ∧ year < 4 ∧
      (day < 365 ∨ day = 365 ∧ year = 3) := by
    by_cases hleap : rest % 1461 = 1460
    · exact ⟨3, 365, by omega, by omega, by omega⟩
    · exact ⟨rest % 1461 / 365, rest % 1461 % 365, by omega, by omega, by omega⟩
  obtain ⟨year, day, hsum, hyear, hday⟩ := hyear
  refine ⟨⟨century, rest / 1461, year, day, hlt, by omega, hyear, by omega⟩, ?_⟩
  simp only [number]
  omega

variable (d : EraDay)

theorem number_lt : d.number < 146097 := by
  have hcentury := d.century_lt
  have hquad := d.quad_lt
  have hyear := d.year_lt
  have hday := d.day_lt
  rw [number]
  omega

theorem yearOfEra_lt : d.yearOfEra < 400 := by
  have hcentury := d.century_lt
  have hquad := d.quad_lt
  have hyear := d.year_lt
  rw [yearOfEra]
  omega

theorem number_eq :
    d.number = 365 * d.yearOfEra + d.yearOfEra / 4 - d.yearOfEra / 100 + d.day := by
  have hquad := d.quad_lt
  have hyear := d.year_lt
  rw [number, yearOfEra]
  omega

/-- Before the century is counted again, the last day of an era is taken for one of a fifth
century. -/
theorem centuries_eq : d.number / 36524 = d.century + d.number / 146096 := by
  have hcentury := d.century_lt
  have hquad := d.quad_lt
  have hyear := d.year_lt
  have hday := d.day_lt
  obtain ⟨rest, hrest⟩ : ∃ rest, rest = 1461 * d.quad + 365 * d.year + d.day := ⟨_, rfl⟩
  have hnumber : d.number = 36524 * d.century + rest := by
    rw [number]
    omega
  have hlast : rest < 36524 ∨ rest = 36524 ∧ d.century = 3 := by omega
  rw [hnumber]
  omega

/-- Four years are a day longer than the 1460 days they are counted as. The leap days that this
brings forward are one for every four years over, and one more from the end of the four years on. -/
theorem quads_eq : d.number / 1460 = 25 * d.century + d.quad +
    (if 24 * d.century + d.quad + 365 * d.year + d.day < 1460 then 0 else 1) := by
  have hcentury := d.century_lt
  have hquad := d.quad_lt
  have hyear := d.year_lt
  have hday := d.day_lt
  rw [number]
  split <;> omega

theorem yearOfEra_eq :
    (d.number - d.number / 1460 + d.number / 36524 - d.number / 146096) / 365 = d.yearOfEra := by
  have hyear := d.year_lt
  have hday := d.day_lt
  have hcentury := d.century_lt
  have hquad := d.quad_lt
  have hsum : d.number - d.number / 1460 + d.number / 36524 - d.number / 146096 =
      365 * d.yearOfEra + d.day -
        (if 24 * d.century + d.quad + 365 * d.year + d.day < 1460 then 0 else 1) := by
    rw [centuries_eq, quads_eq, ← Nat.add_assoc, Nat.add_sub_cancel, number, yearOfEra]
    split <;> omega
  rw [hsum]
  split <;> omega

/-- The calendar year in which a year of an era ends is a leap year just if the era's year has a
leap day to end with. -/
theorem isLeap_succ (era : Int) : isLeap (era * 400 + d.yearOfEra + 1) = true ↔
    d.year = 3 ∧ (d.quad < 24 ∨ d.century = 3) := by
  have hcentury := d.century_lt
  have hquad := d.quad_lt
  have hyear := d.year_lt
  simp only [isLeap, Bool.and_eq_true, Bool.or_eq_true, decide_eq_true_eq]
  rw [yearOfEra]
  omega

end EraDay

/-! ### Months from March on -/

/-- The first day of a month of a year that starts in March. -/
def monthStart (monthFromMarch : Nat) : Nat :=
  (153 * monthFromMarch + 2) / 5

/-- The month, counted from March, of a day of a year. -/
def monthOf (day : Nat) : Nat :=
  (5 * day + 2) / 153

theorem monthOf_lt {day : Nat} (h : day ≤ 365) : monthOf day < 12 := by
  rw [monthOf]
  omega

theorem monthStart_monthOf_le (day : Nat) : monthStart (monthOf day) ≤ day := by
  rw [monthStart, monthOf]
  omega

theorem lt_monthStart_succ (day : Nat) : day < monthStart (monthOf day + 1) := by
  rw [monthStart, monthOf]
  omega

/-- The month's number in the calendar. -/
def calendarMonth (monthFromMarch : Nat) : Nat :=
  if monthFromMarch < 10 then monthFromMarch + 3 else monthFromMarch - 9

theorem monthStart_succ_le {month : Nat} (year : Int) (h : month < 11) :
    monthStart (month + 1) ≤ monthStart month + daysInMonth year (calendarMonth month) := by
  interval_cases month <;> simp [monthStart, calendarMonth, daysInMonth]

theorem calendarMonth_mem {month : Nat} (h : month < 12) :
    1 ≤ calendarMonth month ∧ calendarMonth month ≤ 12 := by
  unfold calendarMonth
  split <;> omega

theorem calendarMonth_add_mod {month : Nat} (h : month < 12) :
    (calendarMonth month + 9) % 12 = month := by
  unfold calendarMonth
  split <;> omega

namespace EraDay

variable (d : EraDay)

/-- The date of the day in an era: its month runs on in the next calendar year from January on. -/
def date (era : Int) : Date :=
  let month := calendarMonth (monthOf d.day)
  ⟨if month ≤ 2 then era * 400 + d.yearOfEra + 1 else era * 400 + d.yearOfEra, month,
    d.day - monthStart (monthOf d.day) + 1⟩

theorem ofDays_eq (era : Int) :
    Date.ofDays (era * 146097 + d.number - 719468) = d.date era := by
  have hnumber := d.number_lt
  have hera : (era * 146097 + d.number - 719468 + 719468) / 146097 = era := by omega
  have hday : ((era * 146097 + d.number - 719468 + 719468) % 146097).toNat = d.number := by omega
  have hstart : d.number - (365 * d.yearOfEra + d.yearOfEra / 4 - d.yearOfEra / 100) = d.day := by
    have hsum := d.number_eq
    omega
  simp only [Date.ofDays, hera, hday, yearOfEra_eq, hstart]
  rfl

theorem day_le : d.day ≤ 365 := by
  have hday := d.day_lt
  omega

theorem toDays_date (era : Int) :
    (d.date era).toDays = era * 146097 + d.number - 719468 := by
  have hmonth := monthOf_lt d.day_le
  have hstart := monthStart_monthOf_le d.day
  have hyear : (if (d.date era).month ≤ 2 then (d.date era).year - 1 else (d.date era).year) =
      era * 400 + d.yearOfEra := by
    simp only [date]
    split <;> omega
  have hfromMarch : ((d.date era).month + 9) % 12 = monthOf d.day := calendarMonth_add_mod hmonth
  have hlt := d.yearOfEra_lt
  have hera : (era * 400 + d.yearOfEra) / 400 = era := by omega
  have hmod : (era * 400 + d.yearOfEra) % 400 = d.yearOfEra := by omega
  have hday : ((153 * (monthOf d.day : Int) + 2) / 5 + ((d.date era).day : Int) - 1) = d.day := by
    simp only [date, monthStart] at hstart ⊢
    omega
  have hsum := d.number_eq
  simp only [Date.toDays, hyear, hfromMarch, hera, hmod, hday]
  omega

theorem day_date_le (era : Int) :
    (d.date era).day ≤ daysInMonth (d.date era).year (d.date era).month := by
  have hmonth := monthOf_lt d.day_le
  have hstart := monthStart_monthOf_le d.day
  have hend := lt_monthStart_succ d.day
  change d.day - monthStart (monthOf d.day) + 1 ≤ _
  by_cases hlast : monthOf d.day = 11
  · -- February ends the year, with a leap day if there is one.
    have hyear : daysInMonth (d.date era).year (d.date era).month =
        if isLeap (era * 400 + d.yearOfEra + 1) then 29 else 28 := by
      simp only [date, hlast]
      rfl
    have hday := d.day_lt
    rw [hyear, hlast]
    by_cases hleap : d.year = 3 ∧ (d.quad < 24 ∨ d.century = 3)
    · rw [if_pos ((d.isLeap_succ era).mpr hleap), monthStart]
      omega
    · rw [if_neg (fun h => hleap ((d.isLeap_succ era).mp h)), monthStart]
      omega
  · have hnext := monthStart_succ_le (d.date era).year (show monthOf d.day < 11 by omega)
    have hsame : (d.date era).month = calendarMonth (monthOf d.day) := rfl
    rw [hsame]
    omega

theorem isValid_date {era : Int} (hmin : Date.minYear ≤ era * 400 + d.yearOfEra)
    (hmax : era * 400 + d.yearOfEra < Date.maxYear) : (d.date era).isValid = true := by
  have hmonth : 1 ≤ (d.date era).month ∧ (d.date era).month ≤ 12 :=
    calendarMonth_mem (monthOf_lt d.day_le)
  have hday : 1 ≤ (d.date era).day := Nat.succ_pos _
  have hyear : Date.minYear ≤ (d.date era).year ∧ (d.date era).year ≤ Date.maxYear := by
    simp only [date]
    split <;> omega
  simp only [Date.isValid, Bool.and_eq_true, decide_eq_true_eq]
  exact ⟨⟨⟨⟨⟨hyear.1, hyear.2⟩, hmonth.1⟩, hmonth.2⟩, hday⟩, d.day_date_le era⟩

end EraDay

/-! ### Days and dates -/

theorem exists_eraDay (days : Int) :
    ∃ (era : Int) (d : EraDay), days = era * 146097 + d.number - 719468 := by
  have hlt : ((days + 719468) % 146097).toNat < 146097 := by omega
  obtain ⟨d, hd⟩ := EraDay.exists_number_eq hlt
  exact ⟨(days + 719468) / 146097, d, by omega⟩

/-- A day's date has the day's number. -/
theorem toDays_ofDays (days : Int) : (Date.ofDays days).toDays = days := by
  obtain ⟨era, d, rfl⟩ := exists_eraDay days
  rw [d.ofDays_eq, d.toDays_date]

end Calendar
end Specimen
