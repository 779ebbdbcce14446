import Orchestration.Time.Calendar

/-!
# Days and dates

A number of days names a date that is on the calendar, and the date names the number of days.

* `Time.Era.year_spec` — the year of a day, within the four hundred years after which the calendar repeats.
* `Time.Era.month_table` — the month of a day and the day of the month, within a year that starts in March.
* `Time.Date.toDays_ofDays` — the date of so many days stands for as many days.
* `Time.Date.isValid_ofDays` — it is a day of the calendar, as far as its year may be one.
-/

namespace Orchestration.Time

/-! ### Four hundred years -/

namespace Era

/-- The first day of a year that starts in March. -/
def firstDay (year : Int) : Int := 365 * year + year / 4 - year / 100

/-- A day with the leap days before it left out, so that all years have one length. -/
def evened (day : Int) : Int := day - day / 1460 + day / 36524 - day / 146096

theorem evened_mono {a b : Int} (hle : a ≤ b) : evened a ≤ evened b := by
  have hcenturies : a / 36524 - a / 146096 ≤ b / 36524 - b / 146096 := by omega
  have hfours : a - a / 1460 ≤ b - b / 1460 := by omega
  rw [evened, evened]
  omega

/-- The years start where they should, and end before. -/
theorem evened_firstDay : ∀ year < 400, 365 * (year : Nat) ≤ evened (firstDay year) ∧
    (year ≠ 0 → evened (firstDay year - 1) < 365 * year) := by
  decide +kernel

/-- **The year of a day** is the last one that has started. -/
theorem year_spec {day year : Int} (h0 : 0 ≤ day) (h1 : day < 146097) (hyear : year = evened day / 365) :
    0 ≤ year ∧ year < 400 ∧ firstDay year ≤ day ∧ (year < 399 → day < firstDay (year + 1)) := by
  have hrange : 0 ≤ year ∧ year < 400 := by
    subst hyear
    rw [evened]
    omega
  obtain ⟨count, rfl, hsmall⟩ : ∃ count : Nat, year = count ∧ count < 400 := ⟨year.toNat, by omega, by omega⟩
  refine ⟨hrange.1, hrange.2, Int.not_lt.mp fun hearly => ?_, fun hlast => Int.not_le.mp fun hlate => ?_⟩
  · have hnot : count ≠ 0 := by
      rintro rfl
      have hzero : firstDay ((0 : Nat) : Int) = 0 := rfl
      omega
    have hle := evened_mono (show day ≤ firstDay count - 1 by omega)
    have hless := (evened_firstDay count hsmall).2 hnot
    omega
  · have hnext : 365 * (count + 1 : Int) ≤ evened (firstDay (count + 1)) := (evened_firstDay (count + 1) (by omega)).1
    have hle := evened_mono hlate
    omega

/-! ### Years that start in March -/

/-- The month of a day of the year, counted from March. -/
def monthFromMarch (day : Int) : Int := (5 * day + 2) / 153

/-- The month of the calendar. -/
def calendarMonth (day : Int) : Int :=
  if monthFromMarch day < 10 then monthFromMarch day + 3 else monthFromMarch day - 9

/-- The day of the month. -/
def dayOfMonth (day : Int) : Int := day - (153 * monthFromMarch day + 2) / 5 + 1

/-- **The month of a day** is one of the twelve, and the day of the month is one that the month has in any year, but
for the last day of a year with a leap day. -/
theorem month_table : ∀ day < 366, 0 < calendarMonth (day : Nat) ∧ calendarMonth day ≤ 12 ∧ 0 < dayOfMonth day ∧
    (calendarMonth day + 9) % 12 = monthFromMarch day ∧
    if day = 365 then calendarMonth day = 2 ∧ dayOfMonth day = 29
    else dayOfMonth day ≤ daysInMonth 1 (calendarMonth day).toNat := by
  decide +kernel

/-- A month is no shorter than in the year 1. -/
theorem daysInMonth_le (year : Int) (month : Nat) : daysInMonth 1 month ≤ daysInMonth year month := by
  rw [daysInMonth, daysInMonth]
  split
  · cases isLeapYear year <;> decide
  · exact Nat.le_refl _

/-- Where a year that starts in March has one day more, that is the leap day of the year of the calendar in which it
ends. -/
theorem isLeapYear_of_lastDay {day year : Int} (era : Int) (h0 : 0 ≤ year) (h1 : year < 400)
    (hnext : year < 399 → day < firstDay (year + 1)) (hlast : day - firstDay year = 365) :
    isLeapYear (year + era * 400 + 1) = true := by
  have hstart : firstDay year = 365 * year + year / 4 - year / 100 := rfl
  have hend : firstDay (year + 1) = 365 * (year + 1) + (year + 1) / 4 - (year + 1) / 100 := rfl
  have hcenturies : year / 100 ≤ (year + 1) / 100 := by omega
  have hquarters : (year + 1) % 4 = 0 ∨ (year + 1) / 4 = year / 4 := by omega
  have hfour : (year + 1) % 4 = 0 := by omega
  have hhundred : (year + 1) % 100 = 0 → year = 399 := by omega
  simp only [isLeapYear, Bool.and_eq_true, Bool.or_eq_true, beq_iff_eq, bne_iff_ne]
  omega

end Era

namespace Date

open Era

/-- The date of a number of days, from the day of its year and the year of its four hundred years. -/
theorem ofDays_eq {days era day year : Int} (h0 : 0 ≤ day) (h1 : day < 146097)
    (hdays : days = era * 146097 + day - 719468) (hyear : year = evened day / 365) :
    ofDays days = ⟨year + era * 400 + (if calendarMonth (day - firstDay year) ≤ 2 then 1 else 0),
      (calendarMonth (day - firstDay year)).toNat, (dayOfMonth (day - firstDay year)).toNat⟩ := by
  have hera : (days + 719468) / 146097 = era := by omega
  have hday : (days + 719468) % 146097 = day := by omega
  subst hyear
  rw [ofDays]
  simp only [hera, hday]
  rfl

/-- The date is on a calendar of all years, and stands for so many days. -/
structure IsDateOf (d : Date) (days : Int) : Prop where
  /-- it stands for so many days -/
  toDays_eq : d.toDays = days
  /-- months are counted from 1 -/
  month_pos : 1 ≤ d.month
  /-- there are twelve of them -/
  month_le : d.month ≤ 12
  /-- days are counted from 1 -/
  day_pos : 1 ≤ d.day
  /-- the month has the day -/
  day_le : d.day ≤ daysInMonth d.year d.month

theorem isDateOf_ofDays (days : Int) : IsDateOf (ofDays days) days := by
  obtain ⟨era, day, h0, h1, hdays⟩ : ∃ era day : Int, 0 ≤ day ∧ day < 146097 ∧
      days = era * 146097 + day - 719468 :=
    ⟨(days + 719468) / 146097, (days + 719468) % 146097, by omega, by omega, by omega⟩
  obtain ⟨year, hyear⟩ : ∃ year, year = evened day / 365 := ⟨_, rfl⟩
  obtain ⟨hyear0, hyear1, hstarted, hnext⟩ := year_spec h0 h1 hyear
  have hstart : firstDay year = 365 * year + year / 4 - year / 100 := rfl
  have hend : firstDay (year + 1) = 365 * (year + 1) + (year + 1) / 4 - (year + 1) / 100 := rfl
  obtain ⟨count, hcount, hsmall⟩ : ∃ count : Nat, day - firstDay year = count ∧ count < 366 :=
    ⟨(day - firstDay year).toNat, by omega, by omega⟩
  obtain ⟨hmonth0, hmonth1, hday0, hmarch, hlast⟩ := month_table count hsmall
  have hdayOfMonth : dayOfMonth count = count - (153 * monthFromMarch count + 2) / 5 + 1 := rfl
  have hmonthNat : ((calendarMonth count).toNat : Int) = calendarMonth count := by omega
  have hdayNat : ((dayOfMonth count).toNat : Int) = dayOfMonth count := by omega
  rw [ofDays_eq h0 h1 hdays hyear, hcount]
  refine ⟨?_, by simp only; omega, by simp only; omega, by simp only; omega, ?_⟩
  · have hmarchYear : (if (calendarMonth count).toNat ≤ 2 then
          year + era * 400 + (if calendarMonth count ≤ 2 then 1 else 0) - 1
        else year + era * 400 + if calendarMonth count ≤ 2 then 1 else 0) = year + era * 400 := by
      split <;> split <;> omega
    have hera : (year + era * 400) / 400 = era := by omega
    have hyearOfEra : (year + era * 400) % 400 = year := by omega
    simp only [toDays, hmonthNat, hdayNat, hmarch, hmarchYear, hera, hyearOfEra]
    omega
  · simp only
    by_cases hleap : count = 365
    · -- the last day of a year in which there is one day more
      rw [if_pos hleap] at hlast
      have hyearIsLeap := isLeapYear_of_lastDay era hyear0 hyear1 hnext (by omega)
      rw [hlast.1, hlast.2, if_pos (by decide)]
      simp [daysInMonth, hyearIsLeap]
    · rw [if_neg hleap] at hlast
      have hsame := daysInMonth_le (year + era * 400 + if calendarMonth count ≤ 2 then 1 else 0)
        (calendarMonth count).toNat
      omega

/-- **There and back.** The date of a number of days stands for as many days. -/
theorem toDays_ofDays (days : Int) : (ofDays days).toDays = days := (isDateOf_ofDays days).toDays_eq

/-- The date of a number of days is on the calendar, as far as its year may be. -/
theorem isValid_ofDays {days : Int} (hfirst : firstYear ≤ (ofDays days).year) (hlast : (ofDays days).year ≤ lastYear) :
    (ofDays days).isValid = true := by
  have h := isDateOf_ofDays days
  simp [isValid, hfirst, hlast, h.month_pos, h.month_le, h.day_pos, h.day_le]

end Date

end Orchestration.Time
