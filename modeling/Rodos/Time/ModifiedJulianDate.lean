import Rodos.Time.Calendar

/-! The modified Julian date of a calendar date and of a local time. -/
namespace Rodos.Time
open Library

/-- The narrow types wrap around. -/
def calendar2mjd_UTC (calendar : Calendar) : ℚ :=
  let month_mod := if calendar.month ≤ 2 then (calendar.month + 12) % 256 else calendar.month
  let year_mod := if calendar.month ≤ 2 then (calendar.year - 1) % 65536 else calendar.year
  let Mjd_0h : Int :=
    if 10000 * year_mod + 100 * calendar.month + calendar.day ≤ 15821004 then
      (365 * year_mod - 679004 + -2 + (year_mod + 4716).tdiv 4 - 1179 +
        truncate (30.6001 * ((calendar.month + 1 : Int) : ℚ)) + calendar.day) % 4294967296
    else
      (365 * year_mod - 679004 + year_mod.tdiv 400 - year_mod.tdiv 100 + year_mod.tdiv 4 +
        truncate (30.6001 * ((month_mod + 1 : Int) : ℚ)) + calendar.day) % 4294967296
  let fraction : ℚ := (calendar.hour + calendar.min / 60.0 + calendar.sec / 3600.0) / 24.0
  Mjd_0h + fraction

def localTime2mjd_UTC (localTime : Int) : ℚ := (localTime : ℚ) / (DAYS : ℚ) + 51544.0

def mjd_UTC2calendar (MJD_UTC : ℚ) : Calendar :=
  let a := (truncate MJD_UTC + 2400001) % 4294967296
  let q := MJD_UTC - truncate MJD_UTC
  let b : ℚ := truncate ((a : ℚ) - 1867216.25) / 36524.25
  let c : ℚ := a + b - b / 4 + 1525
  let d := truncate ((c - 121.1) / 365.25)
  let e := truncate (365.25 * (d : ℚ))
  let f := truncate ((c - e) / 30.6001)
  let day := truncate (c - e - ((truncate (30.6001 * (f : ℚ)) % 256 : Int) : ℚ)) % 256
  let month := (f - 1 - 12 * f.tdiv 14) % 256
  let year := (d - 4715 - (7 + month).tdiv 10) % 65536
  let hour := truncate (q * 24.0) % 256
  let hour_frac := q * 24.0 - hour
  let minute := truncate (hour_frac * 60.0) % 256
  let second := (hour_frac * 60.0 - minute) * 60.0
  { year, month, day, hour, min := minute, sec := second }

/-! ### Days -/

/-- Between 1901 and 2099 all leap years of the Julian rule are leap years. -/
theorem century_eq {year : Int} (hlow : 1901 ≤ year) (hhigh : year ≤ 2099) :
    year / 400 = year / 100 - 15 := by
  have hcentury : year / 100 = 19 ∨ year / 100 = 20 := by omega
  omega

theorem quarters_eq (year : Int) : 7 * (year + 1) / 4 = 2 * year - year / 4 + 1 := by
  omega

/-- The part of the day that has passed. -/
def dayFraction (calendar : Calendar) : ℚ :=
  (calendar.hour + calendar.min / 60 + calendar.sec / 3600) / 24

/-- The days of a documented date, from the year that begins in March. -/
theorem calendar2mjd_UTC_eq {calendar : Calendar} (hvalid : calendar.toDate.Valid)
    (hdate : DocumentedDate calendar.toDate) :
    calendar2mjd_UTC calendar =
      ((51544 + daysFrom2000 calendar.toDate : Int) : ℚ) + dayFraction calendar := by
  obtain ⟨hmonth, hmonthLe, hday, hdayLe⟩ := hvalid
  have hdays : calendar.day ≤ 31 := by
    unfold daysInMonth at hdayLe
    split_ifs at hdayLe <;> omega
  unfold DocumentedDate at hdate
  have hbefore := daysBeforeMonth_eq hmonth hmonthLe
  have hfraction : ((calendar.hour : ℚ) + calendar.min / 60.0 + calendar.sec / 3600.0) / 24.0 =
      dayFraction calendar := by
    norm_num [dayFraction]
  rw [calendar2mjd_UTC, daysFrom2000_eq (by omega) hmonth, hfraction]
  obtain hlate | hearly := lt_or_ge 2 calendar.month
  · rw [if_neg (by omega), if_neg (by omega), if_neg (by omega), truncate_months (by omega),
      hbefore.1 (by omega), show (calendar.month + 9) / 12 = 1 by omega]
    simp only [Int.tdiv_eq_ediv_of_nonneg (show 0 ≤ calendar.year by omega)]
    rw [century_eq (by omega) (by omega), quarters_eq]
    congr 2
    omega
  · have hmonthMod : (calendar.month + 12) % 256 = calendar.month + 12 := by omega
    have hyearMod : (calendar.year - 1) % 65536 = calendar.year - 1 := by omega
    rw [if_pos hearly, if_pos hearly, hmonthMod, hyearMod, if_neg (by omega),
      truncate_months (by omega), show calendar.month + 12 + 1 = calendar.month + 13 by omega,
      hbefore.2 hearly, show (calendar.month + 9) / 12 = 0 by omega]
    have hquarters := quarters_eq (calendar.year - 1)
    rw [Int.sub_add_cancel] at hquarters
    simp only [Int.tdiv_eq_ediv_of_nonneg (show 0 ≤ calendar.year - 1 by omega)]
    rw [century_eq (by omega) (by omega), Int.add_zero, hquarters]
    congr 2
    omega

/-- Both ways lead to the same modified Julian date, for every time of day in whole nanoseconds. -/
theorem calendar2mjd_UTC_calendar2LocalTime {calendar : Calendar} (hvalid : calendar.Valid)
    (hdate : DocumentedDate calendar.toDate) (hsec : WholeUnits calendar.sec) :
    calendar2mjd_UTC calendar = localTime2mjd_UTC (calendar2LocalTime calendar) := by
  obtain ⟨units, hunits⟩ := hsec
  have hne : (SECONDS : ℚ) ≠ 0 := by norm_num [SECONDS_eq]
  have hpart : ⌊calendar.sec * (SECONDS : ℚ)⌋ = units := by
    rw [hunits, div_mul_cancel₀ _ hne, Int.floor_intCast]
  have hepoch : (51544.0 : ℚ) = 51544 := by norm_num
  rw [calendar2mjd_UTC_eq hvalid.date hdate, calendar2LocalTime_eq hvalid, localTime2mjd_UTC,
    unitsOfDay, hpart, dayFraction, hunits, hepoch, DAYS_eq, SECONDS_eq]
  push_cast
  ring

theorem calendar2mjd_UTC_calendar2LocalTime_noon :
    calendar2mjd_UTC ⟨⟨2000, 2, 29⟩, 12, 0, 0⟩ =
      localTime2mjd_UTC (calendar2LocalTime ⟨⟨2000, 2, 29⟩, 12, 0, 0⟩) :=
  calendar2mjd_UTC_calendar2LocalTime
    ⟨⟨by decide, by decide, by decide, by decide⟩, by decide, by decide, by decide, by decide,
      by norm_num, by norm_num⟩
    ⟨by decide, by decide⟩ ⟨0, by norm_num⟩

end Rodos.Time
