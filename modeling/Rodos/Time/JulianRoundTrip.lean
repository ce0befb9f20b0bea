import Rodos.Time.ModifiedJulianDate

/-! From a calendar date to the modified Julian date and back. `mjd_UTC2calendar` keeps the
fractions of its century terms, so its days begin earlier or later than those of the calendar. -/
namespace Rodos.Time
open Library

/-! ### The conversion in integers -/

/-- The variable `c`, in units of 1/48699 of a day. The calendar has `days + 2453082` for it. -/
def mjdCount (days : Int) : Int := 48699 * (days + 2453082) + (days - 60)

/-- The variable `d`. -/
def mjdYear (days : Int) : Int := (20 * mjdCount days - 117948978) / 355746195

/-- The days before the first of March of `mjdYear`: the variable `e`. -/
def mjdFirst (days : Int) : Int := 365 * mjdYear days + mjdYear days / 4

/-- The variable `f`. -/
def mjdMonth (days : Int) : Int :=
  10000 * (mjdCount days - 48699 * mjdFirst days) / 14901942699

def mjdDate (days : Int) : Date :=
  let month := mjdMonth days - 1 - 12 * (mjdMonth days / 14)
  { year := mjdYear days - 4715 - (7 + month) / 10
    month
    day := (mjdCount days / 48699 - mjdFirst days - 306001 * mjdMonth days / 10000) % 256 }

/-- Within a year that begins in March the count goes from 121.1 to 487.1 days. -/
theorem mjdFirst_bounds {days : Int} :
    1211 * 48699 ≤ 10 * (mjdCount days - 48699 * mjdFirst days) ∧
      10 * (mjdCount days - 48699 * mjdFirst days) < 4871 * 48699 := by
  unfold mjdFirst mjdYear
  generalize mjdCount days = count
  omega

theorem mjdMonth_bounds {days : Int} : 3 ≤ mjdMonth days ∧ mjdMonth days ≤ 15 := by
  have hbounds := @mjdFirst_bounds days
  unfold mjdMonth
  generalize mjdCount days - 48699 * mjdFirst days = count at hbounds
  omega

theorem mjdYear_bounds {days : Int} (hdays : DocumentedDays days) :
    6616 ≤ mjdYear days ∧ mjdYear days ≤ 6816 := by
  obtain ⟨hlow, hhigh⟩ := hdays
  unfold mjdYear mjdCount
  omega

section toDate

variable {days : Int} (hdays : DocumentedDays days)

theorem mjdCount_eq (days : Int) :
    ((days + 2451545 : Int) : ℚ) + (days + 584328 : Int) / 36524.25 -
      (days + 584328 : Int) / 36524.25 / 4 + 1525 = (mjdCount days : ℚ) / 48699 := by
  unfold mjdCount
  push_cast
  ring

include hdays

theorem truncate_mjdYear :
    truncate (((mjdCount days : ℚ) / 48699 - 121.1) / 365.25) = mjdYear days := by
  obtain ⟨hlow, _⟩ := hdays
  apply truncate_eq_ediv (by unfold mjdCount; omega) (by decide)
  push_cast
  ring

theorem truncate_mjdFirst : truncate (365.25 * (mjdYear days : ℚ)) = mjdFirst days := by
  have hyear := mjdYear_bounds hdays
  rw [@truncate_eq_ediv _ (1461 * mjdYear days) 4 (by omega) (by decide) (by
    push_cast
    ring), mjdFirst]
  omega

omit hdays in
theorem truncate_mjdMonth :
    truncate (((mjdCount days : ℚ) / 48699 - mjdFirst days) / 30.6001) = mjdMonth days := by
  have hfirst := @mjdFirst_bounds days
  apply truncate_eq_ediv (by omega) (by decide)
  push_cast
  ring

omit hdays in
/-- The days before the month are narrowed to eight bits before they are taken off. -/
theorem truncate_mjdDay :
    truncate ((mjdCount days : ℚ) / 48699 - mjdFirst days -
      (306001 * mjdMonth days / 10000 % 256 : Int)) % 256 =
        (mjdCount days / 48699 - mjdFirst days - 306001 * mjdMonth days / 10000) % 256 := by
  have hmonth := @mjdMonth_bounds days
  have hmonths : 14901942699 * mjdMonth days ≤
      10000 * (mjdCount days - 48699 * mjdFirst days) := by
    have hdiv := Int.mul_ediv_add_emod
      (10000 * (mjdCount days - 48699 * mjdFirst days)) 14901942699
    rw [← mjdMonth] at hdiv
    omega
  have hpassed : 0 ≤ 306001 * mjdMonth days / 10000 := by omega
  have hnarrow : 306001 * mjdMonth days / 10000 % 256 ≤ 306001 * mjdMonth days / 10000 := by
    omega
  rw [@truncate_eq_ediv _ (mjdCount days - 48699 * (mjdFirst days +
    306001 * mjdMonth days / 10000 % 256)) 48699 (by omega) (by decide) (by
      push_cast
      ring)]
  omega

theorem toDate_mjd_UTC2calendar {fraction : ℚ} (hnonneg : 0 ≤ fraction) (hlt : fraction < 1) :
    (mjd_UTC2calendar (((51544 + days : Int) : ℚ) + fraction)).toDate = mjdDate days := by
  obtain ⟨hlow, hhigh⟩ := id hdays
  have ha : (truncate (((51544 + days : Int) : ℚ) + fraction) + 2400001) % 4294967296 =
      days + 2451545 := by
    rw [truncate_add_fraction (by omega) hnonneg hlt]
    omega
  have hb : truncate (((days + 2451545 : Int) : ℚ) - 1867216.25) = days + 584328 := by
    rw [@truncate_eq_ediv _ (4 * (days + 2451545) - 7468865) 4 (by omega) (by decide) (by
      push_cast
      ring)]
    omega
  have hyear := mjdYear_bounds hdays
  have hmonth := @mjdMonth_bounds days
  have hx := @truncate_months (mjdMonth days) (by omega)
  have hturn : (mjdMonth days).tdiv 14 = mjdMonth days / 14 :=
    Int.tdiv_eq_ediv_of_nonneg (by omega)
  have hmonthFits : (mjdMonth days - 1 - 12 * (mjdMonth days / 14)) % 256 =
      mjdMonth days - 1 - 12 * (mjdMonth days / 14) := by omega
  have hyearTurn : (7 + (mjdMonth days - 1 - 12 * (mjdMonth days / 14))).tdiv 10 =
      (7 + (mjdMonth days - 1 - 12 * (mjdMonth days / 14))) / 10 :=
    Int.tdiv_eq_ediv_of_nonneg (by omega)
  unfold mjd_UTC2calendar mjdDate
  simp only [ha, hb, mjdCount_eq, truncate_mjdYear hdays, truncate_mjdFirst hdays,
    truncate_mjdMonth, hx, truncate_mjdDay, hturn, hmonthFits, hyearTurn]
  congr 1
  omega

end toDate

/-! ### The time of day -/

theorem dayFraction_eq (calendar : Calendar) :
    dayFraction calendar * 24 = calendar.hour + (calendar.min + calendar.sec / 60) / 60 := by
  rw [dayFraction]
  ring

section timeOfDay

variable {calendar : Calendar} (hvalid : calendar.Valid)
include hvalid

/-- The part of the minute and of the hour that has passed. -/
theorem passed_bounds :
    (0 ≤ calendar.sec / 60 ∧ calendar.sec / 60 < 1) ∧
      0 ≤ (calendar.min + calendar.sec / 60) / 60 ∧
      (calendar.min + calendar.sec / 60) / 60 < 1 := by
  have hmin : (0 : ℚ) ≤ calendar.min := by exact_mod_cast hvalid.min_nonneg
  have hminLt : (calendar.min : ℚ) + 1 ≤ 60 := by exact_mod_cast hvalid.min_lt
  have hsec := hvalid.sec_nonneg
  have hsecLt := hvalid.sec_lt
  refine ⟨⟨by linarith, by linarith⟩, by linarith, by linarith⟩

theorem dayFraction_bounds : 0 ≤ dayFraction calendar ∧ dayFraction calendar < 1 := by
  have hhour : (0 : ℚ) ≤ calendar.hour := by exact_mod_cast hvalid.hour_nonneg
  have hhourLt : (calendar.hour : ℚ) + 1 ≤ 24 := by exact_mod_cast hvalid.hour_lt
  have heq := dayFraction_eq calendar
  obtain ⟨-, hpassed, hpassedLt⟩ := passed_bounds hvalid
  constructor <;> linarith

/-- The time of day comes back exactly. -/
theorem mjd_UTC2calendar_eq {days : Int} (hdays : DocumentedDays days) :
    mjd_UTC2calendar (((51544 + days : Int) : ℚ) + dayFraction calendar) =
      { calendar with toDate := mjdDate days } := by
  obtain ⟨hlow, _⟩ := id hdays
  obtain ⟨hnonneg, hlt⟩ := dayFraction_bounds hvalid
  obtain ⟨⟨hsec, hsecLt⟩, hpassed, hpassedLt⟩ := passed_bounds hvalid
  have hdate := toDate_mjd_UTC2calendar hdays hnonneg hlt
  generalize hmjd : ((51544 + days : Int) : ℚ) + dayFraction calendar = mjd at hdate ⊢
  have hq : mjd - truncate mjd = dayFraction calendar := by
    rw [← hmjd, truncate_add_fraction (by omega) hnonneg hlt]
    ring
  have h24 : dayFraction calendar * 24.0 =
      calendar.hour + (calendar.min + calendar.sec / 60) / 60 := by
    rw [← dayFraction_eq]
    norm_num
  have hhour : (mjd_UTC2calendar mjd).hour = calendar.hour := by
    have hhourNonneg := hvalid.hour_nonneg
    have hhourLt := hvalid.hour_lt
    show truncate ((mjd - truncate mjd) * 24.0) % 256 = _
    rw [hq, h24, truncate_add_fraction hhourNonneg hpassed hpassedLt]
    omega
  have h60 : ((mjd - truncate mjd) * 24.0 - (mjd_UTC2calendar mjd).hour) * 60.0 =
      calendar.min + calendar.sec / 60 := by
    rw [hhour, hq, h24]
    norm_num
  have hmin : (mjd_UTC2calendar mjd).min = calendar.min := by
    have hminNonneg := hvalid.min_nonneg
    have hminLt := hvalid.min_lt
    show truncate (((mjd - truncate mjd) * 24.0 - (mjd_UTC2calendar mjd).hour) * 60.0) % 256 = _
    rw [h60, truncate_add_fraction hminNonneg hsec hsecLt]
    omega
  have hsecond : (mjd_UTC2calendar mjd).sec = calendar.sec := by
    show (((mjd - truncate mjd) * 24.0 - (mjd_UTC2calendar mjd).hour) * 60.0 -
      (mjd_UTC2calendar mjd).min) * 60.0 = _
    rw [h60, hmin]
    norm_num
  rw [← hdate, ← hhour, ← hmin, ← hsecond]

end timeOfDay

/-! ### The dates -/

section civilDate

-- A day by the year `d` and the day in it, from March on.
variable {days d dayOfYear : Int} (hdays : DocumentedDays days)
  (hcount : days + 2453082 = 365 * d + d / 4 + dayOfYear)
include hdays hcount

theorem mjdYear_eq_iff (hlow : 123 ≤ dayOfYear) (hlate : 60 ≤ days) :
    mjdYear days = d ↔
      20 * 48699 * dayOfYear + 20 * (days - 60) < 48699 * (9727 + 5 * (d % 4)) := by
  obtain ⟨_, hlast⟩ := hdays
  unfold mjdYear mjdCount
  omega

theorem mjdMonth_eq_iff {f : Int} (hf : 10000 * dayOfYear / 306001 = f) (hlate : 60 ≤ days)
    (hyear : mjdYear days = d) :
    mjdMonth days = f ↔
      10000 * (48699 * dayOfYear + (days - 60)) < 14901942699 * (f + 1) := by
  obtain ⟨_, hlast⟩ := hdays
  unfold mjdMonth mjdCount mjdFirst
  rw [hyear]
  omega

/-- The dates agree when the years and the months do, and the days are counted from midnight on. -/
theorem mjdDate_eq_iff {f : Int} (hlow : 123 ≤ dayOfYear) (hhigh : dayOfYear ≤ 488)
    (hleap : dayOfYear = 488 → d % 4 = 3) (hf : 10000 * dayOfYear / 306001 = f) :
    mjdDate days = civilDate days ↔ 60 ≤ days ∧ mjdYear days = d ∧ mjdMonth days = f := by
  obtain ⟨hfirst, hlast⟩ := hdays
  obtain ⟨hmonthLow, hmonthHigh⟩ := @mjdMonth_bounds days
  have hfBounds := monthIndex_bounds hlow hhigh hf.symm
  have hday : 306001 * f / 10000 ≤ dayOfYear ∧ dayOfYear - 306001 * f / 10000 ≤ 31 := by omega
  rw [civilDate_eq hcount hlow hhigh hleap hf, mjdDate, Date.mk.injEq]
  constructor
  · rintro ⟨hyear, hmonth, hdayEq⟩
    have hturn : f / 14 = 0 ∨ f / 14 = 1 := by omega
    have hmjdTurn : mjdMonth days / 14 = 0 ∨ mjdMonth days / 14 = 1 := by omega
    rw [hmonth] at hyear
    have hsameYear : mjdYear days = d := by omega
    have hsameMonth : mjdMonth days = f ∨ mjdMonth days = 3 ∧ f = 15 := by omega
    rw [mjdFirst, hsameYear, mjdCount] at hdayEq
    obtain hsame | ⟨hthree, hfifteen⟩ := hsameMonth
    · rw [hsame] at hdayEq
      refine ⟨?_, hsameYear, hsame⟩
      by_contra hearly
      omega
    · rw [hthree, hfifteen] at hdayEq
      rw [hfifteen] at hday hf
      omega
  · rintro ⟨hlate, hsameYear, hsameMonth⟩
    have hwhole : mjdCount days / 48699 = days + 2453082 := by
      unfold mjdCount
      omega
    have hdayEq : mjdCount days / 48699 - mjdFirst days - 306001 * f / 10000 =
        dayOfYear - 306001 * f / 10000 := by
      rw [hwhole, mjdFirst, hsameYear]
      omega
    rw [hsameYear, hsameMonth, hdayEq, Int.emod_eq_of_lt (by omega) (by omega)]
    exact ⟨rfl, rfl, rfl⟩

/-- The date comes back when neither the year nor the month has ended before the day has begun. -/
theorem mjdDate_eq_iff_before_end {f : Int} (hlow : 123 ≤ dayOfYear) (hhigh : dayOfYear ≤ 488)
    (hleap : dayOfYear = 488 → d % 4 = 3) (hf : 10000 * dayOfYear / 306001 = f) :
    mjdDate days = civilDate days ↔ 60 ≤ days ∧
      20 * 48699 * dayOfYear + 20 * (days - 60) < 48699 * (9727 + 5 * (d % 4)) ∧
      10000 * (48699 * dayOfYear + (days - 60)) < 14901942699 * (f + 1) := by
  rw [mjdDate_eq_iff hdays hcount hlow hhigh hleap hf]
  apply and_congr_right
  intro hlate
  rw [mjdYear_eq_iff hdays hcount hlow hlate]
  apply and_congr_right
  intro hbefore
  exact mjdMonth_eq_iff hdays hcount hf hlate
    ((mjdYear_eq_iff hdays hcount hlow hlate).mpr hbefore)

end civilDate

/-! ### The dates that come back -/

/-- The year from which on the last day of a month counts to the next one; February is apart. -/
def lastDayLostFrom (month : Int) : Int :=
  if month = 4 ∨ month = 9 then 2080
  else if month = 5 ∨ month = 10 then 2027
  else if month = 6 ∨ month = 11 then 2101
  else if month = 7 then 2054
  else if month = 12 then 2053
  else 2000

def LostInFebruary (year day : Int) : Prop :=
  day = 29 ∨ day = 28 ∧ (year % 4 ≠ 0 ∨ 2016 ≤ year) ∨
    day = 27 ∧ (year % 4 = 1 ∧ 2049 ≤ year ∨ year % 4 = 2 ∧ 2082 ≤ year)

/-- Dates from March 2000 on, without those at the end of a month that are lost. -/
def ComesBack (date : Date) : Prop :=
  (2000 < date.year ∨ date.year = 2000 ∧ 3 ≤ date.month) ∧
    if date.month = 2 then ¬ LostInFebruary date.year date.day
    else ¬ (date.day = daysInMonth date.year date.month ∧ lastDayLostFrom date.month ≤ date.year)

section comesBack

variable {year month day : Int} (hvalid : Date.Valid ⟨year, month, day⟩)
  (hdate : DocumentedDate ⟨year, month, day⟩)
include hvalid hdate

theorem mjdDate_iff_late (hlate : 3 ≤ month) :
    mjdDate (daysFrom2000 ⟨year, month, day⟩) = ⟨year, month, day⟩ ↔
      ComesBack ⟨year, month, day⟩ := by
  obtain ⟨hcivil, hdays⟩ := civilDate_daysFrom2000 hvalid hdate
  obtain ⟨hmonth, hmonthLe, hday, hdayLe⟩ := hvalid
  simp only [DocumentedDate] at hmonth hmonthLe hday hdayLe hdate
  have hcount : daysFrom2000 ⟨year, month, day⟩ + 2453082 =
      365 * (year + 4716) + (year + 4716) / 4 + (day + 306001 * (month + 1) / 10000) := by
    have hmarch : (month + 9) / 12 = 1 := by omega
    rw [daysFrom2000_eq (by simp only; omega) hmonth,
      (daysBeforeMonth_eq hmonth hmonthLe).1 hlate]
    simp only [hmarch]
    omega
  have hiff := @mjdDate_eq_iff_before_end _ _ _ hdays hcount (month + 1)
  rw [hcivil] at hiff
  generalize daysFrom2000 ⟨year, month, day⟩ = days at *
  interval_cases month
  all_goals
    simp only [daysInMonth, Int.reduceEq, ↓reduceIte, or_self, or_true, or_false] at hdayLe
    rw [hiff (by omega) (by omega) (by omega) (by omega)]
    simp only [ComesBack, lastDayLostFrom, daysInMonth, Int.reduceEq, ↓reduceIte, or_self,
      or_true, or_false]
    omega

/-- The day of the year on which February ends depends on the year in its cycle of four. -/
theorem mjdDate_iff_early (hearly : month ≤ 2) :
    mjdDate (daysFrom2000 ⟨year, month, day⟩) = ⟨year, month, day⟩ ↔
      ComesBack ⟨year, month, day⟩ := by
  obtain ⟨hcivil, hdays⟩ := civilDate_daysFrom2000 hvalid hdate
  obtain ⟨hmonth, hmonthLe, hday, hdayLe⟩ := hvalid
  simp only [DocumentedDate] at hmonth hmonthLe hday hdayLe hdate
  have hleap := @leapYear_iff year (by omega) (by omega)
  have hcount : daysFrom2000 ⟨year, month, day⟩ + 2453082 =
      365 * (year + 4715) + (year + 4715) / 4 + (day + 306001 * (month + 13) / 10000) := by
    have hjanuary : (month + 9) / 12 = 0 := by omega
    rw [daysFrom2000_eq (by simp only; omega) hmonth,
      (daysBeforeMonth_eq hmonth hmonthLe).2 hearly]
    simp only [hjanuary]
    omega
  have hiff := @mjdDate_eq_iff_before_end _ _ _ hdays hcount (month + 13)
  rw [hcivil] at hiff
  generalize daysFrom2000 ⟨year, month, day⟩ = days at *
  interval_cases month
  · simp only [daysInMonth, Int.reduceEq, ↓reduceIte, or_self] at hdayLe
    rw [hiff (by omega) (by omega) (by omega) (by omega)]
    simp only [ComesBack, lastDayLostFrom, daysInMonth, Int.reduceEq, ↓reduceIte, or_self]
    omega
  · simp only [daysInMonth, hleap, ↓reduceIte] at hdayLe
    rw [hiff (by omega) (by omega) (by omega) (by omega)]
    clear hiff hcivil hleap hdays
    simp only [ComesBack, LostInFebruary, ↓reduceIte]
    obtain hrest | hrest | hrest | hrest :
      year % 4 = 0 ∨ year % 4 = 1 ∨ year % 4 = 2 ∨ year % 4 = 3 := by omega
    all_goals
      have hyears : year = 4 * (year / 4) + year % 4 := by omega
      generalize year / 4 = quarters at hyears
      rw [hrest] at hyears
      subst hyears
      omega

end comesBack

theorem mjdDate_daysFrom2000_iff {date : Date} (hvalid : date.Valid) (hdate : DocumentedDate date) :
    mjdDate (daysFrom2000 date) = date ↔ ComesBack date := by
  obtain hlate | hearly := lt_or_ge 2 date.month
  · exact mjdDate_iff_late hvalid hdate hlate
  · exact mjdDate_iff_early hvalid hdate hearly

theorem mjd_UTC2calendar_of_date {calendar : Calendar} (hvalid : calendar.Valid)
    (hdate : DocumentedDate calendar.toDate) :
    mjd_UTC2calendar (calendar2mjd_UTC calendar) =
      { calendar with toDate := mjdDate (daysFrom2000 calendar.toDate) } := by
  have hdays := (civilDate_daysFrom2000 hvalid.date hdate).2
  rw [calendar2mjd_UTC_eq hvalid.date hdate, mjd_UTC2calendar_eq hvalid hdays]

/-- Date and time come back exactly for these dates; the time alone always does. -/
theorem mjd_UTC2calendar_calendar2mjd_UTC_iff {calendar : Calendar} (hvalid : calendar.Valid)
    (hdate : DocumentedDate calendar.toDate) :
    mjd_UTC2calendar (calendar2mjd_UTC calendar) = calendar ↔ ComesBack calendar.toDate := by
  rw [mjd_UTC2calendar_of_date hvalid hdate, ← mjdDate_daysFrom2000_iff hvalid.date hdate]
  constructor
  · exact fun hsame => congrArg Calendar.toDate hsame
  · exact fun hsame => by rw [hsame]

theorem mjd_UTC2calendar_calendar2mjd_UTC_iff_noon :
    mjd_UTC2calendar (calendar2mjd_UTC ⟨⟨2021, 1, 30⟩, 12, 0, 0⟩) = ⟨⟨2021, 1, 30⟩, 12, 0, 0⟩ ↔
      ComesBack ⟨2021, 1, 30⟩ :=
  mjd_UTC2calendar_calendar2mjd_UTC_iff
    ⟨⟨by decide, by decide, by decide, by decide⟩, by decide, by decide, by decide, by decide,
      by norm_num, by norm_num⟩
    ⟨by decide, by decide⟩

/-- Of the last day of January the day 0 of February is made. -/
theorem last_of_january :
    mjd_UTC2calendar (calendar2mjd_UTC ⟨⟨2021, 1, 31⟩, 12, 0, 0⟩) = ⟨⟨2021, 2, 0⟩, 12, 0, 0⟩ ∧
      mjd_UTC2calendar (calendar2mjd_UTC ⟨⟨2021, 1, 31⟩, 12, 0, 0⟩) ≠
        ⟨⟨2021, 1, 31⟩, 12, 0, 0⟩ := by
  have hvalid : Calendar.Valid ⟨⟨2021, 1, 31⟩, 12, 0, 0⟩ :=
    ⟨⟨by decide, by decide, by decide, by decide⟩, by decide, by decide, by decide, by decide,
      by norm_num, by norm_num⟩
  have hdate : mjdDate (daysFrom2000 ⟨2021, 1, 31⟩) = ⟨2021, 2, 0⟩ := by decide
  have hresult : mjd_UTC2calendar (calendar2mjd_UTC ⟨⟨2021, 1, 31⟩, 12, 0, 0⟩) =
      ⟨⟨2021, 2, 0⟩, 12, 0, 0⟩ := by
    rw [mjd_UTC2calendar_of_date hvalid ⟨by decide, by decide⟩]
    simp only [hdate]
  refine ⟨hresult, ?_⟩
  rw [hresult]
  decide

end Rodos.Time
