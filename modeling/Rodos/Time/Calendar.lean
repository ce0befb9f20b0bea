import Rodos.Library.GregorianCalendar
import Rodos.Library.Truncation
import Mathlib.Tactic.IntervalCases
import Mathlib.Tactic.NormNum

/-! Local time, in nanoseconds since the first of January 2000, and the calendar. Floating-point
expressions are read as fractions. -/
namespace Rodos.Time
open Library

def NANOSECONDS : Int := 1
def MICROSECONDS : Int := 1000 * NANOSECONDS
def MILLISECONDS : Int := 1000 * MICROSECONDS
def SECONDS : Int := 1000 * MILLISECONDS
def MINUTES : Int := 60 * SECONDS
def HOURS : Int := 60 * MINUTES
def DAYS : Int := 24 * HOURS

/-- What `localTime2Calendar` returns. -/
structure Calendar extends Date where
  hour : Int
  min : Int
  sec : ℚ
deriving DecidableEq

/-- Convert Julian day number to calendar date. -/
def days2Date (days : Int) : Date :=
  let a := 2451545 + days
  let b := truncate (((a : ℚ) - 1867216.25) / 36524.25)
  let c := a + b - b.tdiv 4 + 1525
  let d := truncate (((c : ℚ) - 122.1) / 365.25)
  let e := 365 * d + d.tdiv 4
  let f := truncate (((c - e : Int) : ℚ) / 30.6001)
  let day := c - e - truncate (30.6001 * (f : ℚ))
  let month := f - 1 - 12 * f.tdiv 14
  let year := d - 4715 - (7 + month).tdiv 10
  { year, month, day }

def localTime2Calendar (localTime : Int) : Calendar :=
  let days := localTime.tdiv (1 * DAYS)
  let localTimeUnitsOfTheDay := localTime.tmod (1 * DAYS)
  { toDate := days2Date days
    hour := localTimeUnitsOfTheDay.tdiv (1 * HOURS)
    min := (localTimeUnitsOfTheDay.tdiv (1 * MINUTES)).tmod 60
    sec := ((localTimeUnitsOfTheDay.tdiv (1 * SECONDS)).tmod 60 : Int) +
      (localTimeUnitsOfTheDay.tmod (1 * SECONDS) : Int) / (1.0 * (SECONDS : ℚ)) }

def daysFrom2000 (date : Date) : Int :=
  367 * date.year - (7 * (date.year + (date.month + 9).tdiv 12)).tdiv 4 +
    (275 * date.month).tdiv 9 + date.day - 730531

def calendar2LocalTime (calendar : Calendar) : Int :=
  let secondsOfDay : ℚ := ((calendar.hour * 60 + calendar.min) * 60 : Int) + calendar.sec
  daysFrom2000 calendar.toDate * DAYS + truncate (secondsOfDay * (SECONDS : ℚ))

structure Calendar.Valid (calendar : Calendar) : Prop where
  date : calendar.toDate.Valid
  hour_nonneg : 0 ≤ calendar.hour
  hour_lt : calendar.hour < 24
  min_nonneg : 0 ≤ calendar.min
  min_lt : calendar.min < 60
  sec_nonneg : 0 ≤ calendar.sec
  sec_lt : calendar.sec < 60

/-! ### The documented range: 1901 March 1.0 to 2100 Feb. 28 -/

def DocumentedDays (days : Int) : Prop := -36100 ≤ days ∧ days ≤ 36583

def DocumentedTime (localTime : Int) : Prop := -36100 * DAYS ≤ localTime ∧ localTime < 36584 * DAYS

def DocumentedDate (date : Date) : Prop :=
  (1901 < date.year ∨ date.year = 1901 ∧ 3 ≤ date.month) ∧
    (date.year < 2100 ∨ date.year = 2100 ∧ date.month ≤ 2)

/-! ### Dates -/

/-- The conversion in integers: years and months from March on. -/
def civilDate (days : Int) : Date :=
  let c := days + 2453082
  let d := (20 * c - 2442) / 7305
  let dayOfYear := c - (365 * d + d / 4)
  let f := 10000 * dayOfYear / 306001
  let month := f - 1 - 12 * (f / 14)
  ⟨d - 4715 - (7 + month) / 10, month, dayOfYear - 306001 * f / 10000⟩

/-- From March on, the days of the year `d` are numbered from 123. -/
theorem dayOfYear_bounds {c d : Int} (hd : d = (20 * c - 2442) / 7305) :
    123 ≤ c - (365 * d + d / 4) ∧ c - (365 * d + d / 4) ≤ 488 := by
  omega

theorem truncate_months {count : Int} (hcount : 0 ≤ count) :
    truncate (30.6001 * (count : ℚ)) = 306001 * count / 10000 := by
  apply truncate_eq_ediv (by omega) (by decide)
  push_cast
  ring

theorem days2Date_eq {days : Int} (hdays : DocumentedDays days) :
    days2Date days = civilDate days := by
  obtain ⟨hlow, hhigh⟩ := hdays
  have hb : truncate ((((2451545 + days : Int) : ℚ) - 1867216.25) / 36524.25) =
      (4 * days + 2337315) / 146097 := by
    apply truncate_eq_ediv (by omega) (by decide)
    push_cast
    ring
  have hd : truncate ((((days + 2453082 : Int) : ℚ) - 122.1) / 365.25) =
      (20 * (days + 2453082) - 2442) / 7305 := by
    apply truncate_eq_ediv (by omega) (by decide)
    push_cast
    ring
  have hf {count : Int} (hcount : 0 ≤ count) :
      truncate ((count : ℚ) / 30.6001) = 10000 * count / 306001 := by
    apply truncate_eq_ediv (by omega) (by decide)
    push_cast
    ring
  -- the century rule does not apply between 1901 and 2100
  have hc : 2451545 + days + (4 * days + 2337315) / 146097 -
      ((4 * days + 2337315) / 146097).tdiv 4 + 1525 = days + 2453082 := by
    rw [Int.tdiv_eq_ediv_of_nonneg (by omega)]
    omega
  simp only [days2Date, civilDate, hb, hc, hd]
  generalize hyear : (20 * (days + 2453082) - 2442) / 7305 = d
  obtain ⟨hfirst, _⟩ := dayOfYear_bounds hyear.symm
  have hleap : d.tdiv 4 = d / 4 := Int.tdiv_eq_ediv_of_nonneg (by omega)
  rw [hleap, hf (by omega), truncate_months (by omega)]
  generalize hmonth : 10000 * (days + 2453082 - (365 * d + d / 4)) / 306001 = f
  rw [Int.tdiv_eq_ediv_of_nonneg (a := f) (by omega), Int.tdiv_eq_ediv_of_nonneg (by omega)]

/-- `daysFrom2000` of the first of a month, counted from March of the year before `d`. -/
theorem daysFrom2000_eq {date : Date} (hyear : 0 ≤ date.year) (hmonth : 1 ≤ date.month) :
    daysFrom2000 date = 367 * date.year - 7 * (date.year + (date.month + 9) / 12) / 4 +
      275 * date.month / 9 + date.day - 730531 := by
  rw [daysFrom2000, Int.tdiv_eq_ediv_of_nonneg (a := date.month + 9) (by omega),
    Int.tdiv_eq_ediv_of_nonneg (by omega), Int.tdiv_eq_ediv_of_nonneg (by omega)]

/-- Both directions count the days before a month in the same way, from March or from January on. -/
theorem daysBeforeMonth_eq {month : Int} (hlow : 1 ≤ month) (hhigh : month ≤ 12) :
    (3 ≤ month → 306001 * (month + 1) / 10000 = 275 * month / 9 + 31) ∧
      (month ≤ 2 → 306001 * (month + 13) / 10000 = 275 * month / 9 + 398) := by
  interval_cases month <;> decide

theorem monthIndex_bounds {dayOfYear f : Int} (hlow : 123 ≤ dayOfYear) (hhigh : dayOfYear ≤ 488)
    (hf : f = 10000 * dayOfYear / 306001) : 4 ≤ f ∧ f ≤ 15 := by
  omega

section civilDate

-- A day by the year `d` and the month `f` from March on, with the month and the year it is in.
variable {d dayOfYear f month year : Int} (hlow : 123 ≤ dayOfYear) (hhigh : dayOfYear ≤ 488)
  (hf : f = 10000 * dayOfYear / 306001) (hmonth : month = f - 1 - 12 * (f / 14))
  (hyear : year = d - 4715 - (7 + month) / 10)
include hlow hhigh hf hmonth hyear

theorem month_cases :
    (3 ≤ month ∧ month ≤ 12 ∧ f = month + 1 ∧ year = d - 4716) ∨
      (1 ≤ month ∧ month ≤ 2 ∧ f = month + 13 ∧ year = d - 4715) := by
  have hbounds := monthIndex_bounds hlow hhigh hf
  have hturn : f / 14 = 0 ∨ f / 14 = 1 := by omega
  omega

theorem day_le (hd : 6617 ≤ d) (hd' : d ≤ 6815)
    (hleap : dayOfYear = 488 → d % 4 = 3 ∧ d ≠ 6815) :
    dayOfYear - 306001 * f / 10000 ≤ daysInMonth year month := by
  obtain ⟨hfirst, hlast, rfl, rfl⟩ | ⟨hfirst, hlast, rfl, rfl⟩ :=
    month_cases hlow hhigh hf hmonth hyear
  · interval_cases month <;> simp [daysInMonth] <;> omega
  · have hyearLeap := @leapYear_iff (d - 4715) (by omega) (by omega)
    interval_cases month
    · simp [daysInMonth]
      omega
    · simp only [daysInMonth, hyearLeap, if_true]
      split_ifs <;> omega

theorem date_valid (hd : 6617 ≤ d) (hd' : d ≤ 6815)
    (hleap : dayOfYear = 488 → d % 4 = 3 ∧ d ≠ 6815) :
    Date.Valid ⟨year, month, dayOfYear - 306001 * f / 10000⟩ := by
  have hcases := month_cases hlow hhigh hf hmonth hyear
  refine ⟨by simp only; omega, by simp only; omega, ?_, ?_⟩
  · obtain ⟨hfirst, hlast⟩ := monthIndex_bounds hlow hhigh hf
    show 1 ≤ dayOfYear - 306001 * f / 10000
    clear hcases hmonth
    interval_cases f <;> omega
  · exact day_le hlow hhigh hf hmonth hyear hd hd' hleap

theorem daysFrom2000_date (hd : 6617 ≤ d) :
    daysFrom2000 ⟨year, month, dayOfYear - 306001 * f / 10000⟩ =
      365 * d + d / 4 + dayOfYear - 2453082 := by
  have hcases := month_cases hlow hhigh hf hmonth hyear
  rw [daysFrom2000_eq (by simp only; omega) (by simp only; omega)]
  simp only
  have hbefore := @daysBeforeMonth_eq month (by omega) (by omega)
  obtain ⟨hfirst, hlast, rfl, rfl⟩ | ⟨hfirst, hlast, rfl, rfl⟩ := hcases
  · have hmarch : (month + 9) / 12 = 1 := by omega
    rw [hbefore.1 hfirst, hmarch]
    omega
  · have hjanuary : (month + 9) / 12 = 0 := by omega
    rw [hbefore.2 hlast, hjanuary]
    omega

end civilDate

theorem civilDate_valid {days : Int} (hdays : DocumentedDays days) :
    (civilDate days).Valid ∧ DocumentedDate (civilDate days) ∧
      daysFrom2000 (civilDate days) = days := by
  obtain ⟨hlow, hhigh⟩ := hdays
  obtain ⟨hfirst, hlast⟩ := @dayOfYear_bounds (days + 2453082) _ rfl
  refine ⟨date_valid hfirst hlast rfl rfl rfl ?_ ?_ ?_, ?_, ?_⟩
  · omega
  · omega
  · omega
  · have hcases := month_cases (d := (20 * (days + 2453082) - 2442) / 7305) hfirst hlast rfl rfl rfl
    simp only [DocumentedDate, civilDate]
    omega
  · rw [civilDate, daysFrom2000_date hfirst hlast rfl rfl rfl (by omega)]
    omega

theorem civilDate_eq {days d dayOfYear f : Int}
    (hdays : days + 2453082 = 365 * d + d / 4 + dayOfYear)
    (hlow : 123 ≤ dayOfYear) (hhigh : dayOfYear ≤ 488) (hleap : dayOfYear = 488 → d % 4 = 3)
    (hf : 10000 * dayOfYear / 306001 = f) :
    civilDate days = ⟨d - 4715 - (7 + (f - 1 - 12 * (f / 14))) / 10, f - 1 - 12 * (f / 14),
      dayOfYear - 306001 * f / 10000⟩ := by
  have hd : (20 * (days + 2453082) - 2442) / 7305 = d := by omega
  have hdayOfYear : days + 2453082 - (365 * d + d / 4) = dayOfYear := by omega
  simp only [civilDate, hd, hdayOfYear, hf]

/-- From a month and a day to the day of the year, and back. -/
theorem civilDate_daysFrom2000 {date : Date} (hvalid : date.Valid) (hdate : DocumentedDate date) :
    civilDate (daysFrom2000 date) = date ∧ DocumentedDays (daysFrom2000 date) := by
  obtain ⟨year, month, day⟩ := date
  obtain ⟨hmonth, hmonthLe, hday, hdayLe⟩ := hvalid
  simp only [DocumentedDate] at hmonth hmonthLe hday hdayLe hdate
  have hleap := @leapYear_iff year (by omega) (by omega)
  rw [daysFrom2000_eq (by simp only; omega) hmonth]
  simp only [DocumentedDays]
  generalize hdays : 367 * year - 7 * (year + (month + 9) / 12) / 4 + 275 * month / 9 + day -
    730531 = days
  obtain hlate | hearly := lt_or_ge 2 month
  · have hcivil := @civilDate_eq days (year + 4716) (day + 306001 * (month + 1) / 10000) (month + 1)
    interval_cases month
    all_goals
      simp [daysInMonth] at hdayLe
      refine ⟨(hcivil (by omega) (by omega) (by omega) (by omega) (by omega)).trans ?_, by omega⟩
      rw [Date.mk.injEq]
      omega
  · have hcivil := @civilDate_eq days (year + 4715) (day + 306001 * (month + 13) / 10000)
      (month + 13)
    interval_cases month
    all_goals
      simp [daysInMonth, hleap] at hdayLe
      refine ⟨(hcivil (by omega) (by omega) (by omega) (by omega) (by omega)).trans ?_, by omega⟩
      rw [Date.mk.injEq]
      omega

theorem daysFrom2000_next {date : Date} (hvalid : date.Valid) (hdate : DocumentedDate date)
    (hnext : DocumentedDate date.next) : daysFrom2000 date.next = daysFrom2000 date + 1 := by
  obtain ⟨hmonth, hmonthLe, hday, hdayLe⟩ := hvalid
  have hyear : 1901 ≤ date.year ∧ date.year ≤ 2100 := by
    unfold DocumentedDate at hdate
    omega
  have hleap := leapYear_iff hyear.1 hyear.2
  revert hnext
  unfold Date.next
  split_ifs with hlater hdecember <;> intro hnext
  · simp only [daysFrom2000]
    omega
  · rw [daysFrom2000_eq (by simp only; omega) (by simp only; omega),
      daysFrom2000_eq (by omega) hmonth]
    obtain ⟨year, month, day⟩ := date
    simp only [DocumentedDate] at hlater hdecember hday hdayLe hnext hleap hyear ⊢
    interval_cases month <;> simp [daysInMonth, hleap] at hlater hdayLe
    · omega
    · have hquarter : year % 4 = 0 ∨ year % 4 = 1 ∨ year % 4 = 2 ∨ year % 4 = 3 := by omega
      split_ifs at hlater hdayLe <;> omega
    all_goals omega
  · rw [daysFrom2000_eq (by simp only; omega) (by simp only; omega),
      daysFrom2000_eq (by omega) hmonth]
    obtain ⟨year, month, day⟩ := date
    have hlast : month = 12 := by
      simp only at hdecember hmonthLe
      omega
    subst hlast
    simp [daysInMonth] at hlater hdayLe ⊢
    omega

theorem next_documented {date : Date} (hvalid : date.Valid) (hdate : DocumentedDate date)
    (hnext : DocumentedDays (daysFrom2000 date + 1)) : DocumentedDate date.next := by
  obtain ⟨hmonth, hmonthLe, _, _⟩ := hvalid
  have hdays := daysInMonth_pos date.year date.month
  obtain ⟨_, hnext⟩ := hnext
  unfold DocumentedDate at hdate
  rw [daysFrom2000_eq (by omega) hmonth] at hnext
  unfold DocumentedDate Date.next
  split_ifs with hlater hdecember
  · exact hdate
  · -- in February 2100 only the 28th has another month behind it
    have hfebruary : ¬ (date.year = 2100 ∧ date.month = 2) := by
      rintro ⟨hyear, hmonth⟩
      rw [hyear, hmonth] at hnext
      omega
    simp only
    omega
  · simp only
    omega

/-- The day after a date of the range is the next one of the calendar. -/
theorem civilDate_next {days : Int} (hdays : DocumentedDays days)
    (hnext : DocumentedDays (days + 1)) : civilDate (days + 1) = (civilDate days).next := by
  obtain ⟨hvalid, hdate, hsame⟩ := civilDate_valid hdays
  have hdateNext : DocumentedDate (civilDate days).next := by
    rw [← hsame] at hnext
    exact next_documented hvalid hdate hnext
  have hdaysNext := daysFrom2000_next hvalid hdate hdateNext
  rw [hsame] at hdaysNext
  rw [← hdaysNext]
  exact (civilDate_daysFrom2000 hvalid.next hdateNext).1

/-- `days2Date` counts the days of the calendar. -/
theorem iterate_next (count : Nat) {days : Int} (hdays : DocumentedDays days)
    (hlast : DocumentedDays (days + count)) :
    Date.next^[count] (days2Date days) = days2Date (days + count) := by
  induction count with
  | zero => simp
  | succ count ih =>
    have hbetween : DocumentedDays (days + count) := by
      unfold DocumentedDays at *
      omega
    have hsum : days + (count + 1 : Nat) = days + count + 1 := by omega
    rw [hsum] at hlast ⊢
    rw [Function.iterate_succ_apply', ih hbetween, days2Date_eq hbetween, days2Date_eq hlast,
      civilDate_next hbetween hlast]

example : civilDate (-36100) = ⟨1901, 3, 1⟩ ∧ civilDate 0 = ⟨2000, 1, 1⟩ ∧
    civilDate 36583 = ⟨2100, 2, 28⟩ := by
  decide

/-! ### Times of day -/

theorem SECONDS_eq : SECONDS = 1000000000 := rfl

theorem MINUTES_eq : MINUTES = 60000000000 := rfl

theorem HOURS_eq : HOURS = 3600000000000 := rfl

theorem DAYS_eq : DAYS = 86400000000000 := rfl

theorem tdiv_MINUTES (units : Int) : units.tdiv MINUTES = (units.tdiv SECONDS).tdiv 60 :=
  (tdiv_tdiv units 1000000000 60).symm

theorem tdiv_HOURS (units : Int) : units.tdiv HOURS = (units.tdiv MINUTES).tdiv 60 :=
  (tdiv_tdiv units 60000000000 60).symm

/-- Whole seconds of the day. -/
theorem wholeSeconds_eq (units : Int) :
    (units.tdiv HOURS * 60 + (units.tdiv MINUTES).tmod 60) * 60 + (units.tdiv SECONDS).tmod 60 =
      units.tdiv SECONDS := by
  have hminutes := Int.mul_tdiv_add_tmod (units.tdiv SECONDS) 60
  have hhours := Int.mul_tdiv_add_tmod (units.tdiv MINUTES) 60
  rw [← tdiv_MINUTES] at hminutes
  rw [← tdiv_HOURS] at hhours
  omega

/-- The time of day gives the units back, for negative units too. -/
theorem timeOfDay_units (units : Int) :
    (((units.tdiv HOURS * 60 + (units.tdiv MINUTES).tmod 60) * 60 : Int) +
        (((units.tdiv SECONDS).tmod 60 : Int) +
          (units.tmod SECONDS : Int) / (1.0 * (SECONDS : ℚ)))) * (SECONDS : ℚ) = units := by
  have hseconds := wholeSeconds_eq units
  have hunits := Int.mul_tdiv_add_tmod units SECONDS
  rw [← hseconds] at hunits
  generalize units.tdiv HOURS = hour, (units.tdiv MINUTES).tmod 60 = min,
    (units.tdiv SECONDS).tmod 60 = seconds, units.tmod SECONDS = rest at hunits ⊢
  have hfactor : (1.0 : ℚ) * (SECONDS : ℚ) = 1000000000 := by norm_num [SECONDS_eq]
  rw [← hunits, hfactor, SECONDS_eq]
  push_cast
  ring

theorem timeOfDay_bounds {units : Int} (hlow : 0 ≤ units) (hhigh : units < DAYS) :
    (0 ≤ units.tdiv HOURS ∧ units.tdiv HOURS < 24) ∧
      (0 ≤ (units.tdiv MINUTES).tmod 60 ∧ (units.tdiv MINUTES).tmod 60 < 60) ∧
      0 ≤ (units.tdiv SECONDS).tmod 60 ∧ (units.tdiv SECONDS).tmod 60 < 60 := by
  have hdivided (part : Int) (hpart : 0 < part) : 0 ≤ units.tdiv part :=
    Int.tdiv_nonneg hlow hpart.le
  rw [Int.tmod_eq_emod_of_nonneg (hdivided MINUTES (by decide)),
    Int.tmod_eq_emod_of_nonneg (hdivided SECONDS (by decide)), Int.tdiv_eq_ediv_of_nonneg hlow]
  rw [DAYS_eq] at hhigh
  rw [HOURS_eq]
  exact ⟨by omega, by omega, by omega⟩

/-! ### From local time to the calendar, and back -/

theorem documentedDays {localTime : Int} (htime : DocumentedTime localTime) :
    DocumentedDays (localTime.tdiv DAYS) := by
  obtain ⟨hlow, hhigh⟩ := htime
  obtain ⟨hsum, hnonneg, hnonpos⟩ := @tdiv_tmod_spec localTime DAYS (by decide)
  rw [DAYS_eq] at *
  unfold DocumentedDays
  omega

theorem calendar2LocalTime_localTime2Calendar {localTime : Int} (htime : DocumentedTime localTime) :
    calendar2LocalTime (localTime2Calendar localTime) = localTime := by
  obtain ⟨-, -, hdays⟩ := civilDate_valid (documentedDays htime)
  simp only [calendar2LocalTime, localTime2Calendar, one_mul]
  rw [days2Date_eq (documentedDays htime), hdays, timeOfDay_units, truncate_intCast, Int.mul_comm]
  exact Int.mul_tdiv_add_tmod localTime DAYS

/-- A part of a second, of an amount of units that is not negative. -/
theorem sec_bounds {seconds rest : Int} (hseconds : 0 ≤ seconds) (hseconds' : seconds < 60)
    (hrest : 0 ≤ rest) (hrest' : rest < SECONDS) :
    0 ≤ (seconds : ℚ) + rest / (1.0 * (SECONDS : ℚ)) ∧
      (seconds : ℚ) + rest / (1.0 * (SECONDS : ℚ)) < 60 := by
  have hfactor : (1.0 : ℚ) * (SECONDS : ℚ) = SECONDS := by norm_num
  have hpos : (0 : ℚ) < SECONDS := by norm_num [SECONDS_eq]
  have hsecondsRat : (seconds : ℚ) + 1 ≤ 60 := by exact_mod_cast hseconds'
  have hnonneg : (0 : ℚ) ≤ seconds := by exact_mod_cast hseconds
  have hrestRat : (rest : ℚ) < SECONDS := by exact_mod_cast hrest'
  have hpart : (rest : ℚ) / SECONDS < 1 := (div_lt_one hpos).mpr hrestRat
  have hpartNonneg : (0 : ℚ) ≤ rest / SECONDS := by
    apply div_nonneg _ hpos.le
    exact_mod_cast hrest
  rw [hfactor]
  constructor <;> linarith

theorem localTime2Calendar_valid_iff {localTime : Int} (htime : DocumentedTime localTime) :
    (localTime2Calendar localTime).Valid ↔ 0 ≤ localTime ∨ DAYS ∣ localTime := by
  rw [← @tmod_nonneg_iff localTime DAYS (by decide)]
  have hunits := timeOfDay_units (localTime.tmod DAYS)
  constructor
  · rintro ⟨-, hhour, -, hmin, -, hsec, -⟩
    simp only [localTime2Calendar, one_mul] at hhour hmin hsec
    have hseconds : (0 : ℚ) ≤ (((localTime.tmod DAYS).tdiv HOURS * 60 +
        ((localTime.tmod DAYS).tdiv MINUTES).tmod 60) * 60 : Int) := by
      exact_mod_cast (by omega : (0 : Int) ≤ _)
    have hproduct : (0 : ℚ) ≤ (localTime.tmod DAYS : Int) := by
      rw [← hunits]
      apply mul_nonneg (add_nonneg hseconds hsec)
      norm_num [SECONDS_eq]
    exact_mod_cast hproduct
  · intro hnonneg
    have hlt := Int.tmod_lt_of_pos localTime (show 0 < DAYS by decide)
    obtain ⟨⟨hhour, hhourLt⟩, ⟨hmin, hminLt⟩, hseconds, hsecondsLt⟩ := timeOfDay_bounds hnonneg hlt
    have hrest := Int.tmod_nonneg SECONDS hnonneg
    have hrestLt := Int.tmod_lt_of_pos (localTime.tmod DAYS) (show 0 < SECONDS by decide)
    obtain ⟨hsec, hsecLt⟩ := sec_bounds hseconds hsecondsLt hrest hrestLt
    have hdate := (civilDate_valid (documentedDays htime)).1
    rw [← days2Date_eq (documentedDays htime)] at hdate
    simp only [localTime2Calendar, one_mul]
    exact ⟨hdate, hhour, hhourLt, hmin, hminLt, hsec, hsecLt⟩

/-! ### From the calendar to local time, and back -/

/-- Seconds that are a whole number of nanoseconds. -/
def WholeUnits (sec : ℚ) : Prop := ∃ units : Int, sec = units / (SECONDS : ℚ)

theorem wholeUnits_iff (sec : ℚ) :
    WholeUnits sec ↔ (⌊sec * (SECONDS : ℚ)⌋ : ℚ) / (SECONDS : ℚ) = sec := by
  have hne : (SECONDS : ℚ) ≠ 0 := by norm_num [SECONDS_eq]
  constructor
  · rintro ⟨units, rfl⟩
    rw [div_mul_cancel₀ _ hne, Int.floor_intCast]
  · intro hsame
    exact ⟨_, hsame.symm⟩

/-- Units of the day of a time of day. -/
def unitsOfDay (calendar : Calendar) : Int :=
  (calendar.hour * 60 + calendar.min) * 60 * SECONDS + ⌊calendar.sec * (SECONDS : ℚ)⌋

theorem partOfMinute_bounds {calendar : Calendar} (hvalid : calendar.Valid) :
    0 ≤ ⌊calendar.sec * (SECONDS : ℚ)⌋ ∧ ⌊calendar.sec * (SECONDS : ℚ)⌋ < 60 * SECONDS := by
  have hpos : (0 : ℚ) < SECONDS := by norm_num [SECONDS_eq]
  constructor
  · exact Int.floor_nonneg.mpr (mul_nonneg hvalid.sec_nonneg hpos.le)
  · rw [Int.floor_lt]
    push_cast
    exact mul_lt_mul_of_pos_right hvalid.sec_lt hpos

theorem unitsOfDay_bounds {calendar : Calendar} (hvalid : calendar.Valid) :
    0 ≤ unitsOfDay calendar ∧ unitsOfDay calendar < DAYS := by
  obtain ⟨hpart, hpartLt⟩ := partOfMinute_bounds hvalid
  obtain ⟨-, hhour, hhourLt, hmin, hminLt, -, -⟩ := hvalid
  rw [SECONDS_eq] at hpart hpartLt
  rw [unitsOfDay, DAYS_eq, SECONDS_eq]
  omega

theorem calendar2LocalTime_eq {calendar : Calendar} (hvalid : calendar.Valid) :
    calendar2LocalTime calendar = daysFrom2000 calendar.toDate * DAYS + unitsOfDay calendar := by
  have hunits : (((calendar.hour * 60 + calendar.min) * 60 : Int) + calendar.sec) * (SECONDS : ℚ) =
      ((calendar.hour * 60 + calendar.min) * 60 * SECONDS : Int) +
        calendar.sec * (SECONDS : ℚ) := by
    push_cast
    ring
  have hfloor : ⌊(((calendar.hour * 60 + calendar.min) * 60 : Int) + calendar.sec) *
      (SECONDS : ℚ)⌋ = unitsOfDay calendar := by
    rw [hunits, Int.floor_intCast_add, unitsOfDay]
  rw [calendar2LocalTime, truncate_of_nonneg, hfloor]
  exact Int.floor_nonneg.mp (hfloor ▸ (unitsOfDay_bounds hvalid).1)

/-- The time of day comes back, cut off to whole units. -/
theorem timeOfDay_unitsOfDay {calendar : Calendar} (hvalid : calendar.Valid) :
    (unitsOfDay calendar).tdiv HOURS = calendar.hour ∧
      ((unitsOfDay calendar).tdiv MINUTES).tmod 60 = calendar.min ∧
      (((unitsOfDay calendar).tdiv SECONDS).tmod 60 : Int) +
        ((unitsOfDay calendar).tmod SECONDS : Int) / (1.0 * (SECONDS : ℚ)) =
          (⌊calendar.sec * (SECONDS : ℚ)⌋ : ℚ) / (SECONDS : ℚ) := by
  obtain ⟨hnonneg, -⟩ := unitsOfDay_bounds hvalid
  obtain ⟨hpart, hpartLt⟩ := partOfMinute_bounds hvalid
  obtain ⟨-, hhour, hhourLt, hmin, hminLt, -, -⟩ := hvalid
  have hdivided (part : Int) (hdivisor : 0 < part) : 0 ≤ (unitsOfDay calendar).tdiv part :=
    Int.tdiv_nonneg hnonneg hdivisor.le
  rw [Int.tmod_eq_emod_of_nonneg (hdivided MINUTES (by decide)),
    Int.tmod_eq_emod_of_nonneg (hdivided SECONDS (by decide)), Int.tmod_eq_emod_of_nonneg hnonneg]
  simp only [Int.tdiv_eq_ediv_of_nonneg hnonneg]
  simp only [unitsOfDay, SECONDS_eq, MINUTES_eq, HOURS_eq]
  rw [SECONDS_eq] at hpart hpartLt
  generalize ⌊calendar.sec * ((1000000000 : Int) : ℚ)⌋ = part at hpart hpartLt ⊢
  refine ⟨by omega, by omega, ?_⟩
  have hseconds : ((calendar.hour * 60 + calendar.min) * 60 * 1000000000 + part) / 1000000000 % 60 =
      part / 1000000000 := by omega
  have hrest : ((calendar.hour * 60 + calendar.min) * 60 * 1000000000 + part) % 1000000000 =
      part % 1000000000 := by omega
  have hpartRat : ((1000000000 * (part / 1000000000) + part % 1000000000 : Int) : ℚ) = part :=
    congrArg Int.cast (Int.mul_ediv_add_emod part 1000000000)
  have hfactor : (1.0 : ℚ) * ((1000000000 : Int) : ℚ) = 1000000000 := by norm_num
  rw [hseconds, hrest, hfactor, ← hpartRat]
  push_cast
  ring

theorem daysFrom2000_nonneg_iff {date : Date} (hvalid : date.Valid) (hdate : DocumentedDate date) :
    0 ≤ daysFrom2000 date ↔ 2000 ≤ date.year := by
  obtain ⟨year, month, day⟩ := date
  obtain ⟨hmonth, hmonthLe, hday, hdayLe⟩ := hvalid
  simp only [DocumentedDate] at hmonth hmonthLe hday hdayLe hdate
  rw [daysFrom2000_eq (by simp only; omega) hmonth]
  simp only
  interval_cases month
  all_goals
    simp [daysInMonth] at hdayLe
    omega

theorem unitsOfDay_eq_zero_iff {calendar : Calendar} (hvalid : calendar.Valid)
    (hwhole : WholeUnits calendar.sec) :
    unitsOfDay calendar = 0 ↔ calendar.hour = 0 ∧ calendar.min = 0 ∧ calendar.sec = 0 := by
  obtain ⟨hpart, hpartLt⟩ := partOfMinute_bounds hvalid
  obtain ⟨-, hhour, -, hmin, -, -, -⟩ := hvalid
  rw [wholeUnits_iff] at hwhole
  rw [unitsOfDay, SECONDS_eq] at *
  constructor
  · intro hnone
    refine ⟨by omega, by omega, ?_⟩
    have hnonePart : ⌊calendar.sec * ((1000000000 : Int) : ℚ)⌋ = 0 := by omega
    rw [← hwhole, hnonePart]
    simp
  · rintro ⟨hhour, hmin, hsec⟩
    rw [hhour, hmin, hsec]
    simp

theorem daysOf_localTime {days units : Int} (hlow : 0 ≤ units) (hhigh : units < DAYS)
    (hdays : 0 ≤ days ∨ units = 0) :
    (days * DAYS + units).tdiv DAYS = days ∧ (days * DAYS + units).tmod DAYS = units := by
  obtain ⟨hsum, hnonneg, hnonpos⟩ := @tdiv_tmod_spec (days * DAYS + units) DAYS (by decide)
  rw [DAYS_eq] at *
  omega

theorem daysOf_negative {days units : Int} (hlow : 0 < units) (hhigh : units < DAYS)
    (hdays : days < 0) : (days * DAYS + units).tdiv DAYS = days + 1 := by
  obtain ⟨hsum, hnonneg, hnonpos⟩ := @tdiv_tmod_spec (days * DAYS + units) DAYS (by decide)
  rw [DAYS_eq] at *
  omega

/-- From the epoch on, or at the beginning of a day, the date and the whole units come back. -/
theorem localTime2Calendar_of_days {calendar : Calendar} (hvalid : calendar.Valid)
    (hdate : DocumentedDate calendar.toDate)
    (hdays : 0 ≤ daysFrom2000 calendar.toDate ∨ unitsOfDay calendar = 0) :
    localTime2Calendar (calendar2LocalTime calendar) =
      { calendar with sec := (⌊calendar.sec * (SECONDS : ℚ)⌋ : ℚ) / (SECONDS : ℚ) } := by
  obtain ⟨hlow, hhigh⟩ := unitsOfDay_bounds hvalid
  obtain ⟨hquotient, hrest⟩ := daysOf_localTime hlow hhigh hdays
  obtain ⟨hhour, hmin, hsec⟩ := timeOfDay_unitsOfDay hvalid
  obtain ⟨hsame, hdocumented⟩ := civilDate_daysFrom2000 hvalid.date hdate
  rw [calendar2LocalTime_eq hvalid]
  simp only [localTime2Calendar, one_mul, hquotient, hrest, hhour, hmin, hsec]
  rw [days2Date_eq hdocumented, hsame]

/-- Behind the beginning of a day before the epoch, the date is the one of the next day. -/
theorem localTime2Calendar_next {calendar : Calendar} (hvalid : calendar.Valid)
    (hdate : DocumentedDate calendar.toDate) (hdays : daysFrom2000 calendar.toDate < 0)
    (hunits : unitsOfDay calendar ≠ 0) :
    (localTime2Calendar (calendar2LocalTime calendar)).toDate = calendar.toDate.next := by
  obtain ⟨hlow, hhigh⟩ := unitsOfDay_bounds hvalid
  obtain ⟨hsame, hdocumented⟩ := civilDate_daysFrom2000 hvalid.date hdate
  have hnext : DocumentedDays (daysFrom2000 calendar.toDate + 1) := by
    unfold DocumentedDays at *
    omega
  rw [calendar2LocalTime_eq hvalid, localTime2Calendar, one_mul,
    daysOf_negative (by omega) hhigh hdays]
  simp only
  rw [days2Date_eq hnext, civilDate_next hdocumented hnext, hsame]

theorem localTime2Calendar_calendar2LocalTime_iff {calendar : Calendar} (hvalid : calendar.Valid)
    (hdate : DocumentedDate calendar.toDate) :
    localTime2Calendar (calendar2LocalTime calendar) = calendar ↔
      WholeUnits calendar.sec ∧ (2000 ≤ calendar.year ∨
        calendar.hour = 0 ∧ calendar.min = 0 ∧ calendar.sec = 0) := by
  by_cases hdays : 0 ≤ daysFrom2000 calendar.toDate ∨ unitsOfDay calendar = 0
  · rw [localTime2Calendar_of_days hvalid hdate hdays]
    rw [daysFrom2000_nonneg_iff hvalid.date hdate] at hdays
    constructor
    · intro hsame
      have hwhole : WholeUnits calendar.sec :=
        (wholeUnits_iff calendar.sec).mpr (congrArg Calendar.sec hsame)
      exact ⟨hwhole, hdays.imp_right (unitsOfDay_eq_zero_iff hvalid hwhole).mp⟩
    · rintro ⟨hwhole, -⟩
      rw [(wholeUnits_iff calendar.sec).mp hwhole]
  · obtain ⟨hbefore, hunits⟩ := not_or.mp hdays
    constructor
    · intro hsame
      have hnext := localTime2Calendar_next hvalid hdate (by omega) hunits
      rw [hsame] at hnext
      exact absurd hnext.symm (Date.next_ne calendar.toDate)
    · rintro ⟨hwhole, hlater | hbeginning⟩
      · exact absurd ((daysFrom2000_nonneg_iff hvalid.date hdate).mpr hlater) hbefore
      · exact absurd ((unitsOfDay_eq_zero_iff hvalid hwhole).mpr hbeginning) hunits

/-- A date of the range has a local time of the range. -/
theorem calendar2LocalTime_documented {calendar : Calendar} (hvalid : calendar.Valid)
    (hdate : DocumentedDate calendar.toDate) : DocumentedTime (calendar2LocalTime calendar) := by
  obtain ⟨hlow, hhigh⟩ := unitsOfDay_bounds hvalid
  obtain ⟨-, hfirst, hlast⟩ := civilDate_daysFrom2000 hvalid.date hdate
  rw [calendar2LocalTime_eq hvalid]
  rw [DocumentedTime, DAYS_eq] at *
  omega

/-- The local times of the range are `int64_t`. -/
theorem documentedTime_fits {localTime : Int} (htime : DocumentedTime localTime) :
    -2 ^ 63 ≤ localTime ∧ localTime < 2 ^ 63 := by
  rw [DocumentedTime, DAYS_eq] at htime
  omega

/-- Local times are converted to valid dates and times exactly from the epoch on and at the
beginnings of days, and these, in whole nanoseconds, are what comes back from local time. -/
theorem calendar_inverse_iff {localTime : Int} (htime : DocumentedTime localTime)
    {calendar : Calendar} (hvalid : calendar.Valid) (hdate : DocumentedDate calendar.toDate) :
    ((localTime2Calendar localTime).Valid ∧
        calendar2LocalTime (localTime2Calendar localTime) = localTime ↔
      0 ≤ localTime ∨ DAYS ∣ localTime) ∧
    (localTime2Calendar (calendar2LocalTime calendar) = calendar ↔
      WholeUnits calendar.sec ∧ (2000 ≤ calendar.year ∨
        calendar.hour = 0 ∧ calendar.min = 0 ∧ calendar.sec = 0)) := by
  constructor
  · rw [localTime2Calendar_valid_iff htime]
    exact and_iff_left (calendar2LocalTime_localTime2Calendar htime)
  · exact localTime2Calendar_calendar2LocalTime_iff hvalid hdate

theorem calendar_inverse_iff_epoch :
    ((localTime2Calendar 0).Valid ∧ calendar2LocalTime (localTime2Calendar 0) = 0 ↔
      0 ≤ (0 : Int) ∨ DAYS ∣ 0) ∧
    (localTime2Calendar (calendar2LocalTime ⟨⟨2000, 2, 29⟩, 12, 30, 15⟩) =
        ⟨⟨2000, 2, 29⟩, 12, 30, 15⟩ ↔
      WholeUnits 15 ∧ ((2000 : Int) ≤ 2000 ∨ (12 : Int) = 0 ∧ (30 : Int) = 0 ∧ (15 : ℚ) = 0)) :=
  @calendar_inverse_iff 0 ⟨by decide, by decide⟩ ⟨⟨2000, 2, 29⟩, 12, 30, 15⟩
    ⟨⟨by decide, by decide, by decide, by decide⟩, by decide, by decide, by decide, by decide,
      by norm_num, by norm_num⟩
    ⟨.inl (by decide), .inl (by decide)⟩

/-- One hour before the epoch is hour -1 of the day behind it. -/
theorem hour_before_epoch :
    let calendar : Calendar := ⟨⟨1999, 12, 31⟩, 23, 0, 0⟩
    (DocumentedTime (-HOURS) ∧ ¬ (localTime2Calendar (-HOURS)).Valid) ∧
      calendar.Valid ∧ DocumentedDate calendar.toDate ∧
        localTime2Calendar (calendar2LocalTime calendar) ≠ calendar := by
  intro calendar
  have hvalid : calendar.Valid :=
    ⟨⟨by decide, by decide, by decide, by decide⟩, by decide, by decide, by decide, by decide,
      le_refl 0, by norm_num [calendar]⟩
  have hdate : DocumentedDate calendar.toDate := ⟨.inl (by decide), .inl (by decide)⟩
  refine ⟨⟨⟨by decide, by decide⟩, ?_⟩, hvalid, hdate, ?_⟩
  · intro hinvalid
    exact absurd hinvalid.hour_nonneg (by decide)
  · intro hsame
    obtain ⟨-, hlater | ⟨hnone, -⟩⟩ :=
      (localTime2Calendar_calendar2LocalTime_iff hvalid hdate).mp hsame
    · exact absurd hlater (by decide)
    · exact absurd hnone (by decide)

end Rodos.Time
