import Mathlib.Data.Int.Notation
import Mathlib.Tactic.Common

/-! Days of the Gregorian calendar, and the day that follows one. -/
namespace Rodos.Library

def LeapYear (year : Int) : Prop := year % 4 = 0 ∧ (year % 100 ≠ 0 ∨ year % 400 = 0)

instance (year : Int) : Decidable (LeapYear year) := inferInstanceAs (Decidable (_ ∧ _))

def daysInMonth (year month : Int) : Int :=
  if month = 2 then (if LeapYear year then 29 else 28)
  else if month = 4 ∨ month = 6 ∨ month = 9 ∨ month = 11 then 30
  else 31

structure Date where
  year : Int
  month : Int
  day : Int
deriving DecidableEq

namespace Date

structure Valid (date : Date) : Prop where
  month_pos : 1 ≤ date.month
  month_le : date.month ≤ 12
  day_pos : 1 ≤ date.day
  day_le : date.day ≤ daysInMonth date.year date.month

def next (date : Date) : Date :=
  if date.day < daysInMonth date.year date.month then { date with day := date.day + 1 }
  else if date.month < 12 then { date with month := date.month + 1, day := 1 }
  else ⟨date.year + 1, 1, 1⟩

end Date

theorem daysInMonth_pos (year month : Int) : 28 ≤ daysInMonth year month := by
  unfold daysInMonth
  split_ifs <;> omega

theorem Date.Valid.next {date : Date} (hvalid : date.Valid) : date.next.Valid := by
  obtain ⟨hmonth, hmonthLe, hday, _⟩ := hvalid
  unfold Date.next
  split_ifs with hlater hyear
  · exact ⟨hmonth, hmonthLe, by simp only; omega, by simp only; omega⟩
  · have hdays := daysInMonth_pos date.year (date.month + 1)
    exact ⟨by simp only; omega, by simp only; omega, by simp only; omega, by simp only; omega⟩
  · exact ⟨by simp, by simp, by simp, by simp [daysInMonth]⟩

theorem Date.next_ne (date : Date) : date.next ≠ date := by
  intro hsame
  have hday := congrArg Date.day hsame
  have hmonth := congrArg Date.month hsame
  have hyear := congrArg Date.year hsame
  unfold Date.next at hday hmonth hyear
  split_ifs at hday hmonth hyear <;> simp only at hday hmonth hyear <;> omega

/-- In this range the only exception to the Julian rule is 2100. -/
theorem leapYear_iff {year : Int} (hlow : 1901 ≤ year) (hhigh : year ≤ 2100) :
    LeapYear year ↔ year % 4 = 0 ∧ year ≠ 2100 := by
  unfold LeapYear
  omega

end Rodos.Library
