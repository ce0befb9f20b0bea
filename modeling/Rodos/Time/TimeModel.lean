import Rodos.Library.Grid

/-! Beats: points in time that follow each other with a constant period. -/
namespace Rodos.Time
open Library

def END_OF_TIME : Int64 := 0x7FFFFFFFFFFFFFFF

def computeNextBeat (begin period timeNow : Int64) : Int64 :=
  if ¬ begin ≥ 0 then END_OF_TIME
  else if ¬ period ≥ 0 then END_OF_TIME
  else if ¬ timeNow ≥ 0 then END_OF_TIME
  else if begin > timeNow then begin
  else if period = 0 then END_OF_TIME
  else if period ≥ END_OF_TIME - begin then END_OF_TIME
  else ((timeNow - begin) / period + 1) * period + begin

theorem toInt_END_OF_TIME : END_OF_TIME.toInt = 2 ^ 63 - 1 := rfl

/-- An operation whose exact result fits into 64 bits does not wrap around. -/
theorem bmod_of_fits {value : Int} (hlow : 0 ≤ value) (hhigh : value ≤ END_OF_TIME.toInt) :
    value.bmod (2 ^ 64) = value := by
  rw [toInt_END_OF_TIME] at hhigh
  apply Int.bmod_eq_of_le <;> omega

/-- The sums and products of `computeNextBeat` stay below the end of time. -/
def BeatFits (begin period timeNow : Int64) : Prop :=
  Grid.nextAfter begin.toInt period.toInt timeNow.toInt ≤ END_OF_TIME.toInt

instance (begin period timeNow : Int64) : Decidable (BeatFits begin period timeNow) :=
  inferInstanceAs (Decidable (_ ≤ _))

section beat

variable {begin period timeNow : Int64}

theorem toInt_elapsed (hbegin : 0 ≤ begin.toInt) (hdue : begin.toInt ≤ timeNow.toInt) :
    (timeNow - begin).toInt = timeNow.toInt - begin.toInt := by
  rw [Int64.toInt_sub]
  exact bmod_of_fits (by omega) (Int.le_trans (by omega) timeNow.toInt_le)

theorem elapsed_periods_nonneg (hperiod : 0 < period.toInt) (hdue : begin.toInt ≤ timeNow.toInt) :
    0 ≤ (timeNow.toInt - begin.toInt) / period.toInt :=
  Int.ediv_nonneg (by omega) (by omega)

/-- There are at most as many periods up to a point as there are units of time. -/
theorem elapsed_periods_le (hperiod : 0 < period.toInt) (hdue : begin.toInt ≤ timeNow.toInt) :
    (timeNow.toInt - begin.toInt) / period.toInt + 1 ≤
      ((timeNow.toInt - begin.toInt) / period.toInt + 1) * period.toInt := by
  have hcount := elapsed_periods_nonneg hperiod hdue
  have hproduct : 1 * ((timeNow.toInt - begin.toInt) / period.toInt + 1) ≤
      period.toInt * ((timeNow.toInt - begin.toInt) / period.toInt + 1) :=
    Int.mul_le_mul_of_nonneg_right (by omega) (by omega)
  rwa [Int.mul_comm period.toInt, Int.one_mul] at hproduct

theorem toInt_elapsed_periods (hbegin : 0 ≤ begin.toInt) (hperiod : 0 < period.toInt)
    (hdue : begin.toInt ≤ timeNow.toInt) :
    ((timeNow - begin) / period).toInt = (timeNow.toInt - begin.toInt) / period.toInt := by
  have htime : timeNow.toInt ≤ END_OF_TIME.toInt := timeNow.toInt_le
  have hle : (timeNow.toInt - begin.toInt) / period.toInt ≤ timeNow.toInt - begin.toInt :=
    Int.ediv_le_self _ (by omega)
  rw [Int64.toInt_div, toInt_elapsed hbegin hdue, Int.tdiv_eq_ediv_of_nonneg (by omega)]
  exact bmod_of_fits (elapsed_periods_nonneg hperiod hdue) (by omega)

theorem BeatFits.toInt_count (h : BeatFits begin period timeNow) (hbegin : 0 ≤ begin.toInt)
    (hperiod : 0 < period.toInt) (hdue : begin.toInt ≤ timeNow.toInt) :
    ((timeNow - begin) / period + 1).toInt =
      (timeNow.toInt - begin.toInt) / period.toInt + 1 := by
  have hone : (1 : Int64).toInt = 1 := rfl
  have hcount := elapsed_periods_nonneg hperiod hdue
  have hproduct := elapsed_periods_le hperiod hdue
  rw [BeatFits, Grid.nextAfter] at h
  rw [Int64.toInt_add, toInt_elapsed_periods hbegin hperiod hdue, hone]
  exact bmod_of_fits (by omega) (by omega)

theorem BeatFits.toInt_whole (h : BeatFits begin period timeNow) (hbegin : 0 ≤ begin.toInt)
    (hperiod : 0 < period.toInt) (hdue : begin.toInt ≤ timeNow.toInt) :
    (((timeNow - begin) / period + 1) * period).toInt =
      ((timeNow.toInt - begin.toInt) / period.toInt + 1) * period.toInt := by
  have hcount := elapsed_periods_nonneg hperiod hdue
  have hproduct := elapsed_periods_le hperiod hdue
  rw [Int64.toInt_mul, h.toInt_count hbegin hperiod hdue]
  rw [BeatFits, Grid.nextAfter] at h
  exact bmod_of_fits (by omega) (by omega)

theorem BeatFits.toInt_beat (h : BeatFits begin period timeNow) (hbegin : 0 ≤ begin.toInt)
    (hperiod : 0 < period.toInt) (hdue : begin.toInt ≤ timeNow.toInt) :
    (((timeNow - begin) / period + 1) * period + begin).toInt =
      Grid.nextAfter begin.toInt period.toInt timeNow.toInt := by
  have hcount := elapsed_periods_nonneg hperiod hdue
  have hproduct := elapsed_periods_le hperiod hdue
  rw [Int64.toInt_add, h.toInt_whole hbegin hperiod hdue]
  rw [BeatFits, Grid.nextAfter] at h
  exact bmod_of_fits (by omega) h

/-- Behind the begin of the beats, the next beat is computed as far as it can be represented. -/
theorem BeatFits.toInt_computeNextBeat (h : BeatFits begin period timeNow)
    (hbegin : 0 ≤ begin.toInt) (hperiod : 0 < period.toInt)
    (hdue : begin.toInt ≤ timeNow.toInt) :
    (computeNextBeat begin period timeNow).toInt =
      Grid.nextAfter begin.toInt period.toInt timeNow.toInt := by
  have hzero : (0 : Int64).toInt = 0 := rfl
  have hnotBegin : ¬ ¬ begin ≥ 0 := not_not_intro (Int64.le_iff_toInt_le.mpr hbegin)
  have hnotPeriod : ¬ ¬ period ≥ 0 :=
    not_not_intro (Int64.le_iff_toInt_le.mpr (Int.le_of_lt hperiod))
  have hnotNow : ¬ ¬ timeNow ≥ 0 :=
    not_not_intro (Int64.le_iff_toInt_le.mpr (Int.le_trans hbegin hdue))
  have hnotLater : ¬ begin > timeNow := fun hlater =>
    Int.not_lt.mpr hdue (Int64.lt_iff_toInt_lt.mp hlater)
  have hnotZero : ¬ period = 0 := fun hnone => by
    rw [hnone, hzero] at hperiod
    exact Int.lt_irrefl 0 hperiod
  rw [computeNextBeat, if_neg hnotBegin, if_neg hnotPeriod, if_neg hnotNow, if_neg hnotLater,
    if_neg hnotZero]
  split
  · next hguard =>
    -- The guard rejects no beat but the one at the end of time, which it returns.
    have hnext := Grid.add_period_le_nextAfter hperiod hdue
    have hroom : (END_OF_TIME - begin).toInt = END_OF_TIME.toInt - begin.toInt := by
      have hle := begin.toInt_le
      rw [Int64.toInt_sub]
      exact bmod_of_fits (Int.sub_nonneg_of_le hle) (by omega)
    rw [ge_iff_le, Int64.le_iff_toInt_le, hroom] at hguard
    rw [BeatFits] at h
    omega
  · exact h.toInt_beat hbegin hperiod hdue

end beat

end Rodos.Time
