import Rodos.Time.TimeModel

/-! `computeNextBeat` near the end of time: for which begins, periods and times the next beat is
what it should be, and none of its operations overflows. -/
namespace Rodos.Time
open Library

/-- What a next beat is: the begin as long as it lies ahead, then the first beat behind `timeNow`,
and the end of time where there is none. -/
def IsNextBeat (begin period timeNow result : Int64) : Prop :=
  if begin > timeNow then result = begin
  else if period = 0 then result = END_OF_TIME
  else
    IsLeast { beat ∈ Grid.points begin.toInt period.toInt | timeNow.toInt < beat } result.toInt ∨
      (∀ beat ∈ Grid.points begin.toInt period.toInt, timeNow.toInt < beat →
        END_OF_TIME.toInt < beat) ∧ result = END_OF_TIME

/-- The exact results of the operations that `computeNextBeat` executes. -/
def exactResults (begin period timeNow : Int64) : List Int :=
  if ¬ begin ≥ 0 then []
  else if ¬ period ≥ 0 then []
  else if ¬ timeNow ≥ 0 then []
  else if begin > timeNow then []
  else if period = 0 then []
  else if period ≥ END_OF_TIME - begin then [END_OF_TIME.toInt - begin.toInt]
  else
    [END_OF_TIME.toInt - begin.toInt, timeNow.toInt - begin.toInt,
      (timeNow - begin).toInt.tdiv period.toInt, ((timeNow - begin) / period).toInt + 1,
      ((timeNow - begin) / period + 1).toInt * period.toInt,
      (((timeNow - begin) / period + 1) * period).toInt + begin.toInt]

def Representable (value : Int) : Prop := -2 ^ 63 ≤ value ∧ value < 2 ^ 63

instance (value : Int) : Decidable (Representable value) := inferInstanceAs (Decidable (_ ∧ _))

/-- Some beat behind `timeNow` is still representable. -/
def BeforeLastBeat (begin period timeNow : Int64) : Prop :=
  timeNow.toInt < Grid.lastUpTo begin.toInt period.toInt END_OF_TIME.toInt

instance (begin period timeNow : Int64) : Decidable (BeforeLastBeat begin period timeNow) :=
  inferInstanceAs (Decidable (_ < _))

section beat

variable {begin period timeNow : Int64}

theorem representable_of_bounds {value : Int} (hlow : 0 ≤ value)
    (hhigh : value ≤ END_OF_TIME.toInt) : Representable value := by
  rw [toInt_END_OF_TIME] at hhigh
  exact ⟨by omega, by omega⟩

theorem beatFits_iff (hperiod : 0 < period.toInt) (hdue : begin.toInt ≤ timeNow.toInt) :
    BeatFits begin period timeNow ↔ BeforeLastBeat begin period timeNow :=
  Grid.nextAfter_le_iff hperiod hdue

theorem toInt_room (hbegin : 0 ≤ begin.toInt) :
    (END_OF_TIME - begin).toInt = END_OF_TIME.toInt - begin.toInt := by
  have hle : begin.toInt ≤ END_OF_TIME.toInt := begin.toInt_le
  rw [Int64.toInt_sub]
  exact bmod_of_fits (by omega) (by omega)

/-- The guard is passed over only when the beat behind the begin is representable. -/
theorem le_guard_iff (hbegin : 0 ≤ begin.toInt) :
    period ≥ END_OF_TIME - begin ↔ END_OF_TIME.toInt - begin.toInt ≤ period.toInt := by
  rw [ge_iff_le, Int64.le_iff_toInt_le, toInt_room hbegin]

/-- The guard returns the end of time only when the next beat is not before it. -/
theorem isNextBeat_of_guard (hbegin : 0 ≤ begin.toInt) (hperiod : 0 < period.toInt)
    (hdue : begin.toInt ≤ timeNow.toInt) (hguard : period ≥ END_OF_TIME - begin) :
    IsLeast { beat ∈ Grid.points begin.toInt period.toInt | timeNow.toInt < beat }
        END_OF_TIME.toInt ∨
      ∀ beat ∈ Grid.points begin.toInt period.toInt, timeNow.toInt < beat →
        END_OF_TIME.toInt < beat := by
  rw [le_guard_iff hbegin] at hguard
  have hnext := Grid.add_period_le_nextAfter hperiod hdue
  by_cases hend : Grid.nextAfter begin.toInt period.toInt timeNow.toInt = END_OF_TIME.toInt
  · left
    rw [← hend]
    exact Grid.isLeast_nextAfter hperiod hdue
  · right
    intro beat hbeat hlater
    have hle := Grid.nextAfter_le hperiod hbeat hlater
    omega

/-! ### Behind the guard -/

theorem BeatFits.representable (h : BeatFits begin period timeNow) (hbegin : 0 ≤ begin.toInt)
    (hperiod : 0 < period.toInt) (hdue : begin.toInt ≤ timeNow.toInt) :
    ∀ value ∈ [END_OF_TIME.toInt - begin.toInt, timeNow.toInt - begin.toInt,
      (timeNow - begin).toInt.tdiv period.toInt, ((timeNow - begin) / period).toInt + 1,
      ((timeNow - begin) / period + 1).toInt * period.toInt,
      (((timeNow - begin) / period + 1) * period).toInt + begin.toInt],
      Representable value := by
  have htime : timeNow.toInt ≤ END_OF_TIME.toInt := timeNow.toInt_le
  have hcount := elapsed_periods_nonneg hperiod hdue
  have hproduct := elapsed_periods_le hperiod hdue
  rw [toInt_elapsed hbegin hdue, Int.tdiv_eq_ediv_of_nonneg (by omega),
    toInt_elapsed_periods hbegin hperiod hdue, h.toInt_count hbegin hperiod hdue,
    h.toInt_whole hbegin hperiod hdue]
  rw [BeatFits, Grid.nextAfter] at h
  simp only [List.forall_mem_cons]
  refine ⟨?_, ?_, ?_, ?_, ?_, ?_, fun _ hnone => absurd hnone List.not_mem_nil⟩ <;>
    exact representable_of_bounds (by omega) (by omega)

/-- When no operation overflows, the sum that is returned is the next beat. -/
theorem beatFits_of_representable (hbegin : 0 ≤ begin.toInt) (hperiod : 0 < period.toInt)
    (hdue : begin.toInt ≤ timeNow.toInt)
    (hcount : Representable (((timeNow - begin) / period).toInt + 1))
    (hproduct : Representable (((timeNow - begin) / period + 1).toInt * period.toInt))
    (hsum : Representable ((((timeNow - begin) / period + 1) * period).toInt + begin.toInt)) :
    BeatFits begin period timeNow := by
  have hone : (1 : Int64).toInt = 1 := rfl
  have hcounted : ((timeNow - begin) / period + 1).toInt =
      ((timeNow - begin) / period).toInt + 1 := by
    rw [Int64.toInt_add, hone]
    exact Int.bmod_eq_of_le hcount.1 hcount.2
  have hmultiplied : (((timeNow - begin) / period + 1) * period).toInt =
      ((timeNow - begin) / period + 1).toInt * period.toInt := by
    rw [Int64.toInt_mul]
    exact Int.bmod_eq_of_le hproduct.1 hproduct.2
  rw [hmultiplied, hcounted, toInt_elapsed_periods hbegin hperiod hdue] at hsum
  rw [BeatFits, toInt_END_OF_TIME, Grid.nextAfter]
  exact Int.le_sub_one_of_lt hsum.2

theorem BeatFits.isNextBeat (h : BeatFits begin period timeNow) (hbegin : 0 ≤ begin.toInt)
    (hperiod : 0 < period.toInt) (hdue : begin.toInt ≤ timeNow.toInt) :
    IsLeast { beat ∈ Grid.points begin.toInt period.toInt | timeNow.toInt < beat }
      (((timeNow - begin) / period + 1) * period + begin).toInt := by
  rw [h.toInt_beat hbegin hperiod hdue]
  exact Grid.isLeast_nextAfter hperiod hdue

end beat

/-- On times from 0 on, the next beat is returned, without overflow, if and only if no beat has to
be computed or there is one up to the end of time. -/
theorem computeNextBeat_iff (begin period timeNow : Int64) (hbegin : begin ≥ 0)
    (hperiod : period ≥ 0) (htime : timeNow ≥ 0) :
    IsNextBeat begin period timeNow (computeNextBeat begin period timeNow) ∧
        (∀ value ∈ exactResults begin period timeNow, Representable value) ↔
      begin > timeNow ∨ period = 0 ∨ period ≥ END_OF_TIME - begin ∨
        BeforeLastBeat begin period timeNow := by
  have hzero : (0 : Int64).toInt = 0 := rfl
  have hbeginInt := Int64.le_iff_toInt_le.mp hbegin
  rw [hzero] at hbeginInt
  rw [IsNextBeat, computeNextBeat, exactResults, if_neg (not_not_intro hbegin),
    if_neg (not_not_intro hperiod), if_neg (not_not_intro htime), if_neg (not_not_intro hbegin),
    if_neg (not_not_intro hperiod), if_neg (not_not_intro htime)]
  by_cases hlater : begin > timeNow
  · simp [hlater]
  by_cases hnone : period = 0
  · simp [hlater, hnone]
  have hdue : begin.toInt ≤ timeNow.toInt :=
    Int.not_lt.mp fun hlt => hlater (Int64.lt_iff_toInt_lt.mpr hlt)
  have hperiodInt : 0 < period.toInt := by
    have hnonneg := Int64.le_iff_toInt_le.mp hperiod
    rw [hzero] at hnonneg
    apply lt_of_le_of_ne hnonneg
    intro hsame
    exact hnone (Int64.toInt_inj.mp (hsame.symm.trans hzero.symm))
  rw [if_neg hlater, if_neg hlater, if_neg hlater, if_neg hnone, if_neg hnone, if_neg hnone]
  by_cases hguard : period ≥ END_OF_TIME - begin
  · rw [if_pos hguard, if_pos hguard]
    refine ⟨fun _ => .inr (.inr (.inl hguard)), fun _ => ⟨?_, ?_⟩⟩
    · obtain hleast | hbehind := isNextBeat_of_guard hbeginInt hperiodInt hdue hguard
      · exact Or.inl hleast
      · exact Or.inr ⟨hbehind, rfl⟩
    · have hend : begin.toInt ≤ END_OF_TIME.toInt := begin.toInt_le
      simpa using representable_of_bounds (by omega) (by omega)
  · rw [if_neg hguard, if_neg hguard, ← beatFits_iff hperiodInt hdue]
    constructor
    · rintro ⟨-, hexact⟩
      simp only [List.forall_mem_cons] at hexact
      obtain ⟨-, -, -, hcount, hproduct, hsum, -⟩ := hexact
      exact .inr (.inr (.inr
        (beatFits_of_representable hbeginInt hperiodInt hdue hcount hproduct hsum)))
    · rintro (hfits | hfits | hfits | hfits)
      · exact absurd hfits hlater
      · exact absurd hfits hnone
      · exact absurd hfits hguard
      · exact ⟨.inl (hfits.isNextBeat hbeginInt hperiodInt hdue),
          hfits.representable hbeginInt hperiodInt hdue⟩

theorem computeNextBeat_iff_five :
    IsNextBeat 0 10 5 (computeNextBeat 0 10 5) ∧
        (∀ value ∈ exactResults 0 10 5, Representable value) ↔
      (0 : Int64) > 5 ∨ (10 : Int64) = 0 ∨ 10 ≥ END_OF_TIME - 0 ∨ BeforeLastBeat 0 10 5 :=
  computeNextBeat_iff 0 10 5 (by decide) (by decide) (by decide)

/-- Beats every 2 ^ 62 from 0 on, at two units before 2 ^ 63: the product is 2 ^ 63. -/
theorem computeNextBeat_wraps :
    ¬ IsNextBeat 0 4611686018427387904 9223372036854775806
        (computeNextBeat 0 4611686018427387904 9223372036854775806) ∧
      ¬ ∀ value ∈ exactResults 0 4611686018427387904 9223372036854775806,
        Representable value := by
  constructor
  · rw [IsNextBeat, if_neg (by decide), if_neg (by decide)]
    rintro (hleast | ⟨-, hend⟩)
    · exact absurd hleast.1.2 (by decide)
    · exact absurd hend (by decide)
  · decide

end Rodos.Time
