import Rodos.BareMetal.FindNextToRun
import Rodos.Time.NextBeat
import Rodos.Time.TimeEvent

/-! The interval that the scheduler programs into the timer: not shorter than the spacing of the
ticks, and over in time for everything that is due next. -/
namespace Rodos.Time.TimeEvent

/-- One turn of the loop of `getNextTriggerTime`. -/
def considerTrigger (nextTriggerTime : Int64) (iter : TimeEvent) : Int64 :=
  if iter.eventAt < nextTriggerTime then iter.eventAt else nextTriggerTime

def getNextTriggerTime (timeEventList : List TimeEvent) : Int64 :=
  timeEventList.foldl considerTrigger END_OF_TIME

theorem toInt_considerTrigger (nextTriggerTime : Int64) (iter : TimeEvent) :
    (considerTrigger nextTriggerTime iter).toInt =
      min nextTriggerTime.toInt iter.eventAt.toInt := by
  unfold considerTrigger
  split
  · next hless =>
    rw [Int64.lt_iff_toInt_lt] at hless
    omega
  · next hnot =>
    rw [Int64.lt_iff_toInt_lt] at hnot
    omega

/-- The trigger time is that of one of the events or the first value, and no event is before it. -/
theorem foldl_considerTrigger (events : List TimeEvent) (nextTriggerTime : Int64) :
    (events.foldl considerTrigger nextTriggerTime).toInt ≤ nextTriggerTime.toInt ∧
      ∀ event ∈ events, (events.foldl considerTrigger nextTriggerTime).toInt ≤
        event.eventAt.toInt := by
  induction events generalizing nextTriggerTime with
  | nil => exact ⟨Int.le_refl _, fun event hevent => absurd hevent List.not_mem_nil⟩
  | cons iter events ih =>
    obtain ⟨hstart, hevents⟩ := ih (considerTrigger nextTriggerTime iter)
    rw [toInt_considerTrigger] at hstart
    rw [List.foldl_cons]
    refine ⟨by omega, fun event hevent => ?_⟩
    obtain rfl | hlater := List.mem_cons.mp hevent
    · omega
    · exact hevents event hlater

end Rodos.Time.TimeEvent

namespace Rodos.BareMetal
open Library Time

def MIN_SYS_TICK_SPACING : Int := 500 * 1000

/-- The microseconds that are passed to `Timer::setInterval`; `timeNow` is what `NOW()` returns. -/
def updateTriggerToNextTimingEvent
    (timeNow nextSchedulingEventTime nextTimeEventTriggerTime : Int) : Int :=
  let reactivationTime := min nextSchedulingEventTime nextTimeEventTriggerTime
  let nextOfNextBeat := computeNextBeat 0 (Int64.ofInt MIN_SYS_TICK_SPACING)
    (Int64.ofInt (timeNow + MIN_SYS_TICK_SPACING))
  let reactivationTime := max reactivationTime nextOfNextBeat.toInt
  let intervalInNanoSecs := reactivationTime - timeNow
  intervalInNanoSecs.tdiv 1000 -- nanoseconds to microseconds

/-- The exact results of the operations on times up to the call of `setInterval`. -/
def triggerResults (timeNow nextSchedulingEventTime nextTimeEventTriggerTime : Int) : List Int :=
  let reactivationTime := min nextSchedulingEventTime nextTimeEventTriggerTime
  let nextOfNextBeat := computeNextBeat 0 (Int64.ofInt MIN_SYS_TICK_SPACING)
    (Int64.ofInt (timeNow + MIN_SYS_TICK_SPACING))
  let reactivationTime := max reactivationTime nextOfNextBeat.toInt
  [TIME_SLICE_FOR_SAME_PRIORITY + timeNow, timeNow + MIN_SYS_TICK_SPACING] ++
    exactResults 0 (Int64.ofInt MIN_SYS_TICK_SPACING)
      (Int64.ofInt (timeNow + MIN_SYS_TICK_SPACING)) ++
    [reactivationTime - timeNow, (reactivationTime - timeNow).tdiv 1000]

namespace Kernel

/-- The search of `schedule`, which differs from `findNextToRun` in how it loads the fields. -/
def findNextToRunFromISR (kernel : Kernel) : ThreadId × Int := kernel.findNextToRun

/-- All of `Scheduler::schedule`, with the interval that it programs into the timer. -/
def scheduleAndTrigger (kernel : Kernel) (timeEventList : List TimeEvent) :
    ThreadId × Kernel × Int :=
  let (nextThreadToRun, after) := kernel.schedule
  let nextTimeEventTime := TimeEvent.getNextTriggerTime timeEventList
  (nextThreadToRun, after, updateTriggerToNextTimingEvent kernel.timeNow
    after.timeToTryAgainToSchedule nextTimeEventTime.toInt)

/-- When something is due: the end of the time slice, the threads that come before the one that is
selected once they wake up, and the time events. -/
def dueTimes (kernel : Kernel) (timeEventList : List TimeEvent) : List Int :=
  [kernel.timeNow + TIME_SLICE_FOR_SAME_PRIORITY] ++
    (kernel.threadList.filter fun thread =>
      kernel.WakesBefore kernel.findNextToRunFromISR.1 thread).map
        (fun thread => (kernel.thread thread).suspendedUntil) ++
    timeEventList.map fun event => event.eventAt.toInt

end Kernel

section interval

variable {timeNow : Int}

theorem exactResults_representable {begin period now : Int64} (hfits : BeatFits begin period now)
    (hbegin : 0 ≤ begin.toInt) (hperiod : 0 < period.toInt) (hdue : begin.toInt ≤ now.toInt) :
    ∀ value ∈ exactResults begin period now, Representable value := by
  have hend : begin.toInt ≤ Time.END_OF_TIME.toInt := begin.toInt_le
  have hnone : ∀ value ∈ ([] : List Int), Representable value :=
    fun value hvalue => absurd hvalue List.not_mem_nil
  have hguard : ∀ value ∈ [Time.END_OF_TIME.toInt - begin.toInt], Representable value := by
    rw [List.forall_mem_singleton]
    exact representable_of_bounds (by omega) (by omega)
  unfold exactResults
  split_ifs <;>
    first | exact hnone | exact hguard | exact hfits.representable hbegin hperiod hdue

theorem nextAfter_zero_le {period now : Int} (hperiod : 0 < period) :
    Grid.nextAfter 0 period now ≤ now + period := by
  have hmul := Int.ediv_mul_le now (Int.ne_of_gt hperiod)
  unfold Grid.nextAfter
  rw [Int.sub_zero, Int.add_mul, Int.one_mul]
  omega

/-- The beat behind the next one is one to two spacings away. -/
theorem nextOfNextBeat_bounds (hnow : 0 ≤ timeNow)
    (hspace : Representable (timeNow + 2 * MIN_SYS_TICK_SPACING)) :
    (timeNow + MIN_SYS_TICK_SPACING < (computeNextBeat 0 (Int64.ofInt MIN_SYS_TICK_SPACING)
        (Int64.ofInt (timeNow + MIN_SYS_TICK_SPACING))).toInt ∧
      (computeNextBeat 0 (Int64.ofInt MIN_SYS_TICK_SPACING)
        (Int64.ofInt (timeNow + MIN_SYS_TICK_SPACING))).toInt ≤
          timeNow + 2 * MIN_SYS_TICK_SPACING) ∧
      ∀ value ∈ exactResults 0 (Int64.ofInt MIN_SYS_TICK_SPACING)
        (Int64.ofInt (timeNow + MIN_SYS_TICK_SPACING)), Representable value := by
  have hspacing : MIN_SYS_TICK_SPACING = 500000 := rfl
  obtain ⟨_, hlimit⟩ := hspace
  have hzero : (0 : Int64).toInt = 0 := rfl
  have hperiod : (Int64.ofInt MIN_SYS_TICK_SPACING).toInt = MIN_SYS_TICK_SPACING :=
    Int64.toInt_ofInt_of_le (by omega) (by omega)
  have hlater : (Int64.ofInt (timeNow + MIN_SYS_TICK_SPACING)).toInt =
      timeNow + MIN_SYS_TICK_SPACING := Int64.toInt_ofInt_of_le (by omega) (by omega)
  have hpositive : 0 < (Int64.ofInt MIN_SYS_TICK_SPACING).toInt := by omega
  have hdue : (0 : Int64).toInt ≤ (Int64.ofInt (timeNow + MIN_SYS_TICK_SPACING)).toInt := by omega
  have hnext := @nextAfter_zero_le MIN_SYS_TICK_SPACING (timeNow + MIN_SYS_TICK_SPACING) (by omega)
  have hbehind := @Grid.lt_nextAfter 0 MIN_SYS_TICK_SPACING (timeNow + MIN_SYS_TICK_SPACING)
    (by omega)
  have hfits : BeatFits 0 (Int64.ofInt MIN_SYS_TICK_SPACING)
      (Int64.ofInt (timeNow + MIN_SYS_TICK_SPACING)) := by
    rw [BeatFits, hzero, hperiod, hlater, toInt_END_OF_TIME]
    omega
  refine ⟨?_, exactResults_representable hfits (Int.le_refl 0) hpositive hdue⟩
  rw [hfits.toInt_computeNextBeat (Int.le_refl 0) hpositive hdue, hzero, hperiod, hlater]
  exact ⟨hbehind, by omega⟩

theorem tdiv_bounds {interval : Int} (hinterval : 0 ≤ interval) :
    1000 * interval.tdiv 1000 ≤ interval ∧ interval < 1000 * interval.tdiv 1000 + 1000 := by
  rw [Int.tdiv_eq_ediv_of_nonneg hinterval]
  omega

/-- The interval for any two times: at least the spacing, over before the earlier of the times or
two spacings from now, and computed without overflow if the first time is representable. -/
theorem updateTrigger_bounds {nextSchedulingEventTime nextTimeEventTriggerTime : Int}
    (hnow : 0 ≤ timeNow) (hspace : Representable (timeNow + 2 * MIN_SYS_TICK_SPACING))
    (hslice : Representable (timeNow + TIME_SLICE_FOR_SAME_PRIORITY))
    (hscheduling : nextSchedulingEventTime ≤ timeNow + TIME_SLICE_FOR_SAME_PRIORITY) :
    let micros := updateTriggerToNextTimingEvent timeNow nextSchedulingEventTime
      nextTimeEventTriggerTime
    MIN_SYS_TICK_SPACING ≤ 1000 * micros ∧
      timeNow + 1000 * micros ≤ max (min nextSchedulingEventTime nextTimeEventTriggerTime)
        (timeNow + 2 * MIN_SYS_TICK_SPACING) ∧
      ∀ value ∈ triggerResults timeNow nextSchedulingEventTime nextTimeEventTriggerTime,
        Representable value := by
  obtain ⟨⟨hlow, hhigh⟩, hresults⟩ := nextOfNextBeat_bounds hnow hspace
  have hspacing : MIN_SYS_TICK_SPACING = 500000 := rfl
  have hlength : TIME_SLICE_FOR_SAME_PRIORITY = 100000000 := rfl
  obtain ⟨hspaceLow, hspaceHigh⟩ := hspace
  obtain ⟨hsliceLow, hsliceHigh⟩ := hslice
  unfold updateTriggerToNextTimingEvent triggerResults
  dsimp only
  generalize (computeNextBeat 0 (Int64.ofInt MIN_SYS_TICK_SPACING)
    (Int64.ofInt (timeNow + MIN_SYS_TICK_SPACING))).toInt = nextOfNextBeat at *
  have hinterval := @tdiv_bounds
    (max (min nextSchedulingEventTime nextTimeEventTriggerTime) nextOfNextBeat - timeNow)
    (by omega)
  refine ⟨by omega, by omega, ?_⟩
  rw [List.forall_mem_append, List.forall_mem_append]
  refine ⟨⟨?_, hresults⟩, ?_⟩
  · simp only [List.forall_mem_cons]
    exact ⟨⟨by omega, by omega⟩, ⟨by omega, by omega⟩, fun _ hnone => absurd hnone List.not_mem_nil⟩
  · simp only [List.forall_mem_cons]
    exact ⟨⟨by omega, by omega⟩, ⟨by omega, by omega⟩, fun _ hnone => absurd hnone List.not_mem_nil⟩

end interval

namespace Kernel

variable {kernel : Kernel}

theorem timeToTryAgain_schedule (hselect : kernel.preSelectedNextToRun = none) :
    kernel.schedule.2.timeToTryAgainToSchedule =
      min kernel.findNextToRunFromISR.2 (TIME_SLICE_FOR_SAME_PRIORITY + kernel.timeNow) := by
  unfold schedule findNextToRunFromISR checkStackViolations
  rw [hselect]
  dsimp only
  split <;> rfl

/-- Nothing that is due is before the two times that the timer is programmed with. -/
theorem trigger_le_dueTimes (hselect : kernel.preSelectedNextToRun = none)
    (timeEventList : List TimeEvent) :
    ∀ due ∈ kernel.dueTimes timeEventList,
      min kernel.schedule.2.timeToTryAgainToSchedule
        (TimeEvent.getNextTriggerTime timeEventList).toInt ≤ due := by
  rw [timeToTryAgain_schedule hselect]
  intro due hdue
  rw [dueTimes, List.mem_append, List.mem_append, List.mem_singleton] at hdue
  obtain (rfl | hthread) | hevent := hdue
  · omega
  · obtain ⟨thread, hmem, rfl⟩ := List.mem_map.mp hthread
    obtain ⟨hlisted, hwakes⟩ := List.mem_filter.mp hmem
    have hearliest := kernel.foldl_considerToRun_earliest kernel.threadList
      (idlethread, END_OF_TIME) thread hlisted (of_decide_eq_true hwakes)
    have hfound : kernel.findNextToRunFromISR.2 ≤ (kernel.thread thread).suspendedUntil := hearliest
    omega
  · obtain ⟨event, hmem, rfl⟩ := List.mem_map.mp hevent
    have htrigger := (TimeEvent.foldl_considerTrigger timeEventList Time.END_OF_TIME).2 event hmem
    have hevent : (TimeEvent.getNextTriggerTime timeEventList).toInt ≤ event.eventAt.toInt :=
      htrigger
    omega

/-- The interrupt that `schedule` programs comes at least one tick spacing later, and in time for
whatever is due first, unless that is within the next two spacings. -/
theorem schedule_triggers_in_time (kernel : Kernel) (timeEventList : List TimeEvent)
    (hselect : kernel.preSelectedNextToRun = none) (hnow : 0 ≤ kernel.timeNow)
    (hspace : Representable (kernel.timeNow + 2 * MIN_SYS_TICK_SPACING))
    (hslice : Representable (kernel.timeNow + TIME_SLICE_FOR_SAME_PRIORITY)) :
    let micros := (kernel.scheduleAndTrigger timeEventList).2.2
    MIN_SYS_TICK_SPACING ≤ 1000 * micros ∧
      (∃ earliest, (kernel.dueTimes timeEventList).min? = some earliest ∧
        kernel.timeNow + 1000 * micros ≤
          max earliest (kernel.timeNow + 2 * MIN_SYS_TICK_SPACING)) ∧
      ∀ value ∈ triggerResults kernel.timeNow kernel.schedule.2.timeToTryAgainToSchedule
        (TimeEvent.getNextTriggerTime timeEventList).toInt, Representable value := by
  intro micros
  have htry := timeToTryAgain_schedule hselect
  have hscheduling : kernel.schedule.2.timeToTryAgainToSchedule ≤
      kernel.timeNow + TIME_SLICE_FOR_SAME_PRIORITY := by omega
  obtain ⟨hmin, hmax, hresults⟩ := @updateTrigger_bounds kernel.timeNow _
    (TimeEvent.getNextTriggerTime timeEventList).toInt hnow hspace hslice hscheduling
  refine ⟨hmin, ?_, hresults⟩
  cases hearliest : (kernel.dueTimes timeEventList).min? with
  | none =>
    rw [List.min?_eq_none_iff] at hearliest
    simp [dueTimes] at hearliest
  | some earliest =>
    have hmem := (List.min?_eq_some_iff.mp hearliest).1
    have hbefore := trigger_le_dueTimes hselect timeEventList earliest hmem
    exact ⟨earliest, rfl, Int.le_trans hmax (by omega)⟩

/-- A thread that wakes up in 2 ms comes before the time slice of the idle thread is over. -/
theorem schedule_triggers_in_time_wakeup :
    MIN_SYS_TICK_SPACING ≤ 1000 * (Kernel.scheduleAndTrigger
      { threadList := [1], timeNow := 700000,
        thread := fun thread => if thread = 1 then { priority := 5, suspendedUntil := 2700000 }
          else {} } [{ id := 0, eventAt := 90000000 }]).2.2 := by
  exact (schedule_triggers_in_time
    { threadList := [1], timeNow := 700000,
      thread := fun thread => if thread = 1 then { priority := 5, suspendedUntil := 2700000 }
        else {} } [{ id := 0, eventAt := 90000000 }] rfl (by decide) (by decide) (by decide)).1

end Kernel

end Rodos.BareMetal
