import Mathlib.Logic.Function.Basic
import Mathlib.Tactic.Common

/-! Threads of the bare-metal kernel and the methods that read and change their scheduling state. -/
namespace Rodos.BareMetal

/-- Stands for `Thread*`. -/
abbrev ThreadId := Nat

/-- Stands for `void*`. -/
abbrev Address := Nat

def END_OF_TIME : Int := 0x7FFFFFFFFFFFFFFF
def TIME_SLICE_FOR_SAME_PRIORITY : Int := 100 * 1000000
def MAX_THREAD_PRIORITY : Int := 1000
def NETWORKREADER_PRIORITY : Int := MAX_THREAD_PRIORITY + 2
def CEILING_PRIORITY : Int := NETWORKREADER_PRIORITY + 1

structure Thread where
  priority : Int := 0
  suspendedUntil : Int := 0
  waitingFor : Option Address := none
  lastActivation : Nat := 0
  /-- Whether a look at the stack finds it overflowed. -/
  beyondStack : Bool := false

def idlethread : ThreadId := 0

structure Kernel where
  threadList : List ThreadId
  thread : ThreadId → Thread
  currentThread : ThreadId := idlethread
  /-- What `NOW()` returns. -/
  timeNow : Int
  scheduleCounter : Nat := 0
  timeToTryAgainToSchedule : Int := 0
  preSelectedNextToRun : Option ThreadId := none
  preSelectedEarliestSuspendedUntil : Int := END_OF_TIME

namespace Kernel

def modify (kernel : Kernel) (thread : ThreadId) (change : Thread → Thread) : Kernel :=
  { kernel with
    thread := Function.update kernel.thread thread (change (kernel.thread thread)) }

def getPriority (kernel : Kernel) (thread : ThreadId) : Int := (kernel.thread thread).priority

def setPriority (kernel : Kernel) (thread : ThreadId) (prio : Int) : Kernel :=
  kernel.modify thread fun self => { self with priority := prio }

/-- The previous priority and the kernel afterwards. -/
def setPrioCurrentRunner (kernel : Kernel) (newPrio : Int) : Int × Kernel :=
  (kernel.getPriority kernel.currentThread, kernel.setPriority kernel.currentThread newPrio)

def resume (kernel : Kernel) (thread : ThreadId) : Kernel :=
  { kernel with timeToTryAgainToSchedule := 0 }.modify thread fun self =>
    { self with waitingFor := none, suspendedUntil := 0 }

/-- The section of `suspendCallerUntil`; its ceiling begins and ends within this one step. -/
def suspendCaller (kernel : Kernel) (reactivationTime : Int) (signaler : Option Address) : Kernel :=
  kernel.modify kernel.currentThread fun self =>
    { self with waitingFor := signaler, suspendedUntil := reactivationTime }

/-- What `suspendCallerUntil` does after its `yield`. -/
def endWaiting (kernel : Kernel) : Kernel :=
  kernel.modify kernel.currentThread fun self => { self with waitingFor := none }

@[simp] theorem modify_same (kernel : Kernel) (thread : ThreadId) (change : Thread → Thread) :
    (kernel.modify thread change).thread thread = change (kernel.thread thread) := by
  simp [modify]

theorem modify_other (kernel : Kernel) (change : Thread → Thread) {thread other : ThreadId}
    (hne : other ≠ thread) : (kernel.modify thread change).thread other = kernel.thread other := by
  simp [modify, hne]

theorem thread_modify (kernel : Kernel) (thread other : ThreadId) (change : Thread → Thread) :
    (kernel.modify thread change).thread other =
      if other = thread then change (kernel.thread other) else kernel.thread other := by
  by_cases hsame : other = thread
  · subst hsame
    simp
  · simp [modify_other kernel change hsame, hsame]

@[simp] theorem modify_threadList (kernel : Kernel) (thread : ThreadId)
    (change : Thread → Thread) :
    (kernel.modify thread change).threadList = kernel.threadList := rfl

@[simp] theorem modify_currentThread (kernel : Kernel) (thread : ThreadId)
    (change : Thread → Thread) :
    (kernel.modify thread change).currentThread = kernel.currentThread := rfl

@[simp] theorem modify_timeNow (kernel : Kernel) (thread : ThreadId)
    (change : Thread → Thread) :
    (kernel.modify thread change).timeNow = kernel.timeNow := rfl

@[simp] theorem modify_scheduleCounter (kernel : Kernel) (thread : ThreadId)
    (change : Thread → Thread) :
    (kernel.modify thread change).scheduleCounter = kernel.scheduleCounter := rfl

theorem modify_eq_self {kernel : Kernel} {thread : ThreadId} {change : Thread → Thread}
    (hsame : change (kernel.thread thread) = kernel.thread thread) :
    kernel.modify thread change = kernel := by
  rw [modify, hsame, Function.update_eq_self]

theorem suspendedUntil_endWaiting (kernel : Kernel) (thread : ThreadId) :
    (kernel.endWaiting.thread thread).suspendedUntil = (kernel.thread thread).suspendedUntil := by
  rw [endWaiting, thread_modify]
  split <;> rfl

theorem priority_endWaiting (kernel : Kernel) (thread : ThreadId) :
    (kernel.endWaiting.thread thread).priority = (kernel.thread thread).priority := by
  rw [endWaiting, thread_modify]
  split <;> rfl

theorem suspendedUntil_suspendCaller (kernel : Kernel) (reactivationTime : Int)
    (signaler : Option Address) :
    ((kernel.suspendCaller reactivationTime signaler).thread
      kernel.currentThread).suspendedUntil = reactivationTime := by
  rw [suspendCaller, modify_same]

theorem suspendedUntil_suspendCaller_other {kernel : Kernel} (reactivationTime : Int)
    (signaler : Option Address) {thread : ThreadId} (hother : thread ≠ kernel.currentThread) :
    ((kernel.suspendCaller reactivationTime signaler).thread thread).suspendedUntil =
      (kernel.thread thread).suspendedUntil := by
  rw [suspendCaller, modify_other _ _ hother]

end Kernel

end Rodos.BareMetal
