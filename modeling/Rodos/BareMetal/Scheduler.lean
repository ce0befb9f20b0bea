import Rodos.Library.Selection
import Rodos.BareMetal.Thread

/-! Which thread runs next: the searches through the thread list and the scheduler. -/
namespace Rodos.BareMetal
open Library

namespace Kernel

def earlier (a b : Int) : Int := if a < b then a else b

/-- One turn of the loop of `findNextToRun`: the choice so far and the earliest wakeup so far. -/
def considerToRun (kernel : Kernel) (found : ThreadId × Int) (iter : ThreadId) : ThreadId × Int :=
  let (nextThreadToRun, selectedEarliestSuspendedUntil) := found
  let iterSuspendedUntil := (kernel.thread iter).suspendedUntil
  let iterPrio := kernel.getPriority iter
  let nextThreadToRunPrio := kernel.getPriority nextThreadToRun
  if iterSuspendedUntil < kernel.timeNow then
    if iterPrio > nextThreadToRunPrio then (iter, selectedEarliestSuspendedUntil)
    else if iterPrio = nextThreadToRunPrio then
      if (kernel.thread iter).lastActivation < (kernel.thread nextThreadToRun).lastActivation then
        (iter, selectedEarliestSuspendedUntil)
      else found
    else found
  else if iterPrio ≥ nextThreadToRunPrio then
    (nextThreadToRun, earlier selectedEarliestSuspendedUntil iterSuspendedUntil)
  else found

def findNextToRun (kernel : Kernel) : ThreadId × Int :=
  kernel.threadList.foldl kernel.considerToRun (idlethread, END_OF_TIME)

/-- One turn of the loop of `findNextWaitingFor`. -/
def considerWaiter (kernel : Kernel) (signaler : Address) (nextWaiter iter : ThreadId) : ThreadId :=
  if (kernel.thread iter).waitingFor = some signaler then
    if kernel.getPriority iter > kernel.getPriority nextWaiter then iter
    else if kernel.getPriority iter = kernel.getPriority nextWaiter then
      if (kernel.thread iter).lastActivation < (kernel.thread nextWaiter).lastActivation then iter
      else nextWaiter
    else nextWaiter
  else nextWaiter

def findNextWaitingFor (kernel : Kernel) (signaler : Address) : Option ThreadId :=
  let nextWaiter := kernel.threadList.foldl (kernel.considerWaiter signaler) idlethread
  if nextWaiter = idlethread then none else some nextWaiter

/-- Whether the stack is violated, and the kernel with such a thread deactivated. -/
def checkStackViolations (kernel : Kernel) (thread : ThreadId) : Bool × Kernel :=
  if (kernel.thread thread).beyondStack then
    (true, kernel.modify thread fun self => { self with suspendedUntil := END_OF_TIME })
  else (false, kernel)

/-- `Scheduler::schedule`: the thread to run and the kernel afterwards. -/
def schedule (kernel : Kernel) : ThreadId × Kernel :=
  let scheduleCounter := kernel.scheduleCounter + 1
  let (nextThreadToRun, selectedEarliestSuspendedUntil) :=
    match kernel.preSelectedNextToRun with
    | some preselection => (preselection, kernel.preSelectedEarliestSuspendedUntil)
    | none => kernel.findNextToRun
  let (violated, kernel) := { kernel with
    scheduleCounter := scheduleCounter
    preSelectedNextToRun := none }.checkStackViolations nextThreadToRun
  let nextThreadToRun := if violated then idlethread else nextThreadToRun
  let kernel := kernel.modify nextThreadToRun fun self =>
    { self with lastActivation := scheduleCounter }
  (nextThreadToRun, { kernel with
    timeToTryAgainToSchedule :=
      min selectedEarliestSuspendedUntil (TIME_SLICE_FOR_SAME_PRIORITY + kernel.timeNow) })

/-- `activate` as far as the scheduling state goes. -/
def activate (kernel : Kernel) (thread : ThreadId) : Kernel :=
  { kernel with currentThread := thread }

def schedulerWrapper (kernel : Kernel) : Kernel :=
  if kernel.timeNow < kernel.timeToTryAgainToSchedule then kernel.activate kernel.currentThread
  else
    let (active_trd, kernel) := kernel.schedule
    kernel.activate active_trd

/-- `yield` when no timer tick calls the scheduler during its search. -/
def yield (kernel : Kernel) : Kernel :=
  let kernel := { kernel with timeToTryAgainToSchedule := 0 }
  let (preselection, selectedEarliestSuspendedUntil) := kernel.findNextToRun
  if preselection = kernel.currentThread then kernel
  else
    { kernel with
      preSelectedNextToRun := some preselection
      preSelectedEarliestSuspendedUntil := selectedEarliestSuspendedUntil }.schedulerWrapper

theorem yield_eq (kernel : Kernel) :
    kernel.yield =
      if kernel.findNextToRun.1 = kernel.currentThread then
        { kernel with timeToTryAgainToSchedule := 0 }
      else
        { kernel with
          timeToTryAgainToSchedule := 0
          preSelectedNextToRun := some kernel.findNextToRun.1
          preSelectedEarliestSuspendedUntil := kernel.findNextToRun.2 }.schedulerWrapper := rfl

/-- What a call of the scheduler that lets `next` run does to the kernel. -/
structure Switched (before after : Kernel) (next : ThreadId) : Prop where
  current_eq : after.currentThread = next
  threadList_eq : after.threadList = before.threadList
  timeNow_eq : after.timeNow = before.timeNow
  not_preselected : after.preSelectedNextToRun = none
  counter_eq : after.scheduleCounter = before.scheduleCounter + 1
  activated : (after.thread next).lastActivation = before.scheduleCounter + 1
  activated_other : ∀ other ≠ next,
    (after.thread other).lastActivation = (before.thread other).lastActivation
  priority_eq : ∀ thread, (after.thread thread).priority = (before.thread thread).priority
  waitingFor_eq : ∀ thread, (after.thread thread).waitingFor = (before.thread thread).waitingFor
  beyondStack_eq : ∀ thread,
    (after.thread thread).beyondStack = (before.thread thread).beyondStack
  suspended_eq : ∀ thread, (before.thread thread).beyondStack = false →
    (after.thread thread).suspendedUntil = (before.thread thread).suspendedUntil

/-- The thread that the scheduler takes unless its stack is violated. -/
def candidate (kernel : Kernel) : ThreadId :=
  kernel.preSelectedNextToRun.getD kernel.findNextToRun.1

theorem schedule_fst (kernel : Kernel) :
    kernel.schedule.1 =
      if (kernel.thread kernel.candidate).beyondStack then idlethread else kernel.candidate := by
  unfold schedule candidate checkStackViolations
  cases kernel.preSelectedNextToRun <;> grind

theorem schedule_switched (kernel : Kernel) :
    Switched kernel (kernel.schedule.2.activate kernel.schedule.1) kernel.schedule.1 := by
  unfold schedule checkStackViolations activate
  constructor <;> cases kernel.preSelectedNextToRun <;>
    grind [thread_modify, modify_threadList, modify_scheduleCounter, modify]

/-- Higher priority first, then the thread that has not run for the longest time. -/
def Precedes (kernel : Kernel) (left right : ThreadId) : Prop :=
  kernel.getPriority right < kernel.getPriority left ∨
    kernel.getPriority left = kernel.getPriority right ∧
      (kernel.thread left).lastActivation < (kernel.thread right).lastActivation

instance (kernel : Kernel) : DecidableRel kernel.Precedes :=
  fun _ _ => inferInstanceAs (Decidable (_ ∨ _))

theorem precedes_preference (kernel : Kernel) : IsPreference kernel.Precedes where
  asymmetric left right := by
    unfold Precedes
    omega
  between left middle right := by
    unfold Precedes
    omega

/-- Time for the thread has come. -/
def IsReady (kernel : Kernel) (thread : ThreadId) : Prop :=
  (kernel.thread thread).suspendedUntil < kernel.timeNow

instance (kernel : Kernel) : DecidablePred kernel.IsReady :=
  fun _ => inferInstanceAs (Decidable (_ < _))

theorem considerToRun_fst (kernel : Kernel) (found : ThreadId × Int) (iter : ThreadId) :
    (kernel.considerToRun found iter).1 =
      if kernel.IsReady iter ∧ kernel.Precedes iter found.1 then iter else found.1 := by
  unfold considerToRun IsReady Precedes
  grind

theorem considerWaiter_eq (kernel : Kernel) (signaler : Address) (nextWaiter iter : ThreadId) :
    kernel.considerWaiter signaler nextWaiter iter =
      if (kernel.thread iter).waitingFor = some signaler ∧ kernel.Precedes iter nextWaiter then iter
      else nextWaiter := by
  unfold considerWaiter Precedes
  grind

/-- The search for the next thread is a choice among the ready threads. -/
theorem foldl_considerToRun (kernel : Kernel) (threads : List ThreadId)
    (found : ThreadId × Int) :
    (threads.foldl kernel.considerToRun found).1 =
      selectBest kernel.Precedes found.1 (threads.filter fun thread => kernel.IsReady thread) := by
  induction threads generalizing found with
  | nil => rfl
  | cons thread threads ih =>
    rw [List.foldl_cons, ih, considerToRun_fst, List.filter_cons]
    by_cases hready : kernel.IsReady thread
    · simp only [hready, true_and, decide_true, if_true, selectBest_cons]
    · simp [hready]

theorem findNextToRun_fst (kernel : Kernel) :
    kernel.findNextToRun.1 =
      selectBest kernel.Precedes idlethread
        (kernel.threadList.filter fun thread => kernel.IsReady thread) :=
  foldl_considerToRun kernel kernel.threadList (idlethread, END_OF_TIME)

theorem mem_readyList {kernel : Kernel} {thread : ThreadId} :
    thread ∈ kernel.threadList.filter (fun thread => kernel.IsReady thread) ↔
      thread ∈ kernel.threadList ∧ kernel.IsReady thread := by
  simp

theorem findNextToRun_mem (kernel : Kernel) :
    kernel.findNextToRun.1 = idlethread ∨
      kernel.findNextToRun.1 ∈ kernel.threadList ∧ kernel.IsReady kernel.findNextToRun.1 := by
  have hmem := selectBest_mem kernel.Precedes idlethread
    (kernel.threadList.filter fun thread => kernel.IsReady thread)
  rw [← findNextToRun_fst] at hmem
  rcases List.mem_cons.mp hmem with hidle | hready
  · exact Or.inl hidle
  · exact Or.inr (mem_readyList.mp hready)

/-- The threads that wait for the signaler, in list order. -/
def waitersFor (kernel : Kernel) (signaler : Address) : List ThreadId :=
  kernel.threadList.filter fun thread => (kernel.thread thread).waitingFor = some signaler

theorem mem_waitersFor {kernel : Kernel} {signaler : Address} {thread : ThreadId} :
    thread ∈ kernel.waitersFor signaler ↔
      thread ∈ kernel.threadList ∧ (kernel.thread thread).waitingFor = some signaler := by
  simp [waitersFor]

/-- The search for a waiter is a choice among the threads that wait for the signaler. -/
theorem foldl_considerWaiter (kernel : Kernel) (signaler : Address) (threads : List ThreadId)
    (nextWaiter : ThreadId) :
    threads.foldl (kernel.considerWaiter signaler) nextWaiter =
      selectBest kernel.Precedes nextWaiter
        (threads.filter fun thread => (kernel.thread thread).waitingFor = some signaler) := by
  induction threads generalizing nextWaiter with
  | nil => rfl
  | cons thread threads ih =>
    rw [List.foldl_cons, ih, considerWaiter_eq, List.filter_cons]
    by_cases hwaits : (kernel.thread thread).waitingFor = some signaler
    · simp only [hwaits, true_and, decide_true, if_true, selectBest_cons]
    · simp [hwaits]

theorem findNextWaitingFor_eq (kernel : Kernel) (signaler : Address) :
    kernel.findNextWaitingFor signaler =
      let nextWaiter := selectBest kernel.Precedes idlethread (kernel.waitersFor signaler)
      if nextWaiter = idlethread then none else some nextWaiter := by
  rw [findNextWaitingFor, foldl_considerWaiter, waitersFor]

theorem findNextWaitingFor_some {kernel : Kernel} {signaler : Address} {waiter : ThreadId}
    (hfound : kernel.findNextWaitingFor signaler = some waiter) :
    waiter ∈ kernel.waitersFor signaler ∧
      ∀ other ∈ kernel.waitersFor signaler, ¬ kernel.Precedes other waiter := by
  rw [findNextWaitingFor_eq] at hfound
  have hmem := selectBest_mem kernel.Precedes idlethread (kernel.waitersFor signaler)
  have hbest := kernel.precedes_preference.not_better_selectBest idlethread
    (kernel.waitersFor signaler)
  dsimp only at hfound
  split at hfound
  · cases hfound
  · next hactive =>
    cases hfound
    exact ⟨(List.mem_cons.mp hmem).resolve_left hactive,
      fun other hother => hbest other (List.mem_cons_of_mem _ hother)⟩

/-- Waiters that come before the idle thread are not overlooked. -/
theorem findNextWaitingFor_none {kernel : Kernel} {signaler : Address}
    (hfound : kernel.findNextWaitingFor signaler = none) {waiter : ThreadId}
    (hwaiter : waiter ∈ kernel.waitersFor signaler) : ¬ kernel.Precedes waiter idlethread := by
  rw [findNextWaitingFor_eq] at hfound
  have hbest := kernel.precedes_preference.not_better_selectBest idlethread
    (kernel.waitersFor signaler) waiter (List.mem_cons_of_mem _ hwaiter)
  dsimp only at hfound
  split at hfound
  · next hidle => rwa [hidle] at hbest
  · cases hfound

end Kernel

end Rodos.BareMetal
