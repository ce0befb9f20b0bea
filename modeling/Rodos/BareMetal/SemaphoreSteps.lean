import Rodos.BareMetal.Semaphore

/-! What the steps of `enter` and `leave` change, thread by thread and semaphore by semaphore. -/
namespace Rodos.BareMetal
open Library

namespace System

section own

variable (system : System) (sema : Address)
  (callerPriority previousPriority ownerEnterCnt : Int)

theorem own_thread (thread : ThreadId) :
    (system.own sema callerPriority previousPriority ownerEnterCnt).kernel.thread thread =
      if thread = system.current then
        { system.kernel.thread thread with priority := previousPriority }
      else system.kernel.thread thread :=
  setPrioCurrentRunner_thread _ _ _

theorem own_position (thread : ThreadId) :
    (system.own sema callerPriority previousPriority ownerEnterCnt).position thread =
      if thread = system.current then .outside else system.position thread :=
  moveTo_position _ _ _

theorem own_semaphore (other : Address) :
    (system.own sema callerPriority previousPriority ownerEnterCnt).semaphore other =
      if other = sema then ⟨some system.current, ownerEnterCnt + 1, callerPriority⟩
      else system.semaphore other :=
  setSemaphore_semaphore _ _ _ _

theorem own_nesting (thread : ThreadId) (other : Address) :
    (system.own sema callerPriority previousPriority ownerEnterCnt).nesting thread other =
      if thread = system.current ∧ other = sema then system.nesting thread other + 1
      else system.nesting thread other :=
  countNesting_nesting _ _ _ _ _

end own

section block

theorem boost_thread (kernel : Kernel) (owner : Option ThreadId) (callerPriority : Int)
    (thread : ThreadId) :
    (boost kernel owner callerPriority).thread thread =
      if owner = some thread ∧ kernel.getPriority thread < callerPriority then
        { kernel.thread thread with priority := callerPriority }
      else kernel.thread thread := by
  unfold boost
  cases owner with
  | none => simp
  | some owner =>
    dsimp only
    split <;> grind [Kernel.setPriority, Kernel.thread_modify]

@[simp] theorem boost_threadList (kernel : Kernel) (owner : Option ThreadId)
    (callerPriority : Int) :
    (boost kernel owner callerPriority).threadList = kernel.threadList := by
  unfold boost
  cases owner
  · rfl
  · dsimp only
    split <;> rfl

@[simp] theorem boost_currentThread (kernel : Kernel) (owner : Option ThreadId)
    (callerPriority : Int) :
    (boost kernel owner callerPriority).currentThread = kernel.currentThread := by
  unfold boost
  cases owner
  · rfl
  · dsimp only
    split <;> rfl

@[simp] theorem boost_scheduleCounter (kernel : Kernel) (owner : Option ThreadId)
    (callerPriority : Int) :
    (boost kernel owner callerPriority).scheduleCounter = kernel.scheduleCounter := by
  unfold boost
  cases owner
  · rfl
  · dsimp only
    split <;> rfl

variable (system : System) (sema : Address) (callerPriority previousPriority : Int)

theorem block_thread (hoccupied : system.IsOccupied sema) (thread : ThreadId) :
    (system.block sema callerPriority previousPriority).kernel.thread thread =
      if thread = system.current then
        { system.kernel.thread thread with
          waitingFor := some sema, suspendedUntil := END_OF_TIME }
      else if (system.semaphore sema).owner = some thread ∧
          (system.kernel.thread thread).priority < callerPriority then
        { system.kernel.thread thread with priority := callerPriority }
      else system.kernel.thread thread := by
  unfold block
  simp only [moveTo_kernel, Kernel.suspendCaller, Kernel.thread_modify, boost_currentThread,
    boost_thread, Kernel.getPriority]
  have hother := hoccupied.2
  grind

theorem block_position (thread : ThreadId) :
    (system.block sema callerPriority previousPriority).position thread =
      if thread = system.current then .waiting sema callerPriority previousPriority
      else system.position thread := by
  unfold block
  simp [current, Kernel.suspendCaller]

end block

section leave

variable (system : System) (sema : Address)

theorem leave_of_not_owner (hother : (system.semaphore sema).owner ≠ some system.current) :
    system.leave sema = system := by
  rw [leave, if_pos hother]

theorem leave_kernel : (system.leave sema).kernel = system.kernel := by
  unfold leave
  dsimp only
  split
  · rfl
  · split <;> simp

theorem leave_semaphore (howner : (system.semaphore sema).owner = some system.current)
    (other : Address) :
    (system.leave sema).semaphore other =
      if other = sema then
        { system.semaphore sema with
          ownerEnterCnt := (system.semaphore sema).ownerEnterCnt - 1 }
      else system.semaphore other := by
  rw [leave, if_neg (not_not_intro howner)]
  dsimp only
  split <;> simp

theorem leave_nesting (howner : (system.semaphore sema).owner = some system.current)
    (thread : ThreadId) (other : Address) :
    (system.leave sema).nesting thread other =
      if thread = system.current ∧ other = sema then system.nesting thread other - 1
      else system.nesting thread other := by
  rw [leave, if_neg (not_not_intro howner)]
  dsimp only
  split
  · exact countNesting_nesting _ _ _ _ _
  · rw [moveTo_nesting]
    exact countNesting_nesting _ _ _ _ _

theorem leave_position (howner : (system.semaphore sema).owner = some system.current)
    (thread : ThreadId) :
    (system.leave sema).position thread =
      if thread = system.current ∧ (system.semaphore sema).ownerEnterCnt ≤ 1 then .leaving sema
      else system.position thread := by
  rw [leave, if_neg (not_not_intro howner)]
  dsimp only
  split
  · next hpositive => simp [show ¬ (system.semaphore sema).ownerEnterCnt ≤ 1 by omega]
  · next hzero =>
    rw [moveTo_position]
    simp only [show (system.semaphore sema).ownerEnterCnt ≤ 1 by omega, and_true]
    rfl

theorem resumeWaiter_thread (kernel : Kernel) (waiter : Option ThreadId) (thread : ThreadId) :
    (resumeWaiter kernel waiter).thread thread =
      if waiter = some thread then
        { kernel.thread thread with waitingFor := none, suspendedUntil := 0 }
      else kernel.thread thread := by
  cases waiter with
  | none => simp [resumeWaiter]
  | some waiter =>
    simp only [resumeWaiter, Kernel.resume, Kernel.thread_modify]
    grind

@[simp] theorem resumeWaiter_currentThread (kernel : Kernel) (waiter : Option ThreadId) :
    (resumeWaiter kernel waiter).currentThread = kernel.currentThread := by
  cases waiter <;> rfl

@[simp] theorem resumeWaiter_threadList (kernel : Kernel) (waiter : Option ThreadId) :
    (resumeWaiter kernel waiter).threadList = kernel.threadList := by
  cases waiter <;> rfl

@[simp] theorem resumeWaiter_scheduleCounter (kernel : Kernel) (waiter : Option ThreadId) :
    (resumeWaiter kernel waiter).scheduleCounter = kernel.scheduleCounter := by
  cases waiter <;> rfl

/-- The thread that the section of `leave` finds. -/
def nextWaiter : Option ThreadId :=
  (system.kernel.setPrioCurrentRunner CEILING_PRIORITY).2.findNextWaitingFor sema

theorem leaveSection_thread (thread : ThreadId) :
    (system.leaveSection sema).kernel.thread thread =
      if system.nextWaiter sema = some thread then
        { system.kernel.thread thread with waitingFor := none, suspendedUntil := 0 }
      else system.kernel.thread thread := by
  have hkernel : (system.leaveSection sema).kernel =
      ((resumeWaiter (system.kernel.setPrioCurrentRunner CEILING_PRIORITY).2
        (system.nextWaiter sema)).setPrioCurrentRunner
          (system.kernel.getPriority system.current)).2 := rfl
  rw [hkernel]
  by_cases hcurrent : thread = system.current
  · subst hcurrent
    by_cases hwaiter : system.nextWaiter sema = some system.current <;>
      simp [hwaiter, Kernel.setPrioCurrentRunner, Kernel.setPriority, Kernel.getPriority,
        resumeWaiter_thread]
  · simp [hcurrent, Kernel.setPrioCurrentRunner, Kernel.setPriority, Kernel.getPriority,
      resumeWaiter_thread, Kernel.thread_modify]

theorem leaveSection_semaphore (other : Address) :
    (system.leaveSection sema).semaphore other =
      if other = sema then
        ⟨system.nextWaiter sema, (system.semaphore sema).ownerEnterCnt, 0⟩
      else system.semaphore other :=
  setSemaphore_semaphore _ _ _ _

@[simp] theorem leaveSection_current : (system.leaveSection sema).current = system.current := by
  simp [leaveSection, current, Kernel.setPrioCurrentRunner, Kernel.setPriority]

theorem leaveSection_position (thread : ThreadId) :
    (system.leaveSection sema).position thread =
      if thread = system.current then .restoring (system.semaphore sema).ownerPriority
      else system.position thread := by
  simp [leaveSection, current, Kernel.setPrioCurrentRunner, Kernel.setPriority]

end leave

/-- The steps one by one, each with what the running thread must be at to take it. -/
inductive Transition (system : System) : Action → System → Prop where
  | enter {sema : Address} (hcall : system.CanCall) :
    Transition system (.enter sema)
      (system.moveTo (.entering sema (system.kernel.getPriority system.current)))
  | leave {sema : Address} (hcall : system.CanCall) :
    Transition system (.leave sema) (system.leave sema)
  | enterSection {sema : Address} {callerPriority : Int}
    (hposition : system.position system.current = .entering sema callerPriority) :
    Transition system .proceed (system.enterSection sema callerPriority)
  | wake {sema : Address} {callerPriority previousPriority : Int}
    (hposition : system.position system.current =
      .waiting sema callerPriority previousPriority) :
    Transition system .proceed (system.wake sema callerPriority previousPriority)
  | leaveSection {sema : Address}
    (hposition : system.position system.current = .leaving sema) :
    Transition system .proceed (system.leaveSection sema)
  | restore {currentOwnerPriority : Int}
    (hposition : system.position system.current = .restoring currentOwnerPriority) :
    Transition system .proceed (system.restore currentOwnerPriority)
  | suspendUntil {reactivationTime : Int} (hcall : system.CanCall) :
    Transition system (.suspendUntil reactivationTime)
      { system with kernel := system.kernel.suspendCaller reactivationTime none }
  | resume {thread : ThreadId} :
    Transition system (.resume thread) { system with kernel := system.kernel.resume thread }
  | advance {duration : Nat} :
    Transition system (.advance duration)
      { system with kernel := { system.kernel with timeNow := system.kernel.timeNow + duration } }
  | dispatch {thread : ThreadId} (hlisted : thread ∈ system.kernel.threadList) :
    Transition system (.dispatch thread)
      { system with kernel := dispatch system.kernel thread }

theorem transition_of_proceed {system next : System} (hproceed : system.proceed = some next) :
    system.Transition .proceed next := by
  unfold proceed at hproceed
  split at hproceed
  · cases hproceed
  · next sema callerPriority hposition =>
    cases hproceed
    exact .enterSection hposition
  · next sema callerPriority previousPriority hposition =>
    cases hproceed
    exact .wake hposition
  · next sema hposition =>
    cases hproceed
    exact .leaveSection hposition
  · next currentOwnerPriority hposition =>
    cases hproceed
    exact .restore hposition

theorem transition_of_step {system next : System} {action : Action}
    (hstep : system.step action = some next) : system.Transition action next := by
  cases action with
  | enter sema =>
    obtain ⟨hcall, hnext⟩ := Option.ite_none_right_eq_some.mp hstep
    cases hnext
    exact .enter hcall
  | leave sema =>
    obtain ⟨hcall, hnext⟩ := Option.ite_none_right_eq_some.mp hstep
    cases hnext
    exact .leave hcall
  | proceed => exact transition_of_proceed hstep
  | suspendUntil reactivationTime =>
    obtain ⟨hcall, hnext⟩ := Option.ite_none_right_eq_some.mp hstep
    cases hnext
    exact .suspendUntil hcall
  | resume thread =>
    cases hstep
    exact .resume
  | advance duration =>
    cases hstep
    exact .advance
  | dispatch thread =>
    obtain ⟨hlisted, hnext⟩ := Option.ite_none_right_eq_some.mp hstep
    cases hnext
    exact .dispatch hlisted

end System

end Rodos.BareMetal
