import Rodos.Library.Runs
import Rodos.BareMetal.Scheduler

/-! Threads that enter and leave semaphores. A section under `PRIORITY_CEILER_IN_SCOPE` is one
step, and the scheduler may decide between any two steps. -/
namespace Rodos.BareMetal
open Library

structure Semaphore where
  owner : Option ThreadId := none
  ownerEnterCnt : Int := 0
  ownerPriority : Int := 0

/-- How far a thread has come in a call of `enter` or `leave`, with the locals of the call. -/
inductive Position where
  | outside
  /-- `enter` has read the priority of its caller. -/
  | entering (sema : Address) (callerPriority : Int)
  /-- `enter` is in `suspendCallerUntil`; `previousPriority` is kept by its ceiling. -/
  | waiting (sema : Address) (callerPriority previousPriority : Int)
  /-- `leave` has counted down to zero. -/
  | leaving (sema : Address)
  /-- `leave` is behind its ceiling. -/
  | restoring (currentOwnerPriority : Int)
deriving DecidableEq

/-- The semaphore that the thread is suspended for. -/
def Position.waitsFor : Position → Option Address
  | .waiting sema _ _ => some sema
  | _ => none

/-- The semaphore that the thread waits for and the priority that it called `enter` with. -/
def Position.waitsWith : Position → Option (Address × Int)
  | .waiting sema callerPriority _ => some (sema, callerPriority)
  | _ => none

structure System where
  kernel : Kernel
  semaphore : Address → Semaphore := fun _ => {}
  position : ThreadId → Position := fun _ => .outside
  /-- Completed calls of `enter` that the thread has not yet left again. -/
  nesting : ThreadId → Address → Nat := fun _ _ => 0

inductive Action where
  | enter (sema : Address)
  | leave (sema : Address)
  /-- The running thread takes the next step of its call. -/
  | proceed
  /-- The running thread sleeps. -/
  | suspendUntil (reactivationTime : Int)
  | resume (thread : ThreadId)
  | advance (duration : Nat)
  /-- The scheduler is called and has a thread preselected. -/
  | dispatch (thread : ThreadId)

namespace System

abbrev current (system : System) : ThreadId := system.kernel.currentThread

def setPrioCurrentRunner (system : System) (newPrio : Int) : System :=
  { system with kernel := (system.kernel.setPrioCurrentRunner newPrio).2 }

def moveTo (system : System) (position : Position) : System :=
  { system with position := Function.update system.position system.current position }

def setSemaphore (system : System) (sema : Address) (semaphore : Semaphore) : System :=
  { system with semaphore := Function.update system.semaphore sema semaphore }

def countNesting (system : System) (sema : Address) (change : Nat → Nat) : System :=
  { system with
    nesting := Function.update system.nesting system.current
      (Function.update (system.nesting system.current) sema
        (change (system.nesting system.current sema))) }

section fields

variable (system : System) (position : Position) (semaphore : Semaphore) (change : Nat → Nat)
  (sema : Address) (newPrio : Int)

@[simp] theorem setPrioCurrentRunner_current :
    (system.setPrioCurrentRunner newPrio).current = system.current := rfl
@[simp] theorem setPrioCurrentRunner_position :
    (system.setPrioCurrentRunner newPrio).position = system.position := rfl
@[simp] theorem setPrioCurrentRunner_semaphore :
    (system.setPrioCurrentRunner newPrio).semaphore = system.semaphore := rfl
@[simp] theorem setPrioCurrentRunner_nesting :
    (system.setPrioCurrentRunner newPrio).nesting = system.nesting := rfl

theorem setPrioCurrentRunner_thread (thread : ThreadId) :
    (system.setPrioCurrentRunner newPrio).kernel.thread thread =
      if thread = system.current then { system.kernel.thread thread with priority := newPrio }
      else system.kernel.thread thread := by
  simp only [setPrioCurrentRunner, Kernel.setPrioCurrentRunner, Kernel.setPriority,
    Kernel.thread_modify]

@[simp] theorem moveTo_kernel : (system.moveTo position).kernel = system.kernel := rfl
@[simp] theorem moveTo_semaphore : (system.moveTo position).semaphore = system.semaphore := rfl
@[simp] theorem moveTo_nesting : (system.moveTo position).nesting = system.nesting := rfl

@[simp] theorem moveTo_position (thread : ThreadId) :
    (system.moveTo position).position thread =
      if thread = system.current then position else system.position thread :=
  Function.update_apply _ _ _ _

@[simp] theorem setSemaphore_kernel :
    (system.setSemaphore sema semaphore).kernel = system.kernel := rfl
@[simp] theorem setSemaphore_position :
    (system.setSemaphore sema semaphore).position = system.position := rfl
@[simp] theorem setSemaphore_nesting :
    (system.setSemaphore sema semaphore).nesting = system.nesting := rfl

@[simp] theorem setSemaphore_semaphore (other : Address) :
    (system.setSemaphore sema semaphore).semaphore other =
      if other = sema then semaphore else system.semaphore other :=
  Function.update_apply _ _ _ _

@[simp] theorem countNesting_kernel :
    (system.countNesting sema change).kernel = system.kernel := rfl
@[simp] theorem countNesting_position :
    (system.countNesting sema change).position = system.position := rfl
@[simp] theorem countNesting_semaphore :
    (system.countNesting sema change).semaphore = system.semaphore := rfl

@[simp] theorem countNesting_nesting (thread : ThreadId) (other : Address) :
    (system.countNesting sema change).nesting thread other =
      if thread = system.current ∧ other = sema then change (system.nesting thread other)
      else system.nesting thread other := by
  by_cases hthread : thread = system.current
  · subst hthread
    by_cases hsema : other = sema
    · subst hsema
      simp [countNesting]
    · simp [countNesting, hsema]
  · simp [countNesting, hthread]

end fields

/-- The owner is another thread: `owner != 0 && owner != caller`. -/
def IsOccupied (system : System) (sema : Address) : Prop :=
  (system.semaphore sema).owner ≠ none ∧ (system.semaphore sema).owner ≠ some system.current

instance (system : System) (sema : Address) : Decidable (system.IsOccupied sema) :=
  inferInstanceAs (Decidable (_ ∧ _))

/-- The end of `enter`: the caller becomes owner, and the ceiling ends. -/
def own (system : System) (sema : Address) (callerPriority previousPriority : Int)
    (ownerEnterCnt : Int) : System :=
  let system := system.setSemaphore sema {
    owner := some system.current
    ownerPriority := callerPriority
    ownerEnterCnt := ownerEnterCnt + 1 }
  ((system.setPrioCurrentRunner previousPriority).countNesting sema (· + 1)).moveTo .outside

/-- Avoid priority inversion. -/
def boost (kernel : Kernel) (owner : Option ThreadId) (callerPriority : Int) : Kernel :=
  match owner with
  | none => kernel
  | some owner =>
    if callerPriority > kernel.getPriority owner then kernel.setPriority owner callerPriority
    else kernel

/-- `enter` of an occupied semaphore up to the first `suspendCallerUntil`. -/
def block (system : System) (sema : Address) (callerPriority previousPriority : Int) : System :=
  let kernel := boost system.kernel (system.semaphore sema).owner callerPriority
  { system with kernel := kernel.suspendCaller END_OF_TIME (some sema) }.moveTo
    (.waiting sema callerPriority previousPriority)

/-- `enter` from the start of its ceiling. -/
def enterSection (system : System) (sema : Address) (callerPriority : Int) : System :=
  let previousPriority := system.kernel.getPriority system.current
  let system := system.setPrioCurrentRunner CEILING_PRIORITY
  if system.IsOccupied sema then system.block sema callerPriority previousPriority
  else system.own sema callerPriority previousPriority (system.semaphore sema).ownerEnterCnt

/-- `enter` from the end of one `suspendCallerUntil`, whatever ended it, to the next one or to
its own end. -/
def wake (system : System) (sema : Address) (callerPriority previousPriority : Int) : System :=
  let system := { system with kernel := system.kernel.endWaiting }
  if system.IsOccupied sema then
    { system with kernel := system.kernel.suspendCaller END_OF_TIME (some sema) }
  else system.own sema callerPriority previousPriority 0

/-- `leave` up to its ceiling. -/
def leave (system : System) (sema : Address) : System :=
  let semaphore := system.semaphore sema
  if semaphore.owner ≠ some system.current then system
  else
    let ownerEnterCnt := semaphore.ownerEnterCnt - 1
    let system := (system.setSemaphore sema
      { semaphore with ownerEnterCnt := ownerEnterCnt }).countNesting sema (· - 1)
    if ownerEnterCnt > 0 then system else system.moveTo (.leaving sema)

def resumeWaiter (kernel : Kernel) (waiter : Option ThreadId) : Kernel :=
  match waiter with
  | none => kernel
  | some waiter => kernel.resume waiter

/-- The section of `leave`. -/
def leaveSection (system : System) (sema : Address) : System :=
  let semaphore := system.semaphore sema
  let (previousPriority, kernel) := system.kernel.setPrioCurrentRunner CEILING_PRIORITY
  let waiter := kernel.findNextWaitingFor sema
  let kernel := ((resumeWaiter kernel waiter).setPrioCurrentRunner previousPriority).2
  ({ system with kernel := kernel }.setSemaphore sema
    { semaphore with owner := waiter, ownerPriority := 0 }).moveTo
      (.restoring semaphore.ownerPriority)

/-- The last statement of `leave` but for the `yield`, which only calls the scheduler. -/
def restore (system : System) (currentOwnerPriority : Int) : System :=
  (system.setPrioCurrentRunner currentOwnerPriority).moveTo .outside

def proceed (system : System) : Option System :=
  match system.position system.current with
  | .outside => none
  | .entering sema callerPriority => some (system.enterSection sema callerPriority)
  | .waiting sema callerPriority previousPriority =>
    some (system.wake sema callerPriority previousPriority)
  | .leaving sema => some (system.leaveSection sema)
  | .restoring currentOwnerPriority => some (system.restore currentOwnerPriority)

def dispatch (kernel : Kernel) (thread : ThreadId) : Kernel :=
  let (active_trd, kernel) := { kernel with preSelectedNextToRun := some thread }.schedule
  kernel.activate active_trd

/-- Only a thread outside of all calls starts another one, and the idle thread starts none. -/
def CanCall (system : System) : Prop :=
  system.current ≠ idlethread ∧ system.position system.current = .outside

instance (system : System) : Decidable system.CanCall := inferInstanceAs (Decidable (_ ∧ _))

def step (system : System) : Action → Option System
  | .enter sema =>
    if system.CanCall then
      some (system.moveTo (.entering sema (system.kernel.getPriority system.current)))
    else none
  | .leave sema => if system.CanCall then some (system.leave sema) else none
  | .proceed => system.proceed
  | .suspendUntil reactivationTime =>
    if system.CanCall then
      some { system with kernel := system.kernel.suspendCaller reactivationTime none }
    else none
  | .resume thread => some { system with kernel := system.kernel.resume thread }
  | .advance duration =>
    some { system with
      kernel := { system.kernel with timeNow := system.kernel.timeNow + duration } }
  | .dispatch thread =>
    if thread ∈ system.kernel.threadList then
      some { system with kernel := dispatch system.kernel thread }
    else none

/-- Any threads with any priorities and suspend times, all outside of their calls. -/
structure Initial (system : System) : Prop where
  idle_listed : idlethread ∈ system.kernel.threadList
  idle_priority : system.kernel.getPriority idlethread = 0
  idle_runs : system.kernel.currentThread = idlethread
  not_scheduled : system.kernel.scheduleCounter = 0
  not_activated : ∀ thread, (system.kernel.thread thread).lastActivation = 0
  not_waiting : ∀ thread, (system.kernel.thread thread).waitingFor = none
  semaphore_eq : ∀ sema, system.semaphore sema = {}
  position_eq : ∀ thread, system.position thread = .outside
  nesting_eq : ∀ thread sema, system.nesting thread sema = 0

/-- The dispatched thread is the one that the scheduler itself finds. -/
def FollowsScheduler (system : System) : Action → Prop
  | .dispatch thread => thread = system.kernel.findNextToRun.1
  | _ => True

instance (system : System) : (action : Action) → Decidable (system.FollowsScheduler action)
  | .dispatch _ => inferInstanceAs (Decidable (_ = _))
  | .enter _ | .leave _ | .proceed | .suspendUntil _ | .resume _ | .advance _ => isTrue trivial

/-- The idle thread and threads 1, 2 and so on of the given priorities, all ready. -/
def started (priorities : List Int) : System where
  kernel := {
    threadList := List.range (priorities.length + 1)
    thread := fun thread => { priority := (0 :: priorities).getD thread 0 }
    timeNow := 1 }

theorem started_initial (priorities : List Int) : (started priorities).Initial := by
  constructor <;> simp [started, idlethread, Kernel.getPriority]

end System

end Rodos.BareMetal
