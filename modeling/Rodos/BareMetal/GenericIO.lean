import Rodos.BareMetal.Scheduler
import Rodos.Library.Runs

/-! IO interfaces that remember which thread waits for an event, and the up-calls of their drivers
that resume it. -/
namespace Rodos.BareMetal
open Library

inductive IOEvent where
  | readFinished
  | writeFinished
  | dataReady
deriving DecidableEq

structure GenericIOInterface where
  callerReadFinished : Option ThreadId := none
  callerWriteFinished : Option ThreadId := none
  callerDataReady : Option ThreadId := none
  ioEventReceiver : Option Address := none

namespace GenericIOInterface

def caller (io : GenericIOInterface) : IOEvent → Option ThreadId
  | .readFinished => io.callerReadFinished
  | .writeFinished => io.callerWriteFinished
  | .dataReady => io.callerDataReady

def setCaller (io : GenericIOInterface) (caller : Option ThreadId) : IOEvent → GenericIOInterface
  | .readFinished => { io with callerReadFinished := caller }
  | .writeFinished => { io with callerWriteFinished := caller }
  | .dataReady => { io with callerDataReady := caller }

/-- The section without interrupts, when the event has not happened yet; behind it comes `yield`. -/
def register (event : IOEvent) (io : GenericIOInterface) (kernel : Kernel)
    (reactivationTime : Int) : GenericIOInterface × Kernel :=
  (io.setCaller (some kernel.currentThread) event,
    kernel.modify kernel.currentThread fun self => { self with suspendedUntil := reactivationTime })

/-- Nothing when the call returns at once because the event has `happened` already. -/
def suspendUntil (event : IOEvent) (io : GenericIOInterface) (kernel : Kernel)
    (reactivationTime : Int) (happened : Bool) : Option (GenericIOInterface × Kernel) :=
  if happened then none else some (io.register event kernel reactivationTime)

def suspendUntilReadFinished := suspendUntil .readFinished
def suspendUntilWriteFinished := suspendUntil .writeFinished
def suspendUntilDataReady := suspendUntil .dataReady

/-- The last component is the receiver that is told about the event. -/
def upCall (event : IOEvent) (io : GenericIOInterface) (kernel : Kernel) :
    GenericIOInterface × Kernel × Option Address :=
  let kernel := match io.caller event with
    | some caller => kernel.resume caller
    | none => kernel
  (io.setCaller none event, kernel, io.ioEventReceiver)

def upCallReadFinished := upCall .readFinished
def upCallWriteFinished := upCall .writeFinished
def upCallDataReady := upCall .dataReady

theorem caller_setCaller (io : GenericIOInterface) (value : Option ThreadId)
    (event other : IOEvent) :
    (io.setCaller value event).caller other = if other = event then value else io.caller other := by
  cases event <;> cases other <;> rfl

/-- An up-call touches no thread but the one that is remembered for its event. -/
theorem upCall_other {event : IOEvent} {io : GenericIOInterface} {kernel : Kernel}
    {thread : ThreadId} (hother : io.caller event ≠ some thread) :
    (io.upCall event kernel).2.1.thread thread = kernel.thread thread := by
  unfold upCall
  cases hcaller : io.caller event with
  | none => rfl
  | some caller =>
    have hne : thread ≠ caller := by
      rintro rfl
      exact hother hcaller
    change (kernel.resume caller).thread thread = kernel.thread thread
    rw [Kernel.resume, Kernel.modify_other _ _ hne]

end GenericIOInterface

/-- Where a thread is: in one of the waiting methods of an interface, in any other suspension, or
in neither. -/
inductive Suspension where
  | outside
  | inside (interface : Address) (event : IOEvent)
  | elsewhere
deriving DecidableEq

/-- The interfaces by their addresses. The last field is not in the program. -/
structure IOSystem where
  kernel : Kernel
  interface : Address → GenericIOInterface := fun _ => {}
  suspension : ThreadId → Suspension := fun _ => .outside

inductive IOAction where
  | suspendUntil (thread : ThreadId) (interface : Address) (event : IOEvent)
      (reactivationTime : Int) (happened : Bool)
  | suspendCallerUntil (thread : ThreadId) (reactivationTime : Int) (signaler : Option Address)
  /-- The `yield` of a suspended thread returns. -/
  | returns (thread : ThreadId)
  | upCall (interface : Address) (event : IOEvent)
  | advance (duration : Nat)

namespace IOSystem

/-- The scheduler lets the thread run, for which it must be ready. -/
def dispatch (system : IOSystem) (thread : ThreadId) : Option IOSystem :=
  if system.kernel.IsReady thread then
    some { system with kernel := system.kernel.activate thread }
  else none

def step (system : IOSystem) : IOAction → Option IOSystem
  | .suspendUntil thread interface event reactivationTime happened =>
    (system.dispatch thread).bind fun system =>
      match system.suspension thread with
      | .outside =>
        match (system.interface interface).suspendUntil event system.kernel reactivationTime
          happened with
        | none => some system
        | some (io, kernel) =>
          some { system with
            kernel := kernel
            interface := Function.update system.interface interface io
            suspension := Function.update system.suspension thread (.inside interface event) }
      | .inside _ _ => none
      | .elsewhere => none
  | .suspendCallerUntil thread reactivationTime signaler =>
    (system.dispatch thread).bind fun system =>
      match system.suspension thread with
      | .outside =>
        some { system with
          kernel := system.kernel.suspendCaller reactivationTime signaler
          suspension := Function.update system.suspension thread .elsewhere }
      | .inside _ _ => none
      | .elsewhere => none
  | .returns thread =>
    (system.dispatch thread).bind fun system =>
      match system.suspension thread with
      | .outside => none
      | .inside _ _ =>
        some { system with suspension := Function.update system.suspension thread .outside }
      | .elsewhere =>
        some { system with
          kernel := system.kernel.endWaiting
          suspension := Function.update system.suspension thread .outside }
  | .upCall interface event =>
    let (io, kernel, _) := (system.interface interface).upCall event system.kernel
    some { system with
      kernel := kernel
      interface := Function.update system.interface interface io }
  | .advance duration =>
    some { system with
      kernel := { system.kernel with timeNow := system.kernel.timeNow + duration } }

/-- An up-call that comes now resumes a thread only inside the matching call of the interface. -/
def ResumesOwnWaiter (system : IOSystem) : Prop :=
  ∀ interface event thread, (system.interface interface).caller event = some thread →
    system.suspension thread = .inside interface event

/-- A wait does not return while the interface still remembers it. -/
def ForgottenBeforeReturn (system : IOSystem) : IOAction → Prop
  | .returns thread => ∀ interface event,
    system.suspension thread = .inside interface event →
      (system.interface interface).caller event ≠ some thread
  | _ => True

section steps

variable {system next : IOSystem}

theorem eq_of_dispatch {thread : ThreadId} (hdispatch : system.dispatch thread = some next) :
    next = { system with kernel := system.kernel.activate thread } := by
  rw [dispatch] at hdispatch
  split at hdispatch
  · exact (Option.some.inj hdispatch).symm
  · cases hdispatch

theorem caller_update (interfaces : Address → GenericIOInterface) (interface other : Address)
    (value : Option ThreadId) (event otherEvent : IOEvent) :
    (Function.update interfaces interface ((interfaces interface).setCaller value event)
        other).caller otherEvent =
      if other = interface ∧ otherEvent = event then value
      else (interfaces other).caller otherEvent := by
  by_cases hsame : other = interface
  · subst hsame
    rw [Function.update_self, GenericIOInterface.caller_setCaller]
    simp
  · rw [Function.update_of_ne hsame, if_neg (fun hboth => hsame hboth.1)]

/-- A thread outside its calls is not remembered, so that it can move on. -/
theorem ResumesOwnWaiter.update (h : system.ResumesOwnWaiter) {thread : ThreadId}
    (hforgotten : ∀ interface event, (system.interface interface).caller event ≠ some thread)
    (suspension : Suspension) {interface : Address} {event : IOEvent} {other : ThreadId}
    (hcaller : (system.interface interface).caller event = some other) :
    Function.update system.suspension thread suspension other = .inside interface event := by
  rw [Function.update_of_ne]
  · exact h interface event other hcaller
  · rintro rfl
    exact hforgotten interface event hcaller

theorem ResumesOwnWaiter.forgotten (h : system.ResumesOwnWaiter) {thread : ThreadId}
    (houtside : system.suspension thread = .outside) (interface : Address) (event : IOEvent) :
    (system.interface interface).caller event ≠ some thread := by
  intro hcaller
  have hinside := h interface event thread hcaller
  exact nomatch houtside.symm.trans hinside

/-- Every step but the return of a wait keeps the remembered threads inside their calls. -/
theorem ResumesOwnWaiter.step (h : system.ResumesOwnWaiter) {action : IOAction}
    (hforgotten : system.ForgottenBeforeReturn action) (hstep : system.step action = some next) :
    next.ResumesOwnWaiter := by
  cases action with
  | suspendUntil thread interface event reactivationTime happened =>
    obtain ⟨running, hdispatch, hstep⟩ := Option.bind_eq_some_iff.mp hstep
    cases eq_of_dispatch hdispatch
    split at hstep
    · next houtside =>
      have hothers := h.forgotten houtside
      cases happened with
      | true =>
        cases hstep
        exact h
      | false =>
        cases hstep
        intro other otherEvent caller hcaller
        dsimp only [GenericIOInterface.register] at hcaller ⊢
        rw [caller_update] at hcaller
        split at hcaller
        · next hsame =>
          cases hcaller
          rw [hsame.1, hsame.2]
          exact Function.update_self _ _ _
        · exact h.update hothers _ hcaller
    · cases hstep
    · cases hstep
  | suspendCallerUntil thread reactivationTime signaler =>
    obtain ⟨running, hdispatch, hstep⟩ := Option.bind_eq_some_iff.mp hstep
    cases eq_of_dispatch hdispatch
    split at hstep
    · next houtside =>
      have hothers := h.forgotten houtside
      cases hstep
      exact fun _ _ _ hcaller => h.update hothers _ hcaller
    · cases hstep
    · cases hstep
  | returns thread =>
    obtain ⟨running, hdispatch, hstep⟩ := Option.bind_eq_some_iff.mp hstep
    cases eq_of_dispatch hdispatch
    have hothers (interface : Address) (event : IOEvent) :
        (system.interface interface).caller event ≠ some thread := by
      intro hcaller
      have hinside := h interface event thread hcaller
      exact hforgotten interface event hinside hcaller
    split at hstep
    · cases hstep
    · cases hstep
      exact fun _ _ _ hcaller => h.update hothers _ hcaller
    · cases hstep
      exact fun _ _ _ hcaller => h.update hothers _ hcaller
  | upCall interface event =>
    cases hstep
    intro other otherEvent caller hcaller
    dsimp only [GenericIOInterface.upCall] at hcaller ⊢
    rw [caller_update] at hcaller
    split at hcaller
    · cases hcaller
    · exact h other otherEvent caller hcaller
  | advance duration =>
    cases hstep
    exact h

end steps

end IOSystem

end Rodos.BareMetal
