import Rodos.BareMetal.SemaphoreInvariant

/-! Priority inheritance over any number of semaphores: when an owner is at least as urgent as
every thread that waits for it. -/
namespace Rodos.BareMetal
open Library

namespace System

/-- The priority is not below the own priority of any thread that waits for this one. -/
def Suffices (system : System) (thread : ThreadId) (prio : Int) : Prop :=
  ∀ sema waiter callerPriority, system.owner sema = some thread → waiter ≠ thread →
    (system.position waiter).waitsWith = some (sema, callerPriority) → callerPriority ≤ prio

def Inherits (system : System) : Prop :=
  ∀ thread, system.Suffices thread (system.kernel.thread thread).priority

/-- Waits end only by `leave`. -/
def NoResume : Action → Prop
  | .resume _ => False
  | _ => True

instance : (action : Action) → Decidable (NoResume action)
  | .resume _ => isFalse id
  | .enter _ | .leave _ | .proceed | .suspendUntil _ | .advance _ | .dispatch _ => isTrue trivial

/-- A thread in the loop of `enter` is suspended there or has been given the semaphore. -/
def Served (system : System) : Prop :=
  ∀ thread sema, system.Waiting thread sema →
    system.owner sema = some thread ∨ (system.kernel.thread thread).waitingFor = some sema

variable {system : System}

theorem Served.nobody_waits (h : system.Served) (hinvariant : system.Invariant) {sema : Address}
    (hnone : system.owner sema = none) (thread : ThreadId) : ¬ system.Waiting thread sema := by
  intro hwaiting
  rcases h thread sema hwaiting with howner | hwaits
  · rw [hnone] at howner
    cases howner
  · exact (hinvariant.waitingFor thread sema hwaits).2.1 hnone

/-- A thread that finds the semaphore free for it has been given it. -/
theorem Served.owner_of_free (h : system.Served) (hinvariant : system.Invariant) {sema : Address}
    (hwaiting : system.Waiting system.current sema) (hfree : ¬ system.IsOccupied sema) :
    system.owner sema = some system.current := by
  by_contra hother
  exact hfree ⟨fun hnone => h.nobody_waits hinvariant hnone system.current hwaiting, hother⟩

/-- A step that changes no owner, no priority and no wait. -/
theorem Inherits.frame {next : System} (h : system.Inherits)
    (howner : ∀ sema, next.owner sema = system.owner sema)
    (hwaits : ∀ thread, (next.position thread).waitsWith = (system.position thread).waitsWith)
    (hpriority : ∀ thread,
      (next.kernel.thread thread).priority = (system.kernel.thread thread).priority) :
    next.Inherits := by
  intro thread sema waiter callerPriority howns hother hwaiting
  rw [howner] at howns
  rw [hwaits] at hwaiting
  rw [hpriority]
  exact h thread sema waiter callerPriority howns hother hwaiting

/-- An inner `leave` takes the semaphore from nobody. -/
theorem leave_owner (system : System) {sema : Address}
    (howner : (system.semaphore sema).owner = some system.current) (other : Address) :
    (system.leave sema).owner other = system.owner other := by
  rw [owner, system.leave_semaphore sema howner]
  split
  · next hsame => rw [hsame, owner]
  · rfl

theorem Inherits.leave (h : system.Inherits) (hcall : system.CanCall) (sema : Address) :
    (system.leave sema).Inherits := by
  by_cases howner : (system.semaphore sema).owner = some system.current
  · apply h.frame
    · exact system.leave_owner howner
    · intro thread
      rw [system.leave_position sema howner]
      split
      · next hcurrent =>
        rw [hcurrent.1, hcall.2]
        rfl
      · rfl
    · intro thread
      rw [leave_kernel]
  · rw [system.leave_of_not_owner sema howner]
    exact h

/-- A step that changes no owner and lets only the running thread stop waiting. -/
theorem Served.frame {next : System} (h : system.Served)
    (howner : ∀ sema, next.owner sema = system.owner sema)
    (hwaits : ∀ thread sema, next.Waiting thread sema → system.Waiting thread sema ∧
      (next.kernel.thread thread).waitingFor = (system.kernel.thread thread).waitingFor) :
    next.Served := by
  intro thread sema hwaiting
  obtain ⟨hbefore, hsame⟩ := hwaits thread sema hwaiting
  rw [howner, hsame]
  exact h thread sema hbefore

/-- Who waits behind a step by which the running thread does not come to wait has waited before. -/
theorem waiting_before {next : System} {thread : ThreadId} {sema : Address} {position : Position}
    (hposition : next.position thread =
      if thread = system.current then position else system.position thread)
    (hnone : position.waitsFor = none) (hwaiting : next.Waiting thread sema) :
    thread ≠ system.current ∧ system.Waiting thread sema := by
  rw [Waiting, hposition] at hwaiting
  split at hwaiting
  · rw [hnone] at hwaiting
    cases hwaiting
  · next hother => exact ⟨hother, hwaiting⟩

theorem Served.own (h : system.Served) {sema : Address}
    (hfree : ¬ system.IsOccupied sema) (callerPriority previousPriority ownerEnterCnt : Int) :
    (system.own sema callerPriority previousPriority ownerEnterCnt).Served := by
  have hthread := system.own_thread sema callerPriority previousPriority ownerEnterCnt
  have hposition := system.own_position sema callerPriority previousPriority ownerEnterCnt
  have hsemaphore := system.own_semaphore sema callerPriority previousPriority ownerEnterCnt
  intro thread other hwaiting
  obtain ⟨hother, hwaiting⟩ := waiting_before (hposition thread) rfl hwaiting
  rw [hthread, if_neg hother]
  rcases h thread other hwaiting with howner | hwaits
  · apply Or.inl
    rw [owner, hsemaphore, if_neg]
    · exact howner
    · rintro rfl
      refine hfree ⟨?_, ?_⟩ <;> rw [show (system.semaphore other).owner = some thread from howner]
      · simp
      · simpa using hother
  · exact Or.inr hwaits

theorem Served.block (h : system.Served) {sema : Address} (hoccupied : system.IsOccupied sema)
    (callerPriority previousPriority : Int) :
    (system.block sema callerPriority previousPriority).Served := by
  have hthread := system.block_thread sema callerPriority previousPriority hoccupied
  have hposition := system.block_position sema callerPriority previousPriority
  intro thread other hwaiting
  rw [Waiting, hposition] at hwaiting
  rw [hthread]
  by_cases hcurrent : thread = system.current
  · rw [if_pos hcurrent] at hwaiting ⊢
    exact Or.inr hwaiting
  · rw [if_neg hcurrent] at hwaiting ⊢
    rcases h thread other hwaiting with howner | hwaits
    · exact Or.inl howner
    · apply Or.inr
      split <;> exact hwaits

theorem Served.leaveSection (h : system.Served) (hinvariant : system.Invariant) {sema : Address}
    (hleaving : system.position system.current = .leaving sema) :
    (system.leaveSection sema).Served := by
  have hthread := system.leaveSection_thread sema
  have hposition := system.leaveSection_position sema
  have hsemaphore := system.leaveSection_semaphore sema
  have howner := hinvariant.inside_owns _ sema (Or.inr hleaving)
  intro thread other hwaiting
  obtain ⟨hother, hwaiting⟩ := waiting_before (hposition thread) rfl hwaiting
  by_cases hfound : system.nextWaiter sema = some thread
  · -- the new owner waits for this semaphore
    have hnot : (system.position system.current).waitsFor = none := by
      rw [hleaving]
      rfl
    have hwaits := (hinvariant.nextWaiter_some hnot hfound).1
    have hsame : (system.position thread).waitsFor = some sema :=
      (hinvariant.waitingFor thread sema hwaits).1
    rw [hwaiting] at hsame
    cases hsame
    apply Or.inl
    rw [owner, hsemaphore, if_pos rfl, hfound]
  · rw [hthread, if_neg hfound]
    rcases h thread other hwaiting with howns | hwaits
    · apply Or.inl
      rw [owner, hsemaphore, if_neg]
      · exact howns
      · rintro rfl
        rw [howner] at howns
        exact hother (Option.some.inj howns).symm
    · exact Or.inr hwaits

theorem Served.wake (h : system.Served) (hinvariant : system.Invariant) {sema : Address}
    {callerPriority previousPriority : Int}
    (hposition : system.position system.current =
      .waiting sema callerPriority previousPriority) :
    (system.wake sema callerPriority previousPriority).Served := by
  have hcurrent : ∀ other, system.Waiting system.current other → other = sema := by
    intro other hwaiting
    rw [Waiting, hposition] at hwaiting
    exact (Option.some.inj hwaiting).symm
  unfold System.wake
  dsimp only
  split
  · next hoccupied =>
    intro thread other hwaiting
    rw [Kernel.suspendCaller, Kernel.thread_modify]
    split
    · next hsame =>
      subst hsame
      exact Or.inr (congrArg some (hcurrent other hwaiting).symm)
    · next hother =>
      have hkept : system.kernel.endWaiting.thread thread = system.kernel.thread thread :=
        Kernel.modify_other _ _ hother
      rw [hkept]
      exact h thread other hwaiting
  · next hfree =>
    refine Served.own (fun thread other hwaiting => ?_) hfree _ _ _
    by_cases hsame : thread = system.current
    · subst hsame
      obtain rfl := hcurrent other hwaiting
      exact Or.inl (h.owner_of_free hinvariant hwaiting hfree)
    · have hkept : system.kernel.endWaiting.thread thread = system.kernel.thread thread :=
        Kernel.modify_other _ _ hsame
      rw [hkept]
      exact h thread other hwaiting

theorem Served.leave (h : system.Served) (sema : Address) : (system.leave sema).Served := by
  by_cases howner : (system.semaphore sema).owner = some system.current
  · apply h.frame
    · exact system.leave_owner howner
    · intro thread other hwaiting
      rw [Waiting, system.leave_position sema howner] at hwaiting
      rw [leave_kernel]
      split at hwaiting
      · cases hwaiting
      · exact ⟨hwaiting, rfl⟩
  · rw [system.leave_of_not_owner sema howner]
    exact h

theorem Served.enterSection (h : system.Served) (sema : Address) (callerPriority : Int) :
    (system.enterSection sema callerPriority).Served := by
  have hceiling : (system.setPrioCurrentRunner CEILING_PRIORITY).Served := by
    refine h.frame (fun _ => rfl) (fun thread other hwaiting => ⟨hwaiting, ?_⟩)
    rw [setPrioCurrentRunner_thread]
    split <;> rfl
  unfold System.enterSection
  dsimp only
  split
  · next hoccupied => exact hceiling.block hoccupied _ _
  · next hfree => exact hceiling.own hfree _ _ _

theorem Served.restore (h : system.Served) (currentOwnerPriority : Int) :
    (system.restore currentOwnerPriority).Served := by
  refine h.frame (fun _ => rfl) (fun thread other hwaiting => ?_)
  rw [System.restore, Waiting, moveTo_position] at hwaiting
  rw [System.restore, moveTo_kernel, setPrioCurrentRunner_thread]
  split at hwaiting
  · cases hwaiting
  · next hother =>
    refine ⟨hwaiting, ?_⟩
    rw [if_neg (by exact hother)]

theorem Served.step {next : System} {action : Action} (h : system.Served)
    (hinvariant : system.Invariant) (hno : NoResume action)
    (hstep : system.step action = some next) : next.Served := by
  cases transition_of_step hstep with
  | enter =>
    refine h.frame (fun _ => rfl) (fun thread other hwaiting => ?_)
    rw [Waiting, moveTo_position] at hwaiting
    split at hwaiting
    · cases hwaiting
    · exact ⟨hwaiting, rfl⟩
  | leave => exact h.leave _
  | enterSection => exact h.enterSection _ _
  | wake hposition => exact h.wake hinvariant hposition
  | leaveSection hposition => exact h.leaveSection hinvariant hposition
  | restore => exact h.restore _
  | suspendUntil hcall =>
    refine h.frame (fun _ => rfl) (fun thread other hwaiting => ⟨hwaiting, ?_⟩)
    rw [Kernel.suspendCaller, Kernel.thread_modify, if_neg]
    rintro rfl
    rw [Waiting, show system.position system.kernel.currentThread = _ from hcall.2] at hwaiting
    cases hwaiting
  | resume => cases hno
  | advance => exact h.frame (fun _ => rfl) (fun _ _ hwaiting => ⟨hwaiting, rfl⟩)
  | dispatch =>
    exact h.frame (fun _ => rfl) (fun other _ hwaiting =>
      ⟨hwaiting, (Kernel.schedule_switched _).waitingFor_eq other⟩)

theorem Initial.served (h : system.Initial) : system.Served := by
  intro thread sema hwaiting
  rw [Waiting, h.position_eq] at hwaiting
  cases hwaiting

end System

end Rodos.BareMetal
