import Rodos.BareMetal.SemaphoreInvariant

/-! Threads that use one semaphore: when `leave` gives a thread back the priority it had before
its first `enter`. -/
namespace Rodos.BareMetal
open Library

/-- What the position of a thread of that base priority says about its priority. -/
def Position.KeepsBase (sema : Address) (base priority : Int) (owns : Prop) : Position → Prop
  | .outside => ¬ owns → priority = base
  | .entering other callerPriority =>
    other = sema ∧ callerPriority = base ∧ (¬ owns → priority = base)
  | .waiting other callerPriority previousPriority =>
    other = sema ∧ callerPriority = base ∧ previousPriority = base
  | .leaving other => other = sema
  | .restoring currentOwnerPriority => currentOwnerPriority = base ∧ ¬ owns

theorem Position.KeepsBase.congr {sema : Address} {base priority priority' : Int}
    {owns owns' : Prop} {position : Position} (h : position.KeepsBase sema base priority owns)
    (howns : owns' ↔ owns) (hpriority : ¬ owns → priority' = priority) :
    position.KeepsBase sema base priority' owns' := by
  cases position <;> simp_all [Position.KeepsBase]

namespace System

/-- Only this semaphore is entered and left. -/
def OnlyUses (sema : Address) : Action → Prop
  | .enter other | .leave other => other = sema
  | _ => True

/-- An owner that enters again has not been boosted since its priority was saved. -/
def ReentersUnboosted (system : System) : Action → Prop
  | .enter sema => system.owner sema = some system.current →
    system.kernel.getPriority system.current = (system.semaphore sema).ownerPriority
  | _ => True

/-- Only the owner can run with another priority than its own, and that one is saved. -/
structure KeepsBase (base : ThreadId → Int) (sema : Address) (system : System) : Prop where
  position : ∀ thread, (system.position thread).KeepsBase sema (base thread)
    (system.kernel.thread thread).priority (system.owner sema = some thread)
  saved : ∀ thread, system.owner sema = some thread → system.Inside thread sema →
    (system.semaphore sema).ownerPriority = base thread

variable {base : ThreadId → Int} {sema : Address} {system : System}

theorem KeepsBase.withKernel (h : KeepsBase base sema system) {kernel : Kernel}
    (hpriority : ∀ thread,
      (kernel.thread thread).priority = (system.kernel.thread thread).priority) :
    KeepsBase base sema { system with kernel := kernel } where
  position thread := (hpriority thread).symm ▸ h.position thread
  saved := h.saved

theorem KeepsBase.enter (h : KeepsBase base sema system) (hinvariant : system.Invariant)
    (hcall : system.CanCall) (hunboosted : system.ReentersUnboosted (.enter sema)) :
    KeepsBase base sema
      (system.moveTo (.entering sema (system.kernel.getPriority system.current))) := by
  have hbefore := h.position system.current
  rw [hcall.2] at hbefore
  have hpriority : system.kernel.getPriority system.current = base system.current := by
    by_cases howner : system.owner sema = some system.current
    · rw [hunboosted howner]
      exact h.saved _ howner (Or.inl (hinvariant.entered_of_owner hcall.2 howner))
    · exact hbefore howner
  refine ⟨fun thread => ?_, fun thread howner hinside => h.saved thread howner ?_⟩
  · rw [moveTo_position]
    split
    · next hcurrent =>
      subst hcurrent
      exact ⟨rfl, hpriority, hbefore⟩
    · exact h.position thread
  · simp only [Inside, moveTo_nesting, moveTo_position] at hinside
    rcases hinside with hnesting | hleaving
    · exact Or.inl hnesting
    · split at hleaving
      · cases hleaving
      · exact Or.inr hleaving

/-- The threads that do not run account for their priorities. -/
structure OthersKeepBase (base : ThreadId → Int) (sema : Address) (system : System) : Prop where
  position : ∀ thread ≠ system.current, (system.position thread).KeepsBase sema (base thread)
    (system.kernel.thread thread).priority (system.owner sema = some thread)
  saved : ∀ thread, system.owner sema = some thread → system.Inside thread sema →
    (system.semaphore sema).ownerPriority = base thread

theorem KeepsBase.others (h : KeepsBase base sema system) : OthersKeepBase base sema system where
  position thread _ := h.position thread
  saved := h.saved

theorem OthersKeepBase.setPrioCurrentRunner (h : OthersKeepBase base sema system)
    (newPrio : Int) : OthersKeepBase base sema (system.setPrioCurrentRunner newPrio) where
  position thread hother := by
    rw [setPrioCurrentRunner_current] at hother
    rw [setPrioCurrentRunner_thread, if_neg hother]
    exact h.position thread hother
  saved := h.saved

theorem OthersKeepBase.own (h : OthersKeepBase base sema system)
    {callerPriority : Int} (hcaller : callerPriority = base system.current)
    (hfree : ¬ system.IsOccupied sema) (previousPriority ownerEnterCnt : Int) :
    KeepsBase base sema
      (system.own sema callerPriority previousPriority ownerEnterCnt) := by
  have hthread := system.own_thread sema callerPriority previousPriority ownerEnterCnt
  have hposition := system.own_position sema callerPriority previousPriority ownerEnterCnt
  have hsemaphore := system.own_semaphore sema callerPriority previousPriority ownerEnterCnt sema
  rw [if_pos rfl] at hsemaphore
  refine ⟨fun thread => ?_, fun thread howner _ => ?_⟩
  · rw [hposition, hthread]
    by_cases hsame : thread = system.current
    · rw [if_pos hsame, if_pos hsame]
      intro hnot
      rw [owner, hsemaphore, hsame] at hnot
      exact absurd rfl hnot
    · rw [if_neg hsame, if_neg hsame]
      refine (h.position thread hsame).congr ?_ (fun _ => rfl)
      rw [owner, hsemaphore]
      unfold IsOccupied at hfree
      unfold owner
      grind
  · rw [owner, hsemaphore] at howner
    cases howner
    rw [hsemaphore]
    exact hcaller

theorem OthersKeepBase.block (h : OthersKeepBase base sema system)
    {callerPriority previousPriority : Int} (hcaller : callerPriority = base system.current)
    (hprevious : previousPriority = base system.current) (hoccupied : system.IsOccupied sema) :
    KeepsBase base sema (system.block sema callerPriority previousPriority) := by
  have hthread := system.block_thread sema callerPriority previousPriority hoccupied
  have hposition := system.block_position sema callerPriority previousPriority
  refine ⟨fun thread => ?_, fun thread howner hinside => h.saved thread howner ?_⟩
  · rw [hposition, hthread]
    by_cases hsame : thread = system.current
    · subst hsame
      rw [if_pos rfl, if_pos rfl]
      exact ⟨rfl, hcaller, hprevious⟩
    · rw [if_neg hsame, if_neg hsame]
      refine (h.position thread hsame).congr Iff.rfl (fun hnot => ?_)
      rw [if_neg (fun hboosted => hnot hboosted.1)]
  · rcases hinside with hnesting | hleaving
    · exact Or.inl hnesting
    · rw [hposition] at hleaving
      split at hleaving
      · cases hleaving
      · exact Or.inr hleaving

theorem KeepsBase.enterSection (h : KeepsBase base sema system) {other : Address}
    {callerPriority : Int}
    (hentering : system.position system.current = .entering other callerPriority) :
    KeepsBase base sema (system.enterSection other callerPriority) := by
  obtain ⟨rfl, hcaller, hpriority⟩ : other = sema ∧ callerPriority = base system.current ∧
      (¬ system.owner sema = some system.current →
        (system.kernel.thread system.current).priority = base system.current) := by
    have hbefore := h.position system.current
    rwa [hentering] at hbefore
  have hothers := h.others.setPrioCurrentRunner CEILING_PRIORITY
  unfold System.enterSection
  dsimp only
  split
  · next hoccupied => exact hothers.block hcaller (hpriority hoccupied.2) hoccupied
  · next hfree => exact hothers.own hcaller hfree _ _

theorem KeepsBase.wake (h : KeepsBase base sema system) {other : Address}
    {callerPriority previousPriority : Int}
    (hwaiting : system.position system.current =
      .waiting other callerPriority previousPriority) :
    KeepsBase base sema (system.wake other callerPriority previousPriority) := by
  obtain ⟨rfl, hcaller, -⟩ : other = sema ∧ callerPriority = base system.current ∧
      previousPriority = base system.current := by
    have hbefore := h.position system.current
    rwa [hwaiting] at hbefore
  unfold System.wake
  dsimp only
  split
  · refine h.withKernel (fun thread => ?_)
    rw [Kernel.suspendCaller, Kernel.thread_modify]
    split <;> exact Kernel.priority_endWaiting _ thread
  · next hfree => exact (h.withKernel (Kernel.priority_endWaiting _)).others.own hcaller hfree _ _

theorem KeepsBase.leave (h : KeepsBase base sema system) (hinvariant : system.Invariant)
    (hcall : system.CanCall) : KeepsBase base sema (system.leave sema) := by
  by_cases howner : (system.semaphore sema).owner = some system.current
  · have hposition := system.leave_position sema howner
    have hsemaphore := system.leave_semaphore sema howner sema
    have hkernel := system.leave_kernel sema
    rw [if_pos rfl] at hsemaphore
    have hinside : system.Inside system.current sema :=
      Or.inl (hinvariant.entered_of_owner hcall.2 howner)
    have hsame : (system.leave sema).owner sema = system.owner sema := by
      rw [owner, hsemaphore]
      rfl
    refine ⟨fun thread => ?_, fun thread hother _ => ?_⟩
    · rw [hposition, hkernel, hsame]
      split
      · rfl
      · exact h.position thread
    · rw [hsame] at hother
      obtain rfl : thread = system.current := Option.some.inj (hother.symm.trans howner)
      rw [hsemaphore]
      exact h.saved system.current howner hinside
  · rw [system.leave_of_not_owner sema howner]
    exact h

theorem KeepsBase.leaveSection (h : KeepsBase base sema system) (hinvariant : system.Invariant)
    {other : Address} (hleaving : system.position system.current = .leaving other) :
    KeepsBase base sema (system.leaveSection other) := by
  obtain rfl : other = sema := by
    have hbefore := h.position system.current
    rwa [hleaving] at hbefore
  have hnot : (system.position system.current).waitsFor = none := by
    rw [hleaving]
    rfl
  have hinside : system.Inside system.current other := Or.inr hleaving
  have howner := hinvariant.inside_owns _ other hinside
  have hposition := system.leaveSection_position other
  have hthread := system.leaveSection_thread other
  have hsemaphore := system.leaveSection_semaphore other other
  rw [if_pos rfl] at hsemaphore
  have hwaiter : ∀ waiter, system.nextWaiter other = some waiter →
      waiter ≠ system.current ∧ system.Waiting waiter other := by
    intro waiter hfound
    have hwaits := (hinvariant.nextWaiter_some hnot hfound).1
    have hwaiting := (hinvariant.waitingFor waiter other hwaits).1
    refine ⟨?_, hwaiting⟩
    rintro rfl
    rw [Waiting, hnot] at hwaiting
    cases hwaiting
  refine ⟨fun thread => ?_, fun thread hnew hinside => ?_⟩
  · rw [hposition, hthread, owner, hsemaphore]
    by_cases hcurrent : thread = system.current
    · subst hcurrent
      rw [if_pos rfl]
      exact ⟨h.saved _ howner hinside, fun hself => (hwaiter _ hself).1 rfl⟩
    · rw [if_neg hcurrent]
      have hbefore := h.position thread
      by_cases hfound : system.nextWaiter other = some thread
      · -- the new owner is waiting, where its own priority is kept
        have hwaiting := (hwaiter thread hfound).2
        rw [Waiting] at hwaiting
        cases hplace : system.position thread with
        | waiting place callerPriority previousPriority =>
          rw [hplace] at hbefore
          exact hbefore
        | outside | entering | leaving | restoring =>
          rw [hplace] at hwaiting
          cases hwaiting
      · rw [if_neg hfound]
        refine hbefore.congr ?_ (fun _ => rfl)
        rw [howner]
        grind
  · rw [owner, hsemaphore] at hnew
    have hwaiting := (hwaiter thread hnew).2
    have hzero := hinvariant.waiting_outside thread other hwaiting
    have hnesting : (system.leaveSection other).nesting thread other =
      system.nesting thread other := rfl
    rw [Waiting] at hwaiting
    simp only [Inside, hnesting, hzero, hposition, if_neg (hwaiter thread hnew).1] at hinside
    rcases hinside with hpositive | hleave
    · cases hpositive
    · rw [hleave] at hwaiting
      cases hwaiting

theorem KeepsBase.restore (h : KeepsBase base sema system) {currentOwnerPriority : Int}
    (hrestoring : system.position system.current = .restoring currentOwnerPriority) :
    KeepsBase base sema (system.restore currentOwnerPriority) := by
  have hbefore := h.position system.current
  rw [hrestoring] at hbefore
  unfold System.restore
  refine ⟨fun thread => ?_, fun thread howner hinside => h.saved thread howner ?_⟩
  · rw [moveTo_position, moveTo_kernel, setPrioCurrentRunner_thread]
    by_cases hsame : thread = system.current
    · subst hsame
      rw [setPrioCurrentRunner_current, if_pos rfl, if_pos rfl]
      exact fun _ => hbefore.1
    · rw [setPrioCurrentRunner_current, if_neg hsame, if_neg hsame]
      exact h.position thread
  · rcases hinside with hnesting | hleaving
    · exact Or.inl hnesting
    · rw [moveTo_position] at hleaving
      split at hleaving
      · cases hleaving
      · exact Or.inr hleaving

theorem KeepsBase.step {next : System} {action : Action} (h : KeepsBase base sema system)
    (hinvariant : system.Invariant) (honly : OnlyUses sema action)
    (hunboosted : system.ReentersUnboosted action) (hstep : system.step action = some next) :
    KeepsBase base sema next := by
  cases transition_of_step hstep with
  | enter hcall =>
    cases honly
    exact h.enter hinvariant hcall hunboosted
  | leave hcall =>
    cases honly
    exact h.leave hinvariant hcall
  | enterSection hposition => exact h.enterSection hposition
  | wake hposition => exact h.wake hposition
  | leaveSection hposition => exact h.leaveSection hinvariant hposition
  | restore hposition => exact h.restore hposition
  | suspendUntil =>
    apply h.withKernel
    intro thread
    rw [Kernel.suspendCaller, Kernel.thread_modify]
    split <;> rfl
  | resume =>
    apply h.withKernel
    intro other
    rw [Kernel.resume, Kernel.thread_modify]
    split <;> rfl
  | advance => exact h.withKernel fun _ => rfl
  | dispatch => exact h.withKernel (Kernel.schedule_switched _).priority_eq

theorem Initial.keepsBase {initial : System} (h : initial.Initial) (sema : Address) :
    KeepsBase initial.kernel.getPriority sema initial where
  position thread := by
    rw [h.position_eq]
    exact fun _ => rfl
  saved thread howner := by
    rw [owner, h.semaphore_eq] at howner
    cases howner

/-- Threads that have left the semaphore as often as they entered it have the priorities that the
threads had at first. -/
def Restored (initial : System) (sema : Address) (system : System) : Prop :=
  ∀ thread, system.position thread = .outside → system.nesting thread sema = 0 →
    system.kernel.getPriority thread = initial.kernel.getPriority thread

theorem KeepsBase.restored {initial : System}
    (h : KeepsBase initial.kernel.getPriority sema system) (hinvariant : system.Invariant) :
    initial.Restored sema system := by
  intro thread houtside hnesting
  have hbefore := h.position thread
  rw [houtside] at hbefore
  refine hbefore (fun howner => ?_)
  have hentered := hinvariant.entered_of_owner houtside howner
  omega

/-- In every run on one semaphore in which no owner enters again after it was boosted, a thread
outside has the priority it had before its first `enter`. -/
theorem priority_restored {initial final : System} {actions : List Action} (sema : Address)
    (hinitial : initial.Initial)
    (hallowed : Along step
      (fun system action => OnlyUses sema action ∧ system.ReentersUnboosted action)
      initial actions)
    (hrun : run step initial actions = some final) : initial.Restored sema final := by
  have hkeeps : ∀ (system : System) (action : Action) (next : System),
      (system.Invariant ∧ KeepsBase initial.kernel.getPriority sema system) →
        (OnlyUses sema action ∧ system.ReentersUnboosted action) →
          system.step action = some next →
            next.Invariant ∧ KeepsBase initial.kernel.getPriority sema next :=
    fun _ _ _ h hcondition hstep =>
      ⟨h.1.step hstep, h.2.step h.1 hcondition.1 hcondition.2 hstep⟩
  have h := run_invariant_along hkeeps ⟨hinitial.invariant, hinitial.keepsBase sema⟩ hallowed hrun
  exact h.2.restored h.1

instance (sema : Address) : (action : Action) → Decidable (OnlyUses sema action)
  | .enter _ | .leave _ => inferInstanceAs (Decidable (_ = _))
  | .proceed | .suspendUntil _ | .resume _ | .advance _ | .dispatch _ => isTrue trivial

instance (system : System) : (action : Action) → Decidable (system.ReentersUnboosted action)
  | .enter _ => inferInstanceAs (Decidable (_ → _))
  | .leave _ | .proceed | .suspendUntil _ | .resume _ | .advance _ | .dispatch _ => isTrue trivial

/-- Thread 1 of priority 5 is boosted by thread 2 of priority 20 and leaves. -/
theorem priority_restored_boosted :
    ((run step (started [5, 20]) [.dispatch 2, .suspendUntil 10, .dispatch 1, .enter 7, .proceed,
      .enter 7, .proceed, .advance 10, .dispatch 2, .enter 7, .proceed, .dispatch 1, .leave 7,
      .leave 7, .proceed, .proceed]).map fun final => final.kernel.getPriority 1) = some 5 := by
  have hrun : run step (started [5, 20]) [.dispatch 2, .suspendUntil 10, .dispatch 1, .enter 7,
    .proceed, .enter 7, .proceed, .advance 10, .dispatch 2, .enter 7, .proceed, .dispatch 1,
    .leave 7, .leave 7, .proceed, .proceed] = some _ := rfl
  exact congrArg some (priority_restored 7 (started_initial _) (by decide) hrun 1 rfl rfl)

/-- Thread 1 enters again after thread 2 boosted it, and keeps the priority of thread 2. -/
def boostedReentry : List Action :=
  [.dispatch 2, .suspendUntil 10, .dispatch 1, .enter 7, .proceed, .advance 10, .dispatch 2,
    .enter 7, .proceed, .dispatch 1, .enter 7, .proceed, .leave 7, .leave 7, .proceed, .proceed]

theorem priority_not_restored :
    ¬ ∀ initial final sema actions, initial.Initial →
      Along step (fun system action => OnlyUses sema action ∧ system.FollowsScheduler action)
        initial actions →
      run step initial actions = some final → initial.Restored sema final := by
  intro hclaim
  have hrestored := hclaim (started [5, 20]) _ 7 boostedReentry (started_initial _) (by decide) rfl
  have hpriority := hrestored 1 rfl rfl
  revert hpriority
  decide

end System

end Rodos.BareMetal
