import Rodos.BareMetal.SemaphoreInvariant

/-! The hand-over of a semaphore at the outermost `leave`: which of the waiting threads gets it. -/
namespace Rodos.BareMetal
open Library

namespace System

/-- No two threads have been activated by the same call of the scheduler. -/
structure Activations (system : System) : Prop where
  counted : ∀ thread,
    (system.kernel.thread thread).lastActivation ≤ system.kernel.scheduleCounter
  distinct : ∀ first second, first ≠ second → 0 < (system.kernel.thread first).lastActivation →
    (system.kernel.thread first).lastActivation ≠ (system.kernel.thread second).lastActivation
  current : system.current ≠ idlethread →
    0 < (system.kernel.thread system.current).lastActivation
  calls : ∀ thread, system.position thread ≠ .outside →
    0 < (system.kernel.thread thread).lastActivation

/-- A step of the running thread, or one that no thread takes. -/
structure KeepsActivations (system next : System) : Prop where
  activation_eq : ∀ thread, (next.kernel.thread thread).lastActivation =
    (system.kernel.thread thread).lastActivation
  counter_eq : next.kernel.scheduleCounter = system.kernel.scheduleCounter
  current_eq : next.current = system.current
  position_eq : ∀ thread ≠ system.current, next.position thread = system.position thread

variable {system : System}

theorem Activations.keep {next : System} (h : system.Activations) (hnext : next.Invariant)
    (hkeeps : system.KeepsActivations next) : next.Activations := by
  obtain ⟨hactivation, hcounter, hcurrent, hposition⟩ := hkeeps
  refine ⟨fun thread => ?_, fun first second => ?_, fun hne => ?_, fun thread hinside => ?_⟩
  · rw [hactivation, hcounter]
    exact h.counted thread
  · rw [hactivation, hactivation]
    exact h.distinct first second
  · rw [hactivation, hcurrent]
    exact h.current (hcurrent ▸ hne)
  · rw [hactivation]
    by_cases hrunner : thread = system.current
    · subst hrunner
      refine h.current (fun hidle => hinside ?_)
      rw [hidle]
      exact hnext.idle_outside
    · rw [hposition thread hrunner] at hinside
      exact h.calls thread hinside

theorem keepsActivations_own (sema : Address)
    (callerPriority previousPriority ownerEnterCnt : Int) :
    system.KeepsActivations (system.own sema callerPriority previousPriority ownerEnterCnt) where
  activation_eq thread := by
    rw [own_thread]
    split <;> rfl
  counter_eq := rfl
  current_eq := rfl
  position_eq thread hother := by
    rw [own_position, if_neg hother]

theorem keepsActivations_block {sema : Address}
    (hoccupied : system.IsOccupied sema) (callerPriority previousPriority : Int) :
    system.KeepsActivations (system.block sema callerPriority previousPriority) where
  activation_eq thread := by
    rw [block_thread _ _ _ _ hoccupied]
    split
    · rfl
    · split <;> rfl
  counter_eq := by simp [block, Kernel.suspendCaller]
  current_eq := by simp [block, Kernel.suspendCaller, current]
  position_eq thread hother := by
    rw [block_position, if_neg hother]

theorem keepsActivations_kernel {kernel : Kernel}
    (hactivation : ∀ thread, (kernel.thread thread).lastActivation =
      (system.kernel.thread thread).lastActivation)
    (hcounter : kernel.scheduleCounter = system.kernel.scheduleCounter)
    (hcurrent : kernel.currentThread = system.kernel.currentThread) :
    system.KeepsActivations { system with kernel := kernel } where
  activation_eq := hactivation
  counter_eq := hcounter
  current_eq := hcurrent
  position_eq _ _ := rfl

theorem keepsActivations_setPrio (prio : Int) :
    system.KeepsActivations (system.setPrioCurrentRunner prio) where
  activation_eq thread := by
    rw [setPrioCurrentRunner_thread]
    split <;> rfl
  counter_eq := rfl
  current_eq := rfl
  position_eq _ _ := rfl

theorem KeepsActivations.trans {middle next : System} (h : system.KeepsActivations middle)
    (hnext : middle.KeepsActivations next) : system.KeepsActivations next where
  activation_eq thread := (hnext.activation_eq thread).trans (h.activation_eq thread)
  counter_eq := hnext.counter_eq.trans h.counter_eq
  current_eq := hnext.current_eq.trans h.current_eq
  position_eq thread hother := by
    rw [hnext.position_eq thread (by rwa [h.current_eq])]
    exact h.position_eq thread hother

theorem keepsActivations_moveTo (position : Position) :
    system.KeepsActivations (system.moveTo position) where
  activation_eq _ := rfl
  counter_eq := rfl
  current_eq := rfl
  position_eq thread hother := by
    rw [moveTo_position, if_neg hother]

theorem keepsActivations_leave (sema : Address) :
    system.KeepsActivations (system.leave sema) := by
  have hkernel := system.leave_kernel sema
  refine ⟨fun thread => by rw [hkernel], by rw [hkernel], by rw [current, hkernel],
    fun thread hother => ?_⟩
  by_cases howner : (system.semaphore sema).owner = some system.current
  · rw [system.leave_position sema howner,
      if_neg (fun hsame => hother hsame.1)]
  · rw [system.leave_of_not_owner sema howner]

theorem keepsActivations_leaveSection (sema : Address) :
    system.KeepsActivations (system.leaveSection sema) where
  activation_eq thread := by
    rw [leaveSection_thread]
    split <;> rfl
  counter_eq := by simp [leaveSection, Kernel.setPrioCurrentRunner, Kernel.setPriority]
  current_eq := leaveSection_current system sema
  position_eq thread hother := by
    rw [leaveSection_position, if_neg hother]

theorem keepsActivations_suspendCaller (reactivationTime : Int) (signaler : Option Address) :
    system.KeepsActivations
      { system with kernel := system.kernel.suspendCaller reactivationTime signaler } := by
  refine keepsActivations_kernel (fun thread => ?_) rfl rfl
  rw [Kernel.suspendCaller, Kernel.thread_modify]
  split <;> rfl

theorem keepsActivations_enterSection (sema : Address) (callerPriority : Int) :
    system.KeepsActivations (system.enterSection sema callerPriority) := by
  apply (keepsActivations_setPrio CEILING_PRIORITY).trans
  dsimp only [System.enterSection]
  split
  · next hoccupied => exact keepsActivations_block hoccupied _ _
  · exact keepsActivations_own _ _ _ _

theorem keepsActivations_wake (sema : Address) (callerPriority previousPriority : Int) :
    system.KeepsActivations (system.wake sema callerPriority previousPriority) := by
  have hend : system.KeepsActivations { system with kernel := system.kernel.endWaiting } := by
    refine keepsActivations_kernel (fun thread => ?_) rfl rfl
    rw [Kernel.endWaiting, Kernel.thread_modify]
    split <;> rfl
  apply hend.trans
  dsimp only [System.wake]
  split
  · exact keepsActivations_suspendCaller _ _
  · exact keepsActivations_own _ _ _ _

theorem Activations.dispatch (h : system.Activations) (thread : ThreadId) :
    Activations { system with kernel := dispatch system.kernel thread } := by
  obtain ⟨next, hswitched⟩ : ∃ next, Kernel.Switched
      { system.kernel with preSelectedNextToRun := some thread }
      (System.dispatch system.kernel thread) next :=
    ⟨_, Kernel.schedule_switched _⟩
  have hactivated := hswitched.activated
  have hothers := hswitched.activated_other
  have hcounter := hswitched.counter_eq
  have hcurrent := hswitched.current_eq
  have hcounted := h.counted
  have hdistinct := h.distinct
  have hcalls := h.calls
  generalize System.dispatch system.kernel thread = kernel at *
  dsimp only at hactivated hothers hcounter
  constructor <;> grind

theorem Activations.step {next : System} {action : Action} (h : system.Activations)
    (hinvariant : system.Invariant) (hstep : system.step action = some next) :
    next.Activations := by
  have hnext := hinvariant.step hstep
  cases transition_of_step hstep with
  | enter => exact h.keep hnext (keepsActivations_moveTo _)
  | leave => exact h.keep hnext (keepsActivations_leave _)
  | enterSection => exact h.keep hnext (keepsActivations_enterSection _ _)
  | wake => exact h.keep hnext (keepsActivations_wake _ _ _)
  | leaveSection => exact h.keep hnext (keepsActivations_leaveSection _)
  | restore =>
    exact h.keep hnext ((keepsActivations_setPrio _).trans (keepsActivations_moveTo .outside))
  | suspendUntil => exact h.keep hnext (keepsActivations_suspendCaller _ _)
  | resume =>
    refine h.keep hnext (keepsActivations_kernel (fun other => ?_) rfl rfl)
    rw [Kernel.resume, Kernel.thread_modify]
    split <;> rfl
  | advance => exact h.keep hnext (keepsActivations_kernel (fun _ => rfl) rfl rfl)
  | dispatch => exact h.dispatch _

theorem Initial.activations (h : system.Initial) : system.Activations where
  counted thread := by
    rw [h.not_activated]
    exact Nat.zero_le _
  distinct first second _ hpositive := by
    rw [h.not_activated] at hpositive
    exact absurd hpositive (Nat.lt_irrefl 0)
  current hne := absurd h.idle_runs hne
  calls thread hinside := absurd (h.position_eq thread) hinside

theorem Activations.run {initial final : System} {actions : List Action}
    (hinitial : initial.Initial) (hrun : Library.run System.step initial actions = some final) :
    final.Activations := by
  have hkeeps : ∀ (system : System) (action : Action) (next : System),
      system.Invariant ∧ system.Activations → system.step action = some next →
        next.Invariant ∧ next.Activations :=
    fun _ _ _ h hstep => ⟨h.1.step hstep, h.2.step h.1 hstep⟩
  exact (run_invariant hkeeps ⟨hinitial.invariant, hinitial.activations⟩ hrun).2

/-- The thread is suspended for the semaphore and called `enter` with that priority. -/
def WaitsWith (system : System) (thread : ThreadId) (sema : Address) (ownPriority : Int) : Prop :=
  (system.kernel.thread thread).waitingFor = some sema ∧
    (system.position thread).waitsWith = some (sema, ownPriority)

/-- No thread that waits for the semaphore has a higher own priority than this waiter. -/
def IsMostUrgent (system : System) (thread : ThreadId) (sema : Address) : Prop :=
  ∃ ownPriority, system.WaitsWith thread sema ownPriority ∧
    ∀ other otherPriority, system.WaitsWith other sema otherPriority →
      otherPriority ≤ ownPriority

theorem Invariant.waitsWith {thread : ThreadId} {sema : Address} (h : system.Invariant)
    (hwaits : (system.kernel.thread thread).waitingFor = some sema) :
    ∃ ownPriority, system.WaitsWith thread sema ownPriority := by
  have hwaiting := (h.waitingFor thread sema hwaits).1
  rw [Waiting] at hwaiting
  cases hposition : system.position thread with
  | waiting place ownPriority previousPriority =>
    rw [hposition] at hwaiting
    cases hwaiting
    exact ⟨ownPriority, hwaits, by rw [hposition]; rfl⟩
  | outside | entering | leaving | restoring =>
    rw [hposition] at hwaiting
    cases hwaiting

/-- Someone who waits gets the semaphore, and nobody who waits is more urgent. -/
def HandsToMostUrgent (before after : System) (sema : Address) : Prop :=
  (∃ thread, (before.kernel.thread thread).waitingFor = some sema) →
    ∃ newOwner, after.owner sema = some newOwner ∧ before.IsMostUrgent newOwner sema

/-- In every run, the section of the outermost `leave` gives the semaphore to a waiter of the
highest own priority exactly when one such waiter comes before all other waiters by the order of
current priorities and last activations. -/
theorem handed_to_most_urgent_iff {initial final next : System} {actions : List Action}
    {sema : Address} (hinitial : initial.Initial)
    (hrun : run step initial actions = some final)
    (hleaving : final.position final.current = .leaving sema)
    (hstep : final.step .proceed = some next) :
    HandsToMostUrgent final next sema ↔
      ((∃ thread, (final.kernel.thread thread).waitingFor = some sema) →
        ∃ waiter, final.IsMostUrgent waiter sema ∧
          ∀ other ≠ waiter, (final.kernel.thread other).waitingFor = some sema →
            final.kernel.Precedes waiter other) := by
  have hinvariant := Invariant.run hinitial hrun
  have hactivations := Activations.run hinitial hrun
  have hnot : (final.position final.current).waitsFor = none := by
    rw [hleaving]
    rfl
  have hactive : final.current ≠ idlethread := by
    intro hidle
    rw [hidle, hinvariant.idle_outside] at hleaving
    cases hleaving
  obtain rfl : final.leaveSection sema = next := by
    simp only [System.step, System.proceed, hleaving] at hstep
    exact Option.some.inj hstep
  have howner : (final.leaveSection sema).owner sema = final.nextWaiter sema := by
    rw [owner, leaveSection_semaphore, if_pos rfl]
  refine imp_congr_right (fun _ => ?_)
  rw [howner]
  constructor
  · rintro ⟨newOwner, hfound, hurgent⟩
    refine ⟨newOwner, hurgent, fun other hother hwaits => ?_⟩
    obtain ⟨hnewOwner, hbest⟩ := hinvariant.nextWaiter_some hnot hfound
    have hnobetter := hbest other hwaits
    -- waiters have run, so that no two of them were activated at the same time
    have hcalled : final.position newOwner ≠ .outside := by
      intro houtside
      have hwaiting := (hinvariant.waitingFor newOwner sema hnewOwner).1
      rw [Waiting, houtside] at hwaiting
      cases hwaiting
    have hdistinct := hactivations.distinct newOwner other hother.symm
      (hactivations.calls newOwner hcalled)
    unfold Kernel.Precedes at hnobetter ⊢
    omega
  · rintro ⟨waiter, hurgent, hfirst⟩
    obtain ⟨ownPriority, hwaits, -⟩ := id hurgent
    cases hfound : final.nextWaiter sema with
    | none => exact absurd hwaits.1 (hinvariant.nextWaiter_none hactive hnot hfound waiter)
    | some newOwner =>
      refine ⟨newOwner, rfl, ?_⟩
      obtain ⟨hnewOwner, hbest⟩ := hinvariant.nextWaiter_some hnot hfound
      by_contra hless
      have hne : newOwner ≠ waiter := by
        rintro rfl
        exact hless hurgent
      exact hbest waiter hwaits.1 (hfirst newOwner hne hnewOwner)

/-- Thread 2 is the only one that waits when thread 1 leaves. -/
def oneWaiter : List Action :=
  [.dispatch 1, .enter 7, .proceed, .dispatch 2, .enter 7, .proceed, .dispatch 1, .leave 7]

theorem handed_to_most_urgent_iff_alone :
    ∃ final next, run step (started [5, 20]) oneWaiter = some final ∧
      final.step .proceed = some next ∧ HandsToMostUrgent final next 7 := by
  have hrun : run step (started [5, 20]) oneWaiter = some _ := rfl
  have hinvariant := Invariant.run (started_initial [5, 20]) hrun
  have hthreads : ∀ other ∈ [0, 1, 2], other = 2 ∨
      ((run step (started [5, 20]) oneWaiter).map fun final =>
        (final.kernel.thread other).waitingFor) ≠ some (some 7) := by
    decide
  have honly : ∀ other, ((_ : System).kernel.thread other).waitingFor = some 7 → other = 2 :=
    fun other hwaits => (hthreads other (hinvariant.waitingFor_listed hwaits)).resolve_right
      (not_not_intro (congrArg some hwaits))
  refine ⟨_, _, hrun, rfl, ?_⟩
  refine (handed_to_most_urgent_iff (started_initial [5, 20]) hrun rfl rfl).mpr
    (fun _ => ⟨2, ⟨20, ⟨rfl, rfl⟩, fun other otherPriority hother => ?_⟩,
      fun other hne hwaits => absurd (honly other hwaits) hne⟩)
  obtain rfl := honly other hother.1
  have hsame : some ((7 : Address), otherPriority) = some (7, (20 : Int)) := hother.2.symm
  exact Int.le_of_eq (Prod.mk.inj (Option.some.inj hsame)).2

/-- Thread 2 of priority 10 waits for a longer time than thread 3 of priority 30. -/
def lessUrgentFirst : List Action :=
  [.dispatch 3, .suspendUntil 20, .dispatch 2, .suspendUntil 10, .dispatch 1, .enter 7, .proceed,
    .advance 10, .dispatch 2, .enter 7, .proceed, .dispatch 1, .advance 10, .dispatch 3, .enter 7,
    .proceed, .dispatch 1, .leave 7]

theorem handed_to_less_urgent :
    ¬ ∀ initial final next actions sema, initial.Initial →
      Along step FollowsScheduler initial actions →
      run step initial actions = some final → final.position final.current = .leaving sema →
      final.step .proceed = some next → HandsToMostUrgent final next sema := by
  intro hclaim
  obtain ⟨newOwner, howner, ownPriority, hwaits, hmost⟩ :=
    hclaim (started [5, 10, 30]) _ _ lessUrgentFirst 7 (started_initial _) (by decide) rfl rfl rfl
      ⟨2, rfl⟩
  obtain rfl : newOwner = 2 := Option.some.inj (howner.symm.trans (by decide))
  obtain rfl : ownPriority = 10 := by
    have hsame : some ((7 : Address), ownPriority) = some (7, (10 : Int)) := hwaits.2.symm
    exact (Prod.mk.inj (Option.some.inj hsame)).2
  have hless := hmost 3 30 ⟨rfl, rfl⟩
  revert hless
  decide

end System

end Rodos.BareMetal
