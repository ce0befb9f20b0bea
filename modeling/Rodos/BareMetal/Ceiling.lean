import Rodos.Library.Runs
import Rodos.BareMetal.Scheduler

/-! `PRIORITY_CEILER_IN_SCOPE` sections under timer ticks: when the scheduler leaves the thread
inside a section running. -/
namespace Rodos.BareMetal
open Library

structure Machine where
  kernel : Kernel
  /-- The priorities kept by the sections a thread is inside, innermost first. -/
  sections : ThreadId → List Int := fun _ => []
  /-- The running thread has suspended itself and not yet given up the processor. -/
  suspendedItself : Bool := false

inductive Activity where
  | openSection
  | closeSection
  | suspendCaller (reactivationTime : Int) (signaler : Option Address)
  | yield
  | setPriority (thread : ThreadId) (prio : Int)
  | resume (thread : ThreadId)
  | overflow (thread : ThreadId)
  | advance (duration : Nat)
  | tick

namespace Machine

/-- The constructor of `ScopePriority`. -/
def openSection (machine : Machine) : Machine :=
  let runner := machine.kernel.currentThread
  let (previousPriority, kernel) := machine.kernel.setPrioCurrentRunner CEILING_PRIORITY
  { machine with
    kernel := kernel
    sections := Function.update machine.sections runner
      (previousPriority :: machine.sections runner) }

/-- The destructor of `ScopePriority`. -/
def closeSection (machine : Machine) (previousPriority : Int) (outer : List Int) : Machine :=
  { machine with
    kernel := (machine.kernel.setPrioCurrentRunner previousPriority).2
    sections := Function.update machine.sections machine.kernel.currentThread outer }

/-- The idle thread yields and does nothing else of this list. -/
def step (machine : Machine) : Activity → Option Machine
  | .openSection =>
    if machine.kernel.currentThread = idlethread then none else some machine.openSection
  | .closeSection =>
    match machine.sections machine.kernel.currentThread with
    | [] => none
    | previousPriority :: outer => some (machine.closeSection previousPriority outer)
  | .suspendCaller reactivationTime signaler =>
    if machine.kernel.currentThread = idlethread then none
    else some { machine with
      kernel := machine.kernel.suspendCaller reactivationTime signaler
      suspendedItself := true }
  | .yield => some { machine with kernel := machine.kernel.yield, suspendedItself := false }
  | .setPriority thread prio =>
    some { machine with kernel := machine.kernel.setPriority thread prio }
  | .resume thread => some { machine with kernel := machine.kernel.resume thread }
  | .overflow thread =>
    some { machine with
      kernel := machine.kernel.modify thread fun self => { self with beyondStack := true } }
  | .advance duration =>
    some { machine with
      kernel := { machine.kernel with timeNow := machine.kernel.timeNow + duration } }
  | .tick =>
    let kernel := machine.kernel.schedulerWrapper
    some { machine with
      kernel := kernel
      suspendedItself :=
        machine.suspendedItself && machine.kernel.scheduleCounter == kernel.scheduleCounter }

/-- Any threads with any priorities and suspend times, about to start the idle thread. -/
structure Initial (machine : Machine) : Prop where
  idle_listed : idlethread ∈ machine.kernel.threadList
  idle_runs : machine.kernel.currentThread = idlethread
  time_positive : 0 < machine.kernel.timeNow
  not_scheduled : machine.kernel.scheduleCounter = 0
  not_activated : ∀ thread, (machine.kernel.thread thread).lastActivation = 0
  not_preselected : machine.kernel.preSelectedNextToRun = none
  no_sections : ∀ thread, machine.sections thread = []
  not_suspended : machine.suspendedItself = false

/-- The running thread is the last one activated, and ready unless it suspended itself. -/
structure Invariant (machine : Machine) : Prop where
  current_listed : machine.kernel.currentThread ∈ machine.kernel.threadList
  idle_listed : idlethread ∈ machine.kernel.threadList
  idle_outside : machine.sections idlethread = []
  time_positive : 0 < machine.kernel.timeNow
  not_preselected : machine.kernel.preSelectedNextToRun = none
  activated_le : ∀ thread,
    (machine.kernel.thread thread).lastActivation ≤ machine.kernel.scheduleCounter
  current_last : machine.kernel.currentThread ≠ idlethread →
    ∀ other ≠ machine.kernel.currentThread, (machine.kernel.thread other).lastActivation <
      (machine.kernel.thread machine.kernel.currentThread).lastActivation
  current_ready : machine.kernel.currentThread ≠ idlethread → machine.suspendedItself = false →
    machine.kernel.IsReady machine.kernel.currentThread

theorem Initial.invariant {machine : Machine} (h : machine.Initial) : machine.Invariant where
  current_listed := h.idle_runs ▸ h.idle_listed
  idle_listed := h.idle_listed
  idle_outside := h.no_sections idlethread
  time_positive := h.time_positive
  not_preselected := h.not_preselected
  activated_le thread := by simp [h.not_activated thread]
  current_last hne := absurd h.idle_runs hne
  current_ready hne := absurd h.idle_runs hne

/-- A change of one thread that keeps its last activation and the readiness of the runner. -/
theorem Invariant.modify {machine : Machine} (h : machine.Invariant) (thread : ThreadId)
    {change : Thread → Thread} {sections : ThreadId → List Int} {suspendedItself : Bool}
    {tryAgain : Int}
    (hactivation : ∀ self, (change self).lastActivation = self.lastActivation)
    (hidle : sections idlethread = [])
    (hready : machine.kernel.currentThread ≠ idlethread → suspendedItself = false →
      (machine.kernel.modify thread change).IsReady machine.kernel.currentThread) :
    Invariant ⟨{ machine.kernel with timeToTryAgainToSchedule := tryAgain }.modify thread change,
      sections, suspendedItself⟩ := by
  have hkept : ∀ other, ((machine.kernel.modify thread change).thread other).lastActivation =
      (machine.kernel.thread other).lastActivation := by
    intro other
    rw [Kernel.thread_modify]
    split
    · exact hactivation _
    · rfl
  refine ⟨h.current_listed, h.idle_listed, hidle, h.time_positive, h.not_preselected,
    fun other => ?_, fun hne other hother => ?_, hready⟩
  · show ((machine.kernel.modify thread change).thread other).lastActivation ≤ _
    rw [hkept]
    exact h.activated_le other
  · show ((machine.kernel.modify thread change).thread other).lastActivation <
      ((machine.kernel.modify thread change).thread machine.kernel.currentThread).lastActivation
    rw [hkept, hkept]
    exact h.current_last hne other hother

/-- The scheduler lets a ready thread run. -/
theorem Invariant.switch {machine : Machine} (h : machine.Invariant) {before : Kernel}
    (hthread : before.thread = machine.kernel.thread)
    (hlist : before.threadList = machine.kernel.threadList)
    (htime : before.timeNow = machine.kernel.timeNow)
    (hcounter : before.scheduleCounter = machine.kernel.scheduleCounter)
    (hcandidate : before.candidate = before.findNextToRun.1) {suspendedItself : Bool} :
    Invariant ⟨before.schedule.2.activate before.schedule.1, machine.sections,
      suspendedItself⟩ := by
  have hswitched := before.schedule_switched
  have hnext : before.schedule.1 = idlethread ∨
      before.schedule.1 ∈ before.threadList ∧ before.IsReady before.schedule.1 ∧
        (before.thread before.schedule.1).beyondStack = false := by
    rw [before.schedule_fst, hcandidate]
    have := before.findNextToRun_mem
    grind
  refine ⟨?_, ?_, h.idle_outside, ?_, hswitched.not_preselected, fun other => ?_,
    fun hne other hother => ?_, fun hne _ => ?_⟩
  · rw [hswitched.current_eq, hswitched.threadList_eq]
    rcases hnext with hidle | hlisted
    · rw [hidle, hlist]
      exact h.idle_listed
    · exact hlisted.1
  · rw [hswitched.threadList_eq, hlist]
    exact h.idle_listed
  · rw [hswitched.timeNow_eq, htime]
    exact h.time_positive
  · rw [hswitched.counter_eq]
    by_cases hsame : other = before.schedule.1
    · rw [hsame]
      exact Nat.le_of_eq hswitched.activated
    · rw [hswitched.activated_other other hsame, hthread, hcounter]
      exact Nat.le_succ_of_le (h.activated_le other)
  · rw [hswitched.current_eq] at hother ⊢
    rw [hswitched.activated, hswitched.activated_other other hother, hthread, hcounter]
    exact Nat.lt_succ_of_le (h.activated_le other)
  · rw [hswitched.current_eq] at hne ⊢
    obtain ⟨-, hready, hstack⟩ := hnext.resolve_left hne
    unfold Kernel.IsReady
    rw [hswitched.suspended_eq _ hstack, hswitched.timeNow_eq]
    exact hready

theorem Invariant.yield {machine : Machine} (h : machine.Invariant) :
    Invariant { machine with kernel := machine.kernel.yield, suspendedItself := false } := by
  rw [Kernel.yield_eq]
  split
  · next hstays =>
    refine ⟨h.current_listed, h.idle_listed, h.idle_outside, h.time_positive, h.not_preselected,
      h.activated_le, h.current_last, fun hne _ => ?_⟩
    have hready := machine.kernel.findNextToRun_mem
    rw [hstays] at hready
    exact (hready.resolve_left hne).2
  · rw [Kernel.schedulerWrapper, if_neg (Int.not_lt.mpr (Int.le_of_lt h.time_positive))]
    apply h.switch <;> rfl

theorem Invariant.tick {machine : Machine} (h : machine.Invariant) {suspendedItself : Bool}
    (hsame : machine.kernel.timeNow < machine.kernel.timeToTryAgainToSchedule →
      suspendedItself = machine.suspendedItself) :
    Invariant { machine with
      kernel := machine.kernel.schedulerWrapper, suspendedItself := suspendedItself } := by
  unfold Kernel.schedulerWrapper
  split
  · next hearly =>
    rw [hsame hearly]
    exact h
  · apply h.switch rfl rfl rfl rfl
    rw [Kernel.candidate, h.not_preselected]
    rfl

theorem Invariant.step {machine next : Machine} {activity : Activity} (h : machine.Invariant)
    (hstep : machine.step activity = some next) : next.Invariant := by
  cases activity with
  | openSection =>
    simp only [Machine.step] at hstep
    split at hstep
    · cases hstep
    · next hactive =>
      cases hstep
      unfold Machine.openSection Kernel.setPrioCurrentRunner Kernel.setPriority
      refine h.modify _ (fun _ => rfl) ?_ (fun hne hruns => ?_)
      · rw [Function.update_of_ne (Ne.symm hactive)]
        exact h.idle_outside
      · simpa [Kernel.IsReady] using h.current_ready hne hruns
  | closeSection =>
    simp only [Machine.step] at hstep
    split at hstep
    · cases hstep
    · next previousPriority outer hinside =>
      cases hstep
      have hactive : machine.kernel.currentThread ≠ idlethread := by
        intro hidle
        rw [hidle, h.idle_outside] at hinside
        cases hinside
      unfold Machine.closeSection Kernel.setPrioCurrentRunner Kernel.setPriority
      dsimp only
      refine h.modify _ (fun _ => rfl) ?_ (fun hne hruns => ?_)
      · rw [Function.update_of_ne (Ne.symm hactive)]
        exact h.idle_outside
      · simpa [Kernel.IsReady] using h.current_ready hne hruns
  | suspendCaller reactivationTime signaler =>
    simp only [Machine.step] at hstep
    split at hstep
    · cases hstep
    · cases hstep
      exact h.modify _ (fun _ => rfl) h.idle_outside (fun _ hruns => nomatch hruns)
  | yield =>
    cases hstep
    exact h.yield
  | setPriority thread prio =>
    cases hstep
    refine h.modify _ (fun _ => rfl) h.idle_outside (fun hne hruns => ?_)
    have hready := h.current_ready hne hruns
    rw [Kernel.IsReady, Kernel.thread_modify]
    split <;> exact hready
  | resume thread =>
    cases hstep
    refine h.modify _ (fun _ => rfl) h.idle_outside (fun hne hruns => ?_)
    have hready := h.current_ready hne hruns
    rw [Kernel.IsReady, Kernel.thread_modify]
    split
    · exact h.time_positive
    · exact hready
  | overflow thread =>
    cases hstep
    refine h.modify _ (fun _ => rfl) h.idle_outside (fun hne hruns => ?_)
    have hready := h.current_ready hne hruns
    rw [Kernel.IsReady, Kernel.thread_modify]
    split <;> exact hready
  | advance duration =>
    cases hstep
    have htime := h.time_positive
    refine ⟨h.current_listed, h.idle_listed, h.idle_outside, by dsimp only; omega,
      h.not_preselected, h.activated_le, h.current_last, fun hne hruns => ?_⟩
    have hready := h.current_ready hne hruns
    simp only [Kernel.IsReady] at hready ⊢
    omega
  | tick =>
    cases hstep
    refine h.tick (fun hearly => ?_)
    rw [Kernel.schedulerWrapper, if_pos hearly]
    simp [Kernel.activate]

theorem Invariant.run {initial final : Machine} {activities : List Activity}
    (hinitial : initial.Initial) (hrun : run Machine.step initial activities = some final) :
    final.Invariant :=
  run_invariant (fun _ _ _ h hstep => h.step hstep) hinitial.invariant hrun

/-- A thread that the scheduler would prefer to the running one, were it to decide now: the idle
thread, which it falls back to, or any other thread that is ready. -/
def Competes (machine : Machine) (other : ThreadId) : Prop :=
  other ≠ machine.kernel.currentThread ∧
    (other = idlethread ∨ other ∈ machine.kernel.threadList ∧ machine.kernel.IsReady other)

/-- Inside a section the scheduler's choice does not fall on another thread. -/
def KeepsRunning (machine : Machine) : Prop :=
  machine.sections machine.kernel.currentThread ≠ [] → machine.suspendedItself = false →
    machine.kernel.schedule.1 = machine.kernel.currentThread

/-- A competitor of the running thread's priority was activated before it and is preferred. -/
theorem Invariant.precedes_current_iff {machine : Machine} (h : machine.Invariant)
    (hactive : machine.kernel.currentThread ≠ idlethread) {other : ThreadId}
    (hother : other ≠ machine.kernel.currentThread) :
    machine.kernel.Precedes machine.kernel.currentThread other ↔
      machine.kernel.getPriority other <
        machine.kernel.getPriority machine.kernel.currentThread := by
  have hlast := h.current_last hactive other hother
  unfold Kernel.Precedes
  omega

theorem Invariant.findNextToRun_eq_current_iff {machine : Machine} (h : machine.Invariant)
    (hactive : machine.kernel.currentThread ≠ idlethread)
    (hruns : machine.suspendedItself = false) :
    machine.kernel.findNextToRun.1 = machine.kernel.currentThread ↔
      ∀ other, machine.Competes other →
        machine.kernel.getPriority other <
          machine.kernel.getPriority machine.kernel.currentThread := by
  have hpreference := machine.kernel.precedes_preference
  have hcompetes : ∀ other, other ∈ idlethread ::
        machine.kernel.threadList.filter (fun thread => machine.kernel.IsReady thread) ↔
      other = machine.kernel.currentThread ∨ machine.Competes other := by
    intro other
    have hready := h.current_ready hactive hruns
    have hlisted := h.current_listed
    rw [List.mem_cons, Kernel.mem_readyList, Competes]
    grind
  rw [Kernel.findNextToRun_fst]
  constructor
  · intro hchosen other hother
    have hnot := hpreference.not_better_selectBest idlethread _ other
      ((hcompetes other).mpr (Or.inr hother))
    rw [hchosen] at hnot
    have hlast := h.current_last hactive other hother.1
    unfold Kernel.Precedes at hnot
    omega
  · intro hlower
    refine hpreference.selectBest_eq ((hcompetes _).mpr (Or.inl rfl)) (fun other hother hne => ?_)
    rw [h.precedes_current_iff hactive hne]
    exact hlower other (((hcompetes other).mp hother).resolve_left hne)

/-- In every run, while a thread inside a section has not suspended itself, the scheduler's choice
stays with it exactly when its stack holds and every competitor has a lower priority. -/
theorem section_keeps_running_iff {initial final : Machine} {activities : List Activity}
    (hinitial : initial.Initial) (hrun : run step initial activities = some final)
    (hinside : final.sections final.kernel.currentThread ≠ [])
    (hruns : final.suspendedItself = false) :
    final.kernel.schedule.1 = final.kernel.currentThread ↔
      (final.kernel.thread final.kernel.currentThread).beyondStack = false ∧
        ∀ other, final.Competes other →
          final.kernel.getPriority other < final.kernel.getPriority final.kernel.currentThread := by
  have h := Invariant.run hinitial hrun
  have hactive : final.kernel.currentThread ≠ idlethread := by
    intro hidle
    rw [hidle] at hinside
    exact hinside h.idle_outside
  have hcandidate : final.kernel.candidate = final.kernel.findNextToRun.1 := by
    rw [Kernel.candidate, h.not_preselected]
    rfl
  rw [← h.findNextToRun_eq_current_iff hactive hruns, Kernel.schedule_fst, hcandidate]
  constructor
  · intro hchosen
    split at hchosen
    · exact absurd hchosen.symm hactive
    · next hstack =>
      rw [hchosen] at hstack
      exact ⟨by simpa using hstack, hchosen⟩
  · rintro ⟨hstack, hchosen⟩
    rw [hchosen, hstack]
    rfl

/-- The idle thread and two threads of priorities 5 and 3, ready at time 1. -/
def twoThreads : Machine where
  kernel := {
    threadList := [0, 1, 2]
    thread := fun thread =>
      if thread = 1 then { priority := 5 } else if thread = 2 then { priority := 3 } else {}
    timeNow := 1 }

theorem twoThreads_initial : twoThreads.Initial := by
  refine ⟨by decide, rfl, by decide, rfl, fun thread => ?_, rfl, fun _ => rfl, rfl⟩
  simp only [twoThreads]
  split
  · rfl
  · split <;> rfl

/-- The thread of priority 5 goes on in its section while the other one is ready. -/
theorem section_keeps_running_iff_alone :
    ((run step twoThreads [.tick, .openSection]).map fun machine =>
      (machine.kernel.schedule.1, machine.kernel.currentThread)) = some (1, 1) := by
  have hrun : run step twoThreads [.tick, .openSection] = some _ := rfl
  have hiff := section_keeps_running_iff twoThreads_initial hrun (by decide) rfl
  have hlower : ∀ other ∈ [0, 1, 2], other ≠ 1 →
      (twoThreads.kernel.schedulerWrapper.setPriority 1 CEILING_PRIORITY).getPriority other <
        CEILING_PRIORITY := by
    decide
  have hchosen := hiff.mpr ⟨rfl, fun other hother => ?_⟩
  · exact congrArg some (Prod.ext hchosen rfl)
  · obtain ⟨hne, rfl | ⟨hlisted, -⟩⟩ := hother
    · decide
    · exact hlower other hlisted hne

/-- The first thread suspends itself inside a section, the second one is inside another section
when the first is resumed, and the tick switches to the first. -/
def resumedInSection : List Activity :=
  [.tick, .openSection, .suspendCaller END_OF_TIME none, .yield, .openSection, .resume 1]

theorem section_not_atomic :
    ¬ ∀ initial final activities, initial.Initial →
      run step initial activities = some final → final.KeepsRunning := by
  intro hclaim
  have hkeeps := hclaim twoThreads _ resumedInSection twoThreads_initial rfl
  have hchosen := hkeeps (by decide) rfl
  revert hchosen
  decide

end Machine

end Rodos.BareMetal
