import Rodos.Api.SyncFifoWakeup

/-! `Barrier`: one thread waits for a signal with a timeout, any number of threads give the signal.
A section under `PRIORITY_CEILER_IN_SCOPE` is one step up to its `suspendCallerUntil`; what stands
outside of the sections is one step for each access to `owner`. -/
namespace Rodos.Api
open Library BareMetal

/-- How far the waiting thread has come in `waitForSignal`. -/
inductive WaitAt where
  | outside
  /-- The look at `owner` before the section. -/
  | called (condition : Bool) (timeOutAt : Int)
  /-- The section comes next. -/
  | entering (condition : Bool) (timeOutAt : Int)
  /-- In `suspendCallerUntil`. -/
  | sleeping
  /-- `owner = 0;` behind the section. -/
  | leaving (ok : Bool)
  | returning (ok : Bool)
deriving DecidableEq

/-- How far a thread has come in `unblock`. -/
inductive UnblockAt where
  | outside
  | called
  | entering
  | returning (ok : Bool)
deriving DecidableEq

/-- The last three fields are not in the program: how many sections of `unblock` found an owner, how
many of these came after the end of its wait, and how many waits a signal has ended. -/
structure BarrierSystem where
  kernel : Kernel
  /-- The address of the barrier. -/
  barrier : Address
  owner : Option ThreadId := none
  waiter : ThreadId
  wait : WaitAt := .outside
  unblock : ThreadId → UnblockAt := fun _ => .outside
  signals : Nat := 0
  late : Nat := 0
  answered : Nat := 0

inductive BarrierAction where
  | waitForSignal (condition : Bool) (timeOutAt : Int)
  | unblock (thread : ThreadId)
  /-- The waiting thread takes the next step of its call. -/
  | waiter
  /-- A thread takes the next step of its call of `unblock`. -/
  | unblocker (thread : ThreadId)
  | advance (duration : Nat)
  /-- Some other thread or an interrupt server resumes a thread. -/
  | resume (thread : ThreadId)

namespace BarrierSystem

/-- The next step of `waitForSignal`. -/
def waitStep (system : BarrierSystem) : Option BarrierSystem :=
  match system.wait with
  | .outside => none
  | .called condition timeOutAt =>
    some { system with
      wait := if system.owner ≠ none then .returning false else .entering condition timeOutAt }
  | .entering condition timeOutAt =>
    if condition then
      some { system with
        kernel := system.kernel.suspendCaller timeOutAt (some system.barrier)
        owner := some system.kernel.currentThread
        wait := .sleeping }
    else some { system with wait := .leaving true }
  | .sleeping =>
    let ok := decide (system.owner = none)
    some { system with
      kernel := system.kernel.endWaiting
      wait := .leaving ok
      answered := system.answered + ok.toNat }
  | .leaving ok => some { system with owner := none, wait := .returning ok }
  | .returning _ => some { system with wait := .outside }

/-- The section of `unblock`. -/
def unblockSection (system : BarrierSystem) (thread : ThreadId) : BarrierSystem :=
  match system.owner with
  | none => { system with unblock := Function.update system.unblock thread (.returning false) }
  | some owner =>
    { system with
      kernel := system.kernel.resume owner
      owner := none
      unblock := Function.update system.unblock thread (.returning true)
      signals := system.signals + 1
      late := system.late + (decide (system.wait ≠ .sleeping)).toNat }

/-- The next step of `unblock`. -/
def unblockStep (system : BarrierSystem) (thread : ThreadId) : Option BarrierSystem :=
  match system.unblock thread with
  | .outside => none
  | .called =>
    some { system with
      unblock := Function.update system.unblock thread
        (if system.owner = none then .returning false else .entering) }
  | .entering => some (system.unblockSection thread)
  | .returning _ =>
    some { system with unblock := Function.update system.unblock thread .outside }

/-- The scheduler lets the thread run, for which it must be ready. -/
def dispatch (system : BarrierSystem) (thread : ThreadId) : Option BarrierSystem :=
  if system.kernel.IsReady thread then
    some { system with kernel := system.kernel.activate thread }
  else none

/-- A thread is inside one call at a time. -/
def step (system : BarrierSystem) : BarrierAction → Option BarrierSystem
  | .waitForSignal condition timeOutAt =>
    if system.wait = .outside ∧ system.unblock system.waiter = .outside then
      some { system with wait := .called condition timeOutAt }
    else none
  | .unblock thread =>
    if system.unblock thread = .outside ∧ (thread = system.waiter → system.wait = .outside) then
      some { system with unblock := Function.update system.unblock thread .called }
    else none
  | .waiter => (system.dispatch system.waiter).bind waitStep
  | .unblocker thread => (system.dispatch thread).bind fun system => system.unblockStep thread
  | .advance duration =>
    -- The clock is an `int64_t`.
    if system.kernel.timeNow + duration ≤ END_OF_TIME then
      some { system with
        kernel := { system.kernel with timeNow := system.kernel.timeNow + duration } }
    else none
  | .resume thread => some { system with kernel := system.kernel.resume thread }

/-- All threads outside of their calls. -/
structure Initial (system : BarrierSystem) : Prop where
  owner_eq : system.owner = none
  wait_eq : system.wait = .outside
  unblock_eq : ∀ thread, system.unblock thread = .outside
  signals_eq : system.signals = 0
  late_eq : system.late = 0
  answered_eq : system.answered = 0

/-- The signal that has ended a wait whose thread has not run since. -/
def pending (system : BarrierSystem) : Nat :=
  if system.wait = .sleeping ∧ system.owner = none then 1 else 0

variable {system next : BarrierSystem}

/-- Only a sleeping thread, or one that has given up a moment ago, is registered, and every signal
is accounted for. -/
structure Invariant (system : BarrierSystem) : Prop where
  owner_waits : ∀ thread, system.owner = some thread →
    thread = system.waiter ∧ (system.wait = .sleeping ∨ system.wait = .leaving false)
  registered : system.wait = .sleeping → IsSuspended system.kernel system.waiter →
    system.owner = some system.waiter
  counted : system.signals = system.answered + system.late + system.pending

theorem pending_of_wait (hawake : system.wait ≠ .sleeping) : system.pending = 0 :=
  if_neg fun hpending => hawake hpending.1

theorem pending_of_owner {thread : ThreadId} (howner : system.owner = some thread) :
    system.pending = 0 :=
  if_neg fun hpending => Option.some_ne_none thread (howner.symm.trans hpending.2)

theorem Initial.invariant (h : system.Initial) : system.Invariant where
  owner_waits thread hthread := by
    rw [h.owner_eq] at hthread
    cases hthread
  registered hsleeping := by
    rw [h.wait_eq] at hsleeping
    cases hsleeping
  counted := by
    rw [pending_of_wait (by simp [h.wait_eq]), h.signals_eq, h.answered_eq, h.late_eq]

theorem Invariant.owner_eq_none (h : system.Invariant) (hawake : system.wait ≠ .sleeping)
    (hpresent : system.wait ≠ .leaving false) : system.owner = none := by
  cases howner : system.owner with
  | none => rfl
  | some thread =>
    rcases (h.owner_waits thread howner).2 with hsleeping | hleaving
    · exact absurd hsleeping hawake
    · exact absurd hleaving hpresent

/-- A step of the waiting thread that neither begins nor ends a sleep. -/
theorem Invariant.moveWait (h : system.Invariant) {place : WaitAt}
    (hawake : system.wait ≠ .sleeping) (hplace : place ≠ .sleeping) {owner : Option ThreadId}
    (howner : owner = none) :
    ({ system with wait := place, owner := owner } : BarrierSystem).Invariant := by
  subst howner
  exact {
    owner_waits := fun thread hthread => by cases hthread
    registered := fun hsleeping => absurd hsleeping hplace
    counted := by
      rw [pending_of_wait hplace]
      exact h.counted.trans (by rw [pending_of_wait hawake]) }

theorem Invariant.fallAsleep (h : system.Invariant)
    (hcurrent : system.kernel.currentThread = system.waiter) {condition : Bool} {timeOutAt : Int}
    (hwait : system.wait = .entering condition timeOutAt) :
    ({ system with
        kernel := system.kernel.suspendCaller timeOutAt (some system.barrier)
        owner := some system.kernel.currentThread
        wait := .sleeping } : BarrierSystem).Invariant := by
  exact {
    owner_waits := fun thread hthread => by
      cases hthread
      exact ⟨hcurrent, Or.inl rfl⟩
    registered := fun _ _ => congrArg some hcurrent
    counted := by
      rw [pending_of_owner rfl]
      exact h.counted.trans (by rw [pending_of_wait (by simp [hwait])]) }

theorem Invariant.wakeUp (h : system.Invariant) (hwait : system.wait = .sleeping) :
    ({ system with
        kernel := system.kernel.endWaiting
        wait := .leaving (decide (system.owner = none))
        answered := system.answered + (decide (system.owner = none)).toNat } :
      BarrierSystem).Invariant := by
  have hpending : system.pending = (decide (system.owner = none)).toNat := by
    cases howner : system.owner with
    | none => exact if_pos ⟨hwait, howner⟩
    | some thread => exact pending_of_owner howner
  exact {
    owner_waits := fun thread hthread => by
      refine ⟨(h.owner_waits thread hthread).1, Or.inr ?_⟩
      rw [decide_eq_false (by rw [hthread]; exact Option.some_ne_none thread)]
    registered := fun hsleeping => by cases hsleeping
    counted := by
      rw [pending_of_wait (by simp)]
      show system.signals = system.answered + _ + system.late
      rw [h.counted, hpending]
      omega }

theorem Invariant.waitStep (h : system.Invariant)
    (hcurrent : system.kernel.currentThread = system.waiter)
    (hstep : system.waitStep = some next) : next.Invariant := by
  unfold BarrierSystem.waitStep at hstep
  cases hwait : system.wait with
  | outside =>
    rw [hwait] at hstep
    cases hstep
  | called condition timeOutAt =>
    have howner : system.owner = none := h.owner_eq_none (by simp [hwait]) (by simp [hwait])
    rw [hwait] at hstep
    dsimp only at hstep
    rw [if_neg (not_not_intro howner)] at hstep
    cases hstep
    exact h.moveWait (by simp [hwait]) (by simp) howner
  | entering condition timeOutAt =>
    rw [hwait] at hstep
    dsimp only at hstep
    split at hstep
    · cases hstep
      exact h.fallAsleep hcurrent hwait
    · cases hstep
      exact h.moveWait (by simp [hwait]) (by simp)
        (h.owner_eq_none (by simp [hwait]) (by simp [hwait]))
  | sleeping =>
    rw [hwait] at hstep
    cases hstep
    exact h.wakeUp hwait
  | leaving ok =>
    rw [hwait] at hstep
    cases hstep
    exact h.moveWait (by simp [hwait]) (by simp) rfl
  | returning ok =>
    rw [hwait] at hstep
    cases hstep
    exact h.moveWait (by simp [hwait]) (by simp)
      (h.owner_eq_none (by simp [hwait]) (by simp [hwait]))

/-- The place of a call of `unblock` is no part of the invariant. -/
theorem Invariant.moveUnblock (h : system.Invariant) (unblock : ThreadId → UnblockAt) :
    ({ system with unblock := unblock } : BarrierSystem).Invariant :=
  { h with }

theorem Invariant.unblockSection (h : system.Invariant) (thread : ThreadId) :
    (system.unblockSection thread).Invariant := by
  unfold BarrierSystem.unblockSection
  split
  · exact h.moveUnblock _
  · next owner howner =>
    obtain ⟨rfl, hwaits⟩ := h.owner_waits owner howner
    have hcounted := h.counted
    rw [pending_of_owner howner] at hcounted
    exact {
      owner_waits := fun thread hthread => by cases hthread
      registered := fun _ hsuspended =>
        absurd hsuspended (not_isSuspended_resumePartner system.kernel system.waiter)
      counted := by
        -- The signal ends the sleep that goes on, or it comes late.
        unfold pending
        rcases hwaits with hwait | hwait
        · simp [hwait, hcounted]
        · simp [hwait, hcounted]
          omega }

theorem dispatch_eq {thread : ThreadId} (hdispatch : system.dispatch thread = some next) :
    system.kernel.IsReady thread ∧
      next = { system with kernel := system.kernel.activate thread } := by
  unfold dispatch at hdispatch
  split at hdispatch
  · next hready => exact ⟨hready, (Option.some.inj hdispatch).symm⟩
  · cases hdispatch

theorem Invariant.step (h : system.Invariant) {action : BarrierAction}
    (hstep : system.step action = some next) : next.Invariant := by
  cases action with
  | waitForSignal condition timeOutAt =>
    rw [BarrierSystem.step] at hstep
    split at hstep
    · next houtside =>
      cases hstep
      exact h.moveWait (by simp [houtside.1]) (by simp)
        (h.owner_eq_none (by simp [houtside.1]) (by simp [houtside.1]))
    · cases hstep
  | unblock thread =>
    rw [BarrierSystem.step] at hstep
    split at hstep
    · cases hstep
      exact h.moveUnblock _
    · cases hstep
  | waiter =>
    obtain ⟨running, hdispatch, hnext⟩ := Option.bind_eq_some_iff.mp hstep
    obtain ⟨-, rfl⟩ := dispatch_eq hdispatch
    have hrunning : ({ system with
        kernel := system.kernel.activate system.waiter } : BarrierSystem).Invariant := { h with }
    exact hrunning.waitStep rfl hnext
  | unblocker thread =>
    obtain ⟨running, hdispatch, hnext⟩ := Option.bind_eq_some_iff.mp hstep
    obtain ⟨-, rfl⟩ := dispatch_eq hdispatch
    have hrunning : ({ system with
        kernel := system.kernel.activate thread } : BarrierSystem).Invariant := { h with }
    unfold unblockStep at hnext
    split at hnext
    · cases hnext
    · cases hnext
      exact hrunning.moveUnblock _
    · cases hnext
      exact hrunning.unblockSection thread
    · cases hnext
      exact hrunning.moveUnblock _
  | advance duration =>
    rw [BarrierSystem.step] at hstep
    split at hstep
    · cases hstep
      exact { h with }
    · cases hstep
  | resume thread =>
    cases hstep
    exact { h with
      registered := fun hsleeping hsuspended => h.registered hsleeping hsuspended.of_resume }

/-! ### Waits without a timeout -/

/-- A wait has no timeout, and nobody but `unblock` resumes the waiting thread. -/
def Patient (system : BarrierSystem) : BarrierAction → Prop
  | .waitForSignal _ timeOutAt => timeOutAt = END_OF_TIME
  | .resume thread => thread ≠ system.waiter
  | _ => True

/-- Nobody gives up: a registered thread sleeps until the end of time. -/
structure Lasting (system : BarrierSystem) : Prop where
  time_le : system.kernel.timeNow ≤ END_OF_TIME
  asleep : system.owner ≠ none →
    (system.kernel.thread system.waiter).suspendedUntil = END_OF_TIME
  timeless : ∀ condition timeOutAt,
    system.wait = .called condition timeOutAt ∨ system.wait = .entering condition timeOutAt →
      timeOutAt = END_OF_TIME
  kept_up : system.wait ≠ .leaving false ∧ system.wait ≠ .returning false
  late_eq : system.late = 0

theorem Lasting.initial (h : system.Initial) (htime : system.kernel.timeNow ≤ END_OF_TIME) :
    system.Lasting where
  time_le := htime
  asleep howner := absurd h.owner_eq howner
  timeless := by simp [h.wait_eq]
  kept_up := by simp [h.wait_eq]
  late_eq := h.late_eq

/-- A thread that was registered and runs has been signalled. -/
theorem Lasting.owner_of_ready (h : system.Lasting)
    (hready : system.kernel.IsReady system.waiter) : system.owner = none := by
  by_contra howner
  have htime := h.time_le
  rw [Kernel.IsReady, h.asleep howner] at hready
  omega

theorem Lasting.waitStep (h : system.Lasting)
    (hcurrent : system.kernel.currentThread = system.waiter)
    (hready : system.kernel.IsReady system.waiter)
    (hstep : system.waitStep = some next) : next.Lasting := by
  have howner := h.owner_of_ready hready
  unfold BarrierSystem.waitStep at hstep
  cases hwait : system.wait with
  | outside =>
    rw [hwait] at hstep
    cases hstep
  | called condition timeOutAt =>
    rw [hwait] at hstep
    dsimp only at hstep
    rw [if_neg (not_not_intro howner)] at hstep
    cases hstep
    exact { h with
      timeless := fun later time hlater => by
        rcases hlater with hlater | hlater
        · cases hlater
        · cases hlater
          exact h.timeless condition timeOutAt (Or.inl hwait)
      kept_up := by simp }
  | entering condition timeOutAt =>
    rw [hwait] at hstep
    dsimp only at hstep
    split at hstep
    · cases hstep
      exact { h with
        asleep := fun _ => by
          show ((system.kernel.suspendCaller timeOutAt _).thread system.waiter).suspendedUntil = _
          rw [← hcurrent, Kernel.suspendedUntil_suspendCaller,
            h.timeless condition timeOutAt (Or.inr hwait)]
        timeless := by simp
        kept_up := by simp }
    · cases hstep
      exact { h with timeless := by simp, kept_up := by simp }
  | sleeping =>
    rw [hwait] at hstep
    cases hstep
    exact { h with
      asleep := fun hregistered => absurd howner hregistered
      timeless := by simp
      kept_up := by simp [howner] }
  | leaving ok =>
    rw [hwait] at hstep
    cases hstep
    have hok : ok = true := by
      have hkept := h.kept_up.1
      rw [hwait] at hkept
      simpa using hkept
    exact { h with
      asleep := fun hregistered => absurd rfl hregistered
      timeless := by simp
      kept_up := by simp [hok] }
  | returning ok =>
    rw [hwait] at hstep
    cases hstep
    exact { h with timeless := by simp, kept_up := by simp }

theorem Lasting.unblockSection (h : system.Lasting) (hinvariant : system.Invariant)
    (thread : ThreadId) : (system.unblockSection thread).Lasting := by
  unfold BarrierSystem.unblockSection
  split
  · exact { h with }
  · next owner howner =>
    have hsleeping : system.wait = .sleeping :=
      (hinvariant.owner_waits owner howner).2.resolve_right h.kept_up.1
    exact { h with
      asleep := fun hregistered => absurd rfl hregistered
      late_eq := by simp [hsleeping, h.late_eq] }

theorem Lasting.step (h : system.Lasting) (hinvariant : system.Invariant)
    {action : BarrierAction} (hpatient : system.Patient action)
    (hstep : system.step action = some next) : next.Lasting := by
  cases action with
  | waitForSignal condition timeOutAt =>
    rw [BarrierSystem.step] at hstep
    split at hstep
    · cases hstep
      exact { h with
        timeless := fun later time hlater => by
          rcases hlater with hlater | hlater
          · cases hlater
            exact hpatient
          · cases hlater
        kept_up := by simp }
    · cases hstep
  | unblock thread =>
    rw [BarrierSystem.step] at hstep
    split at hstep
    · cases hstep
      exact { h with }
    · cases hstep
  | waiter =>
    obtain ⟨running, hdispatch, hnext⟩ := Option.bind_eq_some_iff.mp hstep
    obtain ⟨hready, rfl⟩ := dispatch_eq hdispatch
    have hrunning : ({ system with
        kernel := system.kernel.activate system.waiter } : BarrierSystem).Lasting := { h with }
    exact hrunning.waitStep rfl hready hnext
  | unblocker thread =>
    obtain ⟨running, hdispatch, hnext⟩ := Option.bind_eq_some_iff.mp hstep
    obtain ⟨hready, rfl⟩ := dispatch_eq hdispatch
    have hrunning : ({ system with
        kernel := system.kernel.activate thread } : BarrierSystem).Lasting := { h with }
    unfold unblockStep at hnext
    split at hnext
    · cases hnext
    · cases hnext
      exact { hrunning with }
    · cases hnext
      exact hrunning.unblockSection { hinvariant with } thread
    · cases hnext
      exact { hrunning with }
  | advance duration =>
    rw [BarrierSystem.step] at hstep
    split at hstep
    · next hlimit =>
      cases hstep
      exact { h with time_le := hlimit }
    · cases hstep
  | resume thread =>
    cases hstep
    exact { h with
      asleep := fun hregistered => by
        show ((system.kernel.resume thread).thread system.waiter).suspendedUntil = _
        unfold Kernel.resume
        rw [Kernel.modify_other _ _ hpatient.symm]
        exact h.asleep hregistered }

/-! ### Whole runs -/

/-- A waiting thread and another one. -/
def twoThreads : BarrierSystem where
  kernel := { threadList := [idlethread, 1, 2], thread := fun _ => {}, timeNow := 1 }
  barrier := 0x20
  waiter := 1

theorem twoThreads_initial : twoThreads.Initial := by
  constructor
  case unblock_eq => exact fun _ => rfl
  all_goals rfl

end BarrierSystem

end Rodos.Api
