import Rodos.BareMetal.SemaphoreSteps
import Rodos.BareMetal.SemaphorePairing

/-! What holds between all steps: who owns a semaphore, and who waits for it. -/
namespace Rodos.BareMetal
open Library

namespace System

def owner (system : System) (sema : Address) : Option ThreadId := (system.semaphore sema).owner

/-- The thread is between the return of an `enter` and the end of the matching `leave`. -/
def Inside (system : System) (thread : ThreadId) (sema : Address) : Prop :=
  0 < system.nesting thread sema ∨ system.position thread = .leaving sema

/-- The thread is in an `enter` that has suspended it at least once. -/
def Waiting (system : System) (thread : ThreadId) (sema : Address) : Prop :=
  (system.position thread).waitsFor = some sema

structure Invariant (system : System) : Prop where
  current_listed : system.current ∈ system.kernel.threadList
  idle_listed : idlethread ∈ system.kernel.threadList
  idle_low : (system.kernel.thread idlethread).priority < CEILING_PRIORITY
  idle_outside : system.position idlethread = .outside
  idle_owns : ∀ sema, system.owner sema ≠ some idlethread
  calls_listed : ∀ thread, system.position thread ≠ .outside → thread ∈ system.kernel.threadList
  waiting_high : ∀ thread sema, system.Waiting thread sema →
    CEILING_PRIORITY ≤ (system.kernel.thread thread).priority
  waitingFor : ∀ thread sema, (system.kernel.thread thread).waitingFor = some sema →
    system.Waiting thread sema ∧ system.owner sema ≠ none ∧ system.owner sema ≠ some thread
  woken : ∀ thread sema, system.Waiting thread sema →
    (system.kernel.thread thread).waitingFor = some sema ∨
      (system.kernel.thread thread).waitingFor = none ∧
        ((system.kernel.thread thread).suspendedUntil = 0 ∨
          (system.kernel.thread thread).beyondStack = true)
  inside_owns : ∀ thread sema, system.Inside thread sema → system.owner sema = some thread
  owner_known : ∀ thread sema, system.owner sema = some thread →
    system.Inside thread sema ∨ system.Waiting thread sema
  waiting_outside : ∀ thread sema, system.Waiting thread sema → system.nesting thread sema = 0
  leaving_outside : ∀ thread sema, system.position thread = .leaving sema →
    system.nesting thread sema = 0
  count_eq : ∀ thread sema, system.Inside thread sema →
    (system.semaphore sema).ownerEnterCnt = system.nesting thread sema
  free_count : ∀ sema, system.owner sema = none → (system.semaphore sema).ownerEnterCnt = 0

theorem Initial.invariant {system : System} (h : system.Initial) : system.Invariant := by
  obtain ⟨hlisted, hidle, hruns, -, -, hwaiting, hsemaphore, hposition, hnesting⟩ := h
  constructor <;> simp_all [Inside, Waiting, Position.waitsFor, owner, current,
    Kernel.getPriority, CEILING_PRIORITY, NETWORKREADER_PRIORITY, MAX_THREAD_PRIORITY]

theorem Invariant.pairing {system : System} (h : system.Invariant) (thread : ThreadId)
    (sema : Address) : Pairing thread sema (system.kernel.thread thread) (system.position thread)
      (system.nesting thread sema) (system.semaphore sema) where
  waiting_high := h.waiting_high thread sema
  waitingFor := h.waitingFor thread sema
  woken := h.woken thread sema
  inside_owns := h.inside_owns thread sema
  owner_known := h.owner_known thread sema
  waiting_outside := h.waiting_outside thread sema
  leaving_outside := h.leaving_outside thread sema
  count_eq := h.count_eq thread sema

/-- Only the running thread moves in its call, and it stays the running one. -/
theorem Invariant.ofPairings {system next : System} (h : system.Invariant)
    (hactive : system.current ≠ idlethread)
    (hlist : next.kernel.threadList = system.kernel.threadList)
    (hcurrent : next.current = system.current)
    (hidle : (next.kernel.thread idlethread).priority =
      (system.kernel.thread idlethread).priority)
    (hposition : ∀ thread, thread ≠ system.current →
      next.position thread = system.position thread)
    (howner : ∀ sema, next.owner sema ≠ some idlethread)
    (hfree : ∀ sema, next.owner sema = none → (next.semaphore sema).ownerEnterCnt = 0)
    (hpairings : ∀ thread sema, Pairing thread sema (next.kernel.thread thread)
      (next.position thread) (next.nesting thread sema) (next.semaphore sema)) :
    next.Invariant where
  current_listed := by
    rw [hcurrent, hlist]
    exact h.current_listed
  idle_listed := by
    rw [hlist]
    exact h.idle_listed
  idle_low := by
    rw [hidle]
    exact h.idle_low
  idle_outside := by
    rw [hposition idlethread (Ne.symm hactive)]
    exact h.idle_outside
  idle_owns := howner
  calls_listed thread hinside := by
    rw [hlist]
    by_cases hrunner : thread = system.current
    · rw [hrunner]
      exact h.current_listed
    · rw [hposition thread hrunner] at hinside
      exact h.calls_listed thread hinside
  waiting_high thread sema := (hpairings thread sema).waiting_high
  waitingFor thread sema := (hpairings thread sema).waitingFor
  woken thread sema := (hpairings thread sema).woken
  inside_owns thread sema := (hpairings thread sema).inside_owns
  owner_known thread sema := (hpairings thread sema).owner_known
  waiting_outside thread sema := (hpairings thread sema).waiting_outside
  leaving_outside thread sema := (hpairings thread sema).leaving_outside
  count_eq thread sema := (hpairings thread sema).count_eq
  free_count := hfree

/-- What a kernel may do to the threads without any of them moving in its call. -/
structure Harmless (system : System) (kernel : Kernel) : Prop where
  threadList_eq : kernel.threadList = system.kernel.threadList
  current_listed : kernel.currentThread ∈ system.kernel.threadList
  idle_kept : (kernel.thread idlethread).priority = (system.kernel.thread idlethread).priority
  waiting_high : ∀ thread sema, system.Waiting thread sema →
    CEILING_PRIORITY ≤ (kernel.thread thread).priority
  waitingFor : ∀ thread sema, (kernel.thread thread).waitingFor = some sema →
    system.Waiting thread sema ∧ system.owner sema ≠ none ∧ system.owner sema ≠ some thread
  woken : ∀ thread sema, system.Waiting thread sema →
    (kernel.thread thread).waitingFor = some sema ∨
      (kernel.thread thread).waitingFor = none ∧
        ((kernel.thread thread).suspendedUntil = 0 ∨ (kernel.thread thread).beyondStack = true)

theorem Invariant.withKernel {system : System} (h : system.Invariant) {kernel : Kernel}
    (hharmless : system.Harmless kernel) : Invariant { system with kernel := kernel } where
  current_listed := hharmless.threadList_eq ▸ hharmless.current_listed
  idle_listed := hharmless.threadList_eq ▸ h.idle_listed
  idle_low := hharmless.idle_kept ▸ h.idle_low
  idle_outside := h.idle_outside
  idle_owns := h.idle_owns
  calls_listed := hharmless.threadList_eq ▸ h.calls_listed
  waiting_high := hharmless.waiting_high
  waitingFor := hharmless.waitingFor
  woken := hharmless.woken
  inside_owns := h.inside_owns
  owner_known := h.owner_known
  waiting_outside := h.waiting_outside
  leaving_outside := h.leaving_outside
  count_eq := h.count_eq
  free_count := h.free_count

theorem Invariant.dispatch {system : System} (h : system.Invariant) {thread : ThreadId}
    (hlisted : thread ∈ system.kernel.threadList) :
    Invariant { system with kernel := dispatch system.kernel thread } := by
  have hswitched := { system.kernel with preSelectedNextToRun := some thread }.schedule_switched
  have hnext := { system.kernel with preSelectedNextToRun := some thread }.schedule_fst
  refine h.withKernel ⟨hswitched.threadList_eq, ?_, hswitched.priority_eq _,
    fun other sema hwaiting => ?_, fun other sema hwaits => ?_, fun other sema hwaiting => ?_⟩
  · rw [System.dispatch, hswitched.current_eq, hnext]
    split
    · exact h.idle_listed
    · exact hlisted
  · rw [System.dispatch, hswitched.priority_eq]
    exact h.waiting_high other sema hwaiting
  · rw [System.dispatch, hswitched.waitingFor_eq] at hwaits
    exact h.waitingFor other sema hwaits
  · rw [System.dispatch, hswitched.waitingFor_eq, hswitched.beyondStack_eq]
    have hwoken := h.woken other sema hwaiting
    have hsuspended := hswitched.suspended_eq other
    grind

theorem Invariant.resume {system : System} (h : system.Invariant) (thread : ThreadId) :
    Invariant { system with kernel := system.kernel.resume thread } := by
  have hthread : ∀ other, (system.kernel.resume thread).thread other =
      if other = thread then
        { system.kernel.thread other with waitingFor := none, suspendedUntil := 0 }
      else system.kernel.thread other :=
    fun other => Kernel.thread_modify _ _ _ _
  have hhigh := h.waiting_high
  have hwaits := h.waitingFor
  have hwoken := h.woken
  refine h.withKernel ⟨rfl, h.current_listed, ?_, ?_, ?_, ?_⟩ <;> grind

theorem Invariant.waitingFor_eq_none {system : System} (h : system.Invariant)
    {thread : ThreadId} (hnot : (system.position thread).waitsFor = none) :
    (system.kernel.thread thread).waitingFor = none := by
  rw [Option.eq_none_iff_forall_ne_some]
  intro sema hwaits
  have hwaiting : _ = some sema := (h.waitingFor thread sema hwaits).1
  rw [hnot] at hwaiting
  cases hwaiting

/-- A change of the running thread while it is in none of the waiting loops. -/
theorem Invariant.modifyCurrent {system : System} (h : system.Invariant)
    {change : Thread → Thread} (hactive : system.current ≠ idlethread)
    (hnot : (system.position system.current).waitsFor = none)
    (hwaitingFor : ∀ self, self.waitingFor = none → (change self).waitingFor = none) :
    Invariant { system with kernel := system.kernel.modify system.current change } := by
  have hthread := fun other => system.kernel.thread_modify system.current other change
  have hhigh := h.waiting_high
  have hwaits := h.waitingFor
  have hwoken := h.woken
  have hnone := hwaitingFor _ (h.waitingFor_eq_none hnot)
  unfold Waiting at hhigh hwaits hwoken
  refine h.withKernel ⟨rfl, h.current_listed, ?_, ?_, ?_, ?_⟩ <;>
    grind [Waiting]

theorem Invariant.setPrioCurrentRunner {system : System} (h : system.Invariant)
    (hactive : system.current ≠ idlethread)
    (hnot : (system.position system.current).waitsFor = none) (newPrio : Int) :
    (system.setPrioCurrentRunner newPrio).Invariant := by
  unfold System.setPrioCurrentRunner Kernel.setPrioCurrentRunner Kernel.setPriority
  dsimp only
  exact h.modifyCurrent hactive hnot (fun _ hnone => hnone)

/-- A move of the running thread between positions in which it neither waits nor leaves. -/
theorem Invariant.moveTo {system : System} (h : system.Invariant) {position : Position}
    (hactive : system.current ≠ idlethread)
    (hbefore : (system.position system.current).waitsFor = none)
    (hleaving : ∀ sema, system.position system.current ≠ .leaving sema)
    (hafter : position.waitsFor = none) (hnot : ∀ sema, position ≠ .leaving sema) :
    (system.moveTo position).Invariant := by
  have hposition := system.moveTo_position position
  refine h.ofPairings hactive rfl rfl rfl (fun thread hother => ?_) h.idle_owns h.free_count
    fun thread sema => ?_
  · rw [hposition, if_neg hother]
  · rw [hposition]
    by_cases hrunner : thread = system.current
    · subst hrunner
      rw [if_pos rfl]
      have hnone := h.waitingFor_eq_none hbefore
      apply (h.pairing system.current sema).elsewhere
      · rw [hbefore]
        exact nofun
      · exact hleaving sema
      · rw [hafter]
        exact nofun
      · exact hnot sema
      · rw [moveTo_kernel, hnone]
        exact nofun
    · rw [if_neg hrunner]
      exact h.pairing thread sema

/-- The running thread is now the owner, and waits for none of the other semaphores. -/
theorem Invariant.own_runner {system : System} (h : system.Invariant) {sema : Address}
    (callerPriority previousPriority : Int) (ownerEnterCnt : Int)
    (hcount : ownerEnterCnt = system.nesting system.current sema)
    (hleaving : ∀ other, system.position system.current ≠ .leaving other)
    (hwaiting : ∀ other, system.Waiting system.current other → other = sema)
    (hwaits : (system.kernel.thread system.current).waitingFor = none) (other : Address) :
    let next := system.own sema callerPriority previousPriority ownerEnterCnt
    Pairing system.current other (next.kernel.thread system.current)
      (next.position system.current) (next.nesting system.current other)
      (next.semaphore other) := by
  dsimp only
  rw [own_thread, own_position, own_semaphore, own_nesting, if_pos rfl, if_pos rfl]
  by_cases hsame : other = sema
  · subst hsame
    rw [if_pos rfl, if_pos ⟨rfl, rfl⟩]
    apply Pairing.inside
    · rfl
    · rw [hcount]
      rfl
    · exact Or.inl (Nat.succ_pos _)
    · exact nofun
    · exact nofun
    · rw [hwaits]
      exact nofun
  · rw [if_neg hsame, if_neg fun hboth => hsame hboth.2]
    apply (h.pairing system.current other).elsewhere
    · exact fun hwaits' => hsame (hwaiting other hwaits')
    · exact hleaving other
    · exact nofun
    · exact nofun
    · rw [hwaits]
      exact nofun

/-- A free semaphore, or one the running thread has been handed, is not another thread's. -/
theorem Invariant.own_other {system : System} (h : system.Invariant) {sema : Address}
    (hfree : ¬ system.IsOccupied sema) (callerPriority previousPriority : Int)
    (ownerEnterCnt : Int) {thread : ThreadId} (hrunner : thread ≠ system.current)
    (other : Address) :
    let next := system.own sema callerPriority previousPriority ownerEnterCnt
    Pairing thread other (next.kernel.thread thread) (next.position thread)
      (next.nesting thread other) (next.semaphore other) := by
  dsimp only
  rw [own_thread, own_position, own_semaphore, own_nesting, if_neg hrunner, if_neg hrunner,
    if_neg fun hboth => hrunner hboth.1]
  by_cases hsame : other = sema
  · subst hsame
    rw [if_pos rfl]
    apply (h.pairing thread other).passedOn
    · intro hother
      apply hfree
      constructor
      · rw [hother]
        exact nofun
      · rw [hother]
        exact fun hequal => hrunner (Option.some.inj hequal)
    · exact fun hequal => hrunner (Option.some.inj hequal).symm
    · exact fun _ => nofun
  · rw [if_neg hsame]
    exact h.pairing thread other

theorem Invariant.own {system : System} (h : system.Invariant) {sema : Address}
    (hactive : system.current ≠ idlethread)
    (hfree : ¬ system.IsOccupied sema) (callerPriority previousPriority : Int)
    (ownerEnterCnt : Int) (hcount : ownerEnterCnt = system.nesting system.current sema)
    (hleaving : ∀ other, system.position system.current ≠ .leaving other)
    (hwaiting : ∀ other, system.Waiting system.current other → other = sema)
    (hwaits : (system.kernel.thread system.current).waitingFor = none) :
    (system.own sema callerPriority previousPriority ownerEnterCnt).Invariant := by
  have hthread := system.own_thread sema callerPriority previousPriority ownerEnterCnt
  have hposition := system.own_position sema callerPriority previousPriority ownerEnterCnt
  have hsemaphore := system.own_semaphore sema callerPriority previousPriority ownerEnterCnt
  have howner : ∀ other, (system.own sema callerPriority previousPriority ownerEnterCnt).owner
      other = if other = sema then some system.current else system.owner other := by
    intro other
    rw [owner, hsemaphore]
    split <;> rfl
  refine h.ofPairings hactive rfl rfl ?_ (fun thread hother => ?_) (fun other => ?_)
    (fun other hnone => ?_) fun thread other => ?_
  · rw [hthread, if_neg (Ne.symm hactive)]
  · rw [hposition, if_neg hother]
  · rw [howner]
    split
    · simpa using hactive
    · exact h.idle_owns other
  · rw [howner] at hnone
    split at hnone
    · cases hnone
    · next hsame =>
      rw [hsemaphore, if_neg hsame]
      exact h.free_count other hnone
  · by_cases hrunner : thread = system.current
    · rw [hrunner]
      exact h.own_runner callerPriority previousPriority ownerEnterCnt hcount hleaving hwaiting
        hwaits other
    · exact h.own_other hfree callerPriority previousPriority ownerEnterCnt hrunner other

theorem Invariant.block {system : System} (h : system.Invariant) {sema : Address}
    (hactive : system.current ≠ idlethread) (hoccupied : system.IsOccupied sema)
    (callerPriority previousPriority : Int)
    (hhigh : CEILING_PRIORITY ≤ (system.kernel.thread system.current).priority)
    (hbefore : (system.position system.current).waitsFor = none)
    (hleaving : ∀ other, system.position system.current ≠ .leaving other) :
    (system.block sema callerPriority previousPriority).Invariant := by
  have hthread := system.block_thread sema callerPriority previousPriority hoccupied
  have hposition := system.block_position sema callerPriority previousPriority
  have hlist : (system.block sema callerPriority previousPriority).kernel.threadList =
    system.kernel.threadList := by simp [System.block, Kernel.suspendCaller]
  have hcurrent : (system.block sema callerPriority previousPriority).current =
    system.current := by simp [System.block, Kernel.suspendCaller, current]
  have hsemaphore : ∀ other, (system.block sema callerPriority previousPriority).semaphore other =
    system.semaphore other := fun _ => rfl
  have hnesting : ∀ thread other,
    (system.block sema callerPriority previousPriority).nesting thread other =
      system.nesting thread other := fun _ _ => rfl
  refine h.ofPairings hactive hlist hcurrent ?_ (fun thread hrunner => ?_) h.idle_owns h.free_count
    fun thread other => ?_
  · rw [hthread, if_neg (Ne.symm hactive), if_neg fun hboth => h.idle_owns sema hboth.1]
  · rw [hposition, if_neg hrunner]
  · rw [hthread, hposition, hsemaphore, hnesting]
    by_cases hrunner : thread = system.current
    · subst hrunner
      rw [if_pos rfl, if_pos rfl]
      by_cases hsame : other = sema
      · subst hsame
        rw [(h.pairing system.current other).not_inside hoccupied.2]
        exact Pairing.suspended rfl hhigh rfl hoccupied.1 hoccupied.2
      · have hdifferent : some sema ≠ some other := fun hequal =>
          hsame (Option.some.inj hequal).symm
        apply (h.pairing system.current other).elsewhere
        · rw [hbefore]
          exact (Option.some_ne_none other).symm
        · exact hleaving other
        · exact hdifferent
        · intro hequal
          cases hequal
        · exact hdifferent
    · rw [if_neg hrunner, if_neg hrunner]
      split
      · next hboosted => exact (h.pairing thread other).raised (Int.le_of_lt hboosted.2)
      · exact h.pairing thread other

theorem Invariant.waitingFor_listed {system : System} (h : system.Invariant) {thread : ThreadId}
    {sema : Address} (hwaits : (system.kernel.thread thread).waitingFor = some sema) :
    thread ∈ system.kernel.threadList := by
  have hwaiting : _ = some sema := (h.waitingFor thread sema hwaits).1
  refine h.calls_listed thread (fun houtside => ?_)
  rw [houtside] at hwaiting
  cases hwaiting

theorem Invariant.nextWaiter_waits {system : System} (h : system.Invariant) {sema : Address}
    {waiter : ThreadId} :
    waiter ∈ (system.kernel.setPrioCurrentRunner CEILING_PRIORITY).2.waitersFor sema ↔
      (system.kernel.thread waiter).waitingFor = some sema := by
  rw [Kernel.mem_waitersFor]
  have hthread :
      ((system.kernel.setPrioCurrentRunner CEILING_PRIORITY).2.thread waiter).waitingFor =
      (system.kernel.thread waiter).waitingFor := by
    simp only [Kernel.setPrioCurrentRunner, Kernel.setPriority, Kernel.thread_modify]
    split <;> rfl
  rw [hthread]
  exact ⟨fun hboth => hboth.2, fun hwaits => ⟨h.waitingFor_listed hwaits, hwaits⟩⟩

theorem Invariant.nextWaiter_none {system : System} (h : system.Invariant) {sema : Address}
    (hactive : system.current ≠ idlethread)
    (hnot : (system.position system.current).waitsFor = none)
    (hnone : system.nextWaiter sema = none) (thread : ThreadId) :
    (system.kernel.thread thread).waitingFor ≠ some sema := by
  intro hwaits
  have hwaiting := (h.waitingFor thread sema hwaits).1
  have hother : thread ≠ system.current := by
    rintro rfl
    rw [Waiting, hnot] at hwaiting
    cases hwaiting
  have hhigh := h.waiting_high thread sema hwaiting
  have hlow := h.idle_low
  refine Kernel.findNextWaitingFor_none hnone (h.nextWaiter_waits.mpr hwaits) (Or.inl ?_)
  simp only [Kernel.setPrioCurrentRunner, Kernel.setPriority, Kernel.getPriority]
  rw [Kernel.modify_other _ _ hother, Kernel.modify_other _ _ (Ne.symm hactive)]
  omega

/-- The thread found waits for the semaphore, and no other waiter precedes it. -/
theorem Invariant.nextWaiter_some {system : System} (h : system.Invariant) {sema : Address}
    (hnot : (system.position system.current).waitsFor = none) {waiter : ThreadId}
    (hfound : system.nextWaiter sema = some waiter) :
    (system.kernel.thread waiter).waitingFor = some sema ∧
      ∀ other, (system.kernel.thread other).waitingFor = some sema →
        ¬ system.kernel.Precedes other waiter := by
  obtain ⟨hmem, hbest⟩ := Kernel.findNextWaitingFor_some hfound
  have hwaits := h.nextWaiter_waits.mp hmem
  have hothers : ∀ thread, (system.kernel.thread thread).waitingFor = some sema →
      thread ≠ system.current := by
    rintro thread hthread rfl
    rw [h.waitingFor_eq_none hnot] at hthread
    cases hthread
  refine ⟨hwaits, fun other hother => ?_⟩
  have hnot := hbest other (h.nextWaiter_waits.mpr hother)
  simp only [Kernel.Precedes, Kernel.setPrioCurrentRunner, Kernel.setPriority,
    Kernel.getPriority] at hnot ⊢
  rwa [Kernel.modify_other _ _ (hothers other hother),
    Kernel.modify_other _ _ (hothers waiter hwaits)] at hnot

section leave

variable {system : System} {sema : Address}

theorem Invariant.nextWaiter_ne_current (h : system.Invariant)
    (hnot : (system.position system.current).waitsFor = none) :
    system.nextWaiter sema ≠ some system.current := by
  intro hfound
  have hwaits := (h.nextWaiter_some hnot hfound).1
  rw [h.waitingFor_eq_none hnot] at hwaits
  cases hwaits

theorem Invariant.leaveSection_runner (h : system.Invariant)
    (hleaving : system.position system.current = .leaving sema) (other : Address) :
    Pairing system.current other ((system.leaveSection sema).kernel.thread system.current)
      ((system.leaveSection sema).position system.current)
      ((system.leaveSection sema).nesting system.current other)
      ((system.leaveSection sema).semaphore other) := by
  have hnot : (system.position system.current).waitsFor = none := by
    rw [hleaving]
    rfl
  have hself : system.nextWaiter sema ≠ some system.current := h.nextWaiter_ne_current hnot
  have hunsuspended : (system.kernel.thread system.current).waitingFor ≠ some other := by
    rw [h.waitingFor_eq_none hnot]
    exact nofun
  rw [leaveSection_thread, leaveSection_position, leaveSection_semaphore, if_neg hself, if_pos rfl]
  show Pairing _ _ _ _ (system.nesting system.current other) _
  by_cases hsame : other = sema
  · subst hsame
    rw [if_pos rfl, h.leaving_outside system.current other hleaving]
    exact Pairing.outside nofun nofun hunsuspended hself
  · rw [if_neg hsame]
    apply (h.pairing system.current other).elsewhere
    · rw [hnot]
      exact nofun
    · rw [hleaving]
      exact fun hequal => hsame (Position.leaving.inj hequal).symm
    · exact nofun
    · exact nofun
    · exact hunsuspended

/-- The semaphore is handed to one waiter, and the others wait for that one. -/
theorem Invariant.leaveSection_other (h : system.Invariant) (hactive : system.current ≠ idlethread)
    (hleaving : system.position system.current = .leaving sema) {thread : ThreadId}
    (hrunner : thread ≠ system.current) (other : Address) :
    Pairing thread other ((system.leaveSection sema).kernel.thread thread)
      ((system.leaveSection sema).position thread)
      ((system.leaveSection sema).nesting thread other)
      ((system.leaveSection sema).semaphore other) := by
  have hnot : (system.position system.current).waitsFor = none := by
    rw [hleaving]
    rfl
  have howner := h.inside_owns system.current sema (Or.inr hleaving)
  have hnotOwner : system.owner sema ≠ some thread := by
    rw [howner]
    exact fun hequal => hrunner (Option.some.inj hequal).symm
  rw [leaveSection_thread, leaveSection_position, leaveSection_semaphore, if_neg hrunner]
  show Pairing _ _ _ _ (system.nesting thread other) _
  by_cases hfound : system.nextWaiter sema = some thread
  · rw [if_pos hfound]
    have hwaits := (h.nextWaiter_some hnot hfound).1
    by_cases hsame : other = sema
    · subst hsame
      rw [if_pos rfl]
      exact (h.pairing thread other).handed hwaits hfound
    · rw [if_neg hsame]
      have hwaiting := (h.waitingFor thread sema hwaits).1
      have hdifferent : (system.position thread).waitsFor ≠ some other := by
        rw [hwaiting]
        exact fun hequal => hsame (Option.some.inj hequal).symm
      have hinside : system.position thread ≠ .leaving other := by
        intro hleave
        rw [Waiting, hleave] at hwaiting
        cases hwaiting
      exact (h.pairing thread other).elsewhere hdifferent hinside hdifferent hinside nofun
  · rw [if_neg hfound]
    by_cases hsame : other = sema
    · subst hsame
      rw [if_pos rfl]
      exact (h.pairing thread other).passedOn hnotOwner hfound fun hwaits hnobody =>
        h.nextWaiter_none hactive hnot hnobody thread hwaits
    · rw [if_neg hsame]
      exact h.pairing thread other

theorem Invariant.leaveSection (h : system.Invariant) (hactive : system.current ≠ idlethread)
    (hleaving : system.position system.current = .leaving sema) :
    (system.leaveSection sema).Invariant := by
  have hsemaphore := system.leaveSection_semaphore sema
  have hlist : (system.leaveSection sema).kernel.threadList = system.kernel.threadList := by
    simp [System.leaveSection, Kernel.setPrioCurrentRunner, Kernel.setPriority]
  refine h.ofPairings hactive hlist (system.leaveSection_current sema) ?_
    (fun thread hrunner => ?_) (fun other => ?_) (fun other hfree => ?_) fun thread other => ?_
  · rw [leaveSection_thread]
    split <;> rfl
  · rw [leaveSection_position, if_neg hrunner]
  · rw [owner, hsemaphore]
    split
    · intro hfound
      have hnot : (system.position system.current).waitsFor = none := by
        rw [hleaving]
        rfl
      have hwaits := (h.nextWaiter_some hnot hfound).1
      have hwaiting := (h.waitingFor idlethread sema hwaits).1
      rw [Waiting, h.idle_outside] at hwaiting
      cases hwaiting
    · exact h.idle_owns other
  · rw [owner, hsemaphore] at hfree
    rw [hsemaphore]
    split at hfree
    · next hsame =>
      rw [if_pos hsame]
      show (system.semaphore sema).ownerEnterCnt = 0
      rw [h.count_eq system.current sema (Or.inr hleaving),
        h.leaving_outside system.current sema hleaving]
      rfl
    · next hsame =>
      rw [if_neg hsame]
      exact h.free_count other hfree
  · by_cases hrunner : thread = system.current
    · rw [hrunner]
      exact h.leaveSection_runner hleaving other
    · exact h.leaveSection_other hactive hleaving hrunner other

/-- An owner outside of all calls has entered the semaphore and not left it. -/
theorem Invariant.entered_of_owner (h : system.Invariant) {thread : ThreadId}
    (houtside : system.position thread = .outside) (howner : system.owner sema = some thread) :
    0 < system.nesting thread sema := by
  cases h.owner_known thread sema howner with
  | inl hinside =>
    apply hinside.resolve_right
    rw [houtside]
    exact nofun
  | inr hwaiting =>
    rw [Waiting, houtside] at hwaiting
    cases hwaiting

theorem Invariant.leave_runner (h : system.Invariant)
    (houtside : system.position system.current = .outside)
    (howner : (system.semaphore sema).owner = some system.current) (other : Address) :
    Pairing system.current other (system.kernel.thread system.current)
      ((system.leave sema).position system.current)
      ((system.leave sema).nesting system.current other)
      ((system.leave sema).semaphore other) := by
  have hnot : (system.position system.current).waitsFor = none := by
    rw [houtside]
    rfl
  have hunsuspended : (system.kernel.thread system.current).waitingFor ≠ some other := by
    rw [h.waitingFor_eq_none hnot]
    exact nofun
  have hinside := h.entered_of_owner houtside howner
  have hcount := h.count_eq system.current sema (Or.inl hinside)
  -- The call goes on with `leaving` only when it has counted down to zero.
  have hposition := system.leave_position sema howner system.current
  have hwaiting : ((system.leave sema).position system.current).waitsFor ≠ some other := by
    rw [hposition]
    split
    · exact nofun
    · rw [hnot]
      exact nofun
  by_cases hsame : other = sema
  · subst hsame
    have hnested : (system.leave other).nesting system.current other =
        system.nesting system.current other - 1 := by
      rw [system.leave_nesting other howner, if_pos ⟨rfl, rfl⟩]
    rw [system.leave_semaphore other howner, if_pos rfl, hnested]
    apply Pairing.inside
    · exact howner
    · show (system.semaphore other).ownerEnterCnt - 1 = _
      omega
    · by_cases hlast : (system.semaphore other).ownerEnterCnt ≤ 1
      · rw [hposition, if_pos ⟨rfl, hlast⟩]
        exact Or.inr rfl
      · exact Or.inl (by omega)
    · intro hleave
      rw [hposition] at hleave
      split at hleave
      · next hlast => omega
      · rw [houtside] at hleave
        cases hleave
    · exact hwaiting
    · exact hunsuspended
  · have hnested : (system.leave sema).nesting system.current other =
        system.nesting system.current other := by
      rw [system.leave_nesting sema howner, if_neg fun hboth => hsame hboth.2]
    rw [system.leave_semaphore sema howner, if_neg hsame, hnested]
    apply (h.pairing system.current other).elsewhere
    · rw [hnot]
      exact nofun
    · rw [houtside]
      exact nofun
    · exact hwaiting
    · rw [hposition]
      split
      · exact fun hequal => hsame (Position.leaving.inj hequal).symm
      · rw [houtside]
        exact nofun
    · exact hunsuspended

theorem Invariant.leave_other (h : system.Invariant)
    (howner : (system.semaphore sema).owner = some system.current) {thread : ThreadId}
    (hrunner : thread ≠ system.current) (other : Address) :
    Pairing thread other (system.kernel.thread thread) ((system.leave sema).position thread)
      ((system.leave sema).nesting thread other) ((system.leave sema).semaphore other) := by
  have hnotOwner : some system.current ≠ some thread := fun hequal =>
    hrunner (Option.some.inj hequal).symm
  rw [system.leave_position sema howner, system.leave_nesting sema howner,
    system.leave_semaphore sema howner, if_neg fun hboth => hrunner hboth.1,
    if_neg fun hboth => hrunner hboth.1]
  by_cases hsame : other = sema
  · subst hsame
    rw [if_pos rfl]
    apply (h.pairing thread other).passedOn
    · rw [howner]
      exact hnotOwner
    · show (system.semaphore other).owner ≠ some thread
      rw [howner]
      exact hnotOwner
    · intro _
      show (system.semaphore other).owner ≠ none
      rw [howner]
      exact nofun
  · rw [if_neg hsame]
    exact h.pairing thread other

theorem Invariant.leave (h : system.Invariant) (hcall : system.CanCall) (sema : Address) :
    (system.leave sema).Invariant := by
  by_cases howner : (system.semaphore sema).owner = some system.current
  · have hkernel := system.leave_kernel sema
    have hcurrent : (system.leave sema).current = system.current := by
      rw [current, hkernel]
    have hsameOwner : ∀ other, (system.leave sema).owner other = system.owner other := by
      intro other
      rw [owner, system.leave_semaphore sema howner]
      split
      · next hsame => rw [hsame, owner]
      · rfl
    refine h.ofPairings hcall.1 ?_ hcurrent ?_ (fun thread hrunner => ?_) (fun other => ?_)
      (fun other hfree => ?_) fun thread other => ?_
    · rw [hkernel]
    · rw [hkernel]
    · rw [system.leave_position sema howner, if_neg fun hboth => hrunner hboth.1]
    · rw [hsameOwner]
      exact h.idle_owns other
    · rw [hsameOwner] at hfree
      rw [system.leave_semaphore sema howner, if_neg]
      · exact h.free_count other hfree
      · rintro rfl
        rw [owner, howner] at hfree
        cases hfree
    · rw [hkernel]
      by_cases hrunner : thread = system.current
      · rw [hrunner]
        exact h.leave_runner hcall.2 howner other
      · exact h.leave_other howner hrunner other
  · rw [system.leave_of_not_owner sema howner]
    exact h

end leave

theorem Invariant.own_count {system : System} (h : system.Invariant) {sema : Address}
    (hfree : ¬ system.IsOccupied sema)
    (hbefore : (system.position system.current).waitsFor = none) :
    (system.semaphore sema).ownerEnterCnt = system.nesting system.current sema := by
  by_cases hnone : system.owner sema = none
  · rw [h.free_count sema hnone]
    have hout : ¬ 0 < system.nesting system.current sema := by
      intro hinside
      rw [h.inside_owns _ sema (Or.inl hinside)] at hnone
      cases hnone
    omega
  · have hself : system.owner sema = some system.current := by
      by_contra hother
      exact hfree ⟨hnone, hother⟩
    refine h.count_eq _ sema ((h.owner_known _ sema hself).resolve_right (fun hwaiting => ?_))
    rw [Waiting, hbefore] at hwaiting
    cases hwaiting

theorem Invariant.enterSection {system : System} (h : system.Invariant) {sema : Address}
    {callerPriority : Int}
    (hentering : system.position system.current = .entering sema callerPriority) :
    (system.enterSection sema callerPriority).Invariant := by
  have hactive : system.current ≠ idlethread := by
    intro hidle
    rw [hidle, h.idle_outside] at hentering
    cases hentering
  have hbefore : (system.position system.current).waitsFor = none := by
    rw [hentering]
    rfl
  have hleaving : ∀ other, system.position system.current ≠ .leaving other := by
    simp [hentering]
  have hceiling := h.setPrioCurrentRunner hactive hbefore CEILING_PRIORITY
  unfold System.enterSection
  dsimp only
  split
  · next hoccupied =>
    refine hceiling.block hactive hoccupied _ _ ?_ hbefore hleaving
    simp [setPrioCurrentRunner_thread]
  · next hfree =>
    refine hceiling.own hactive hfree _ _ _ (hceiling.own_count hfree hbefore) hleaving ?_ ?_
    · intro other hwaiting
      rw [Waiting, setPrioCurrentRunner_current, setPrioCurrentRunner_position, hbefore]
        at hwaiting
      cases hwaiting
    · exact hceiling.waitingFor_eq_none hbefore

theorem Invariant.wake {system : System} (h : system.Invariant) {sema : Address}
    {callerPriority previousPriority : Int}
    (hposition : system.position system.current =
      .waiting sema callerPriority previousPriority) :
    (system.wake sema callerPriority previousPriority).Invariant := by
  have hactive : system.current ≠ idlethread := by
    intro hidle
    rw [hidle, h.idle_outside] at hposition
    cases hposition
  have hwaiting : system.Waiting system.current sema := by
    rw [Waiting, hposition]
    rfl
  have honly : ∀ other, system.Waiting system.current other → other = sema := by
    intro other hother
    rw [Waiting, hposition] at hother
    exact (Option.some.inj hother).symm
  unfold System.wake
  dsimp only
  split
  · next hoccupied =>
    have hkernel : ∀ thread,
        (system.kernel.endWaiting.suspendCaller END_OF_TIME (some sema)).thread thread =
          if thread = system.current then
            { system.kernel.thread thread with
              waitingFor := some sema, suspendedUntil := END_OF_TIME }
          else system.kernel.thread thread := by
      intro thread
      simp only [Kernel.suspendCaller, Kernel.endWaiting, Kernel.thread_modify,
        Kernel.modify_currentThread]
      split <;> rfl
    have hhigh := h.waiting_high
    have hwaits := h.waitingFor
    have hwoken := h.woken
    have hother : system.owner sema ≠ none ∧ system.owner sema ≠ some system.current := hoccupied
    refine h.withKernel ⟨rfl, h.current_listed, ?_, ?_, ?_, ?_⟩ <;> grind
  · next hfree =>
    -- a thread whose semaphore is free for it has been resumed before
    have hnone : (system.kernel.thread system.current).waitingFor = none := by
      rw [Option.eq_none_iff_forall_ne_some]
      intro other hwaits
      obtain ⟨hother, hoccupied⟩ := h.waitingFor _ other hwaits
      rw [honly other hother] at hoccupied
      exact hfree hoccupied
    have hsame : system.kernel.endWaiting = system.kernel := by
      apply Kernel.modify_eq_self
      rw [← hnone]
    rw [hsame]
    refine h.own hactive hfree _ _ _ ?_ (by simp [hposition]) honly hnone
    rw [h.waiting_outside _ sema hwaiting]
    rfl

theorem Invariant.restore {system : System} (h : system.Invariant) {currentOwnerPriority : Int}
    (hactive : system.current ≠ idlethread)
    (hposition : system.position system.current = .restoring currentOwnerPriority) :
    (system.restore currentOwnerPriority).Invariant := by
  have hnot : (system.position system.current).waitsFor = none := by
    rw [hposition]
    rfl
  apply (h.setPrioCurrentRunner hactive hnot currentOwnerPriority).moveTo hactive hnot
  · simp [hposition]
  · rfl
  · simp

theorem Invariant.step {system next : System} {action : Action} (h : system.Invariant)
    (hstep : system.step action = some next) : next.Invariant := by
  have hactive : system.position system.current ≠ .outside → system.current ≠ idlethread := by
    intro hinside hidle
    exact hinside (hidle ▸ h.idle_outside)
  cases transition_of_step hstep with
  | enter hcall =>
    apply h.moveTo hcall.1
    · rw [hcall.2]
      rfl
    · simp [hcall.2]
    · rfl
    · simp
  | leave hcall => exact h.leave hcall _
  | enterSection hposition => exact h.enterSection hposition
  | wake hposition => exact h.wake hposition
  | leaveSection hposition => exact h.leaveSection (hactive (by simp [hposition])) hposition
  | restore hposition => exact h.restore (hactive (by simp [hposition])) hposition
  | suspendUntil hcall =>
    apply h.modifyCurrent hcall.1
    · rw [hcall.2]
      rfl
    · exact fun _ _ => rfl
  | resume => exact h.resume _
  | advance =>
    exact h.withKernel ⟨rfl, h.current_listed, rfl, h.waiting_high, h.waitingFor, h.woken⟩
  | dispatch hlisted => exact h.dispatch hlisted

theorem Invariant.run {initial final : System} {actions : List Action}
    (hinitial : initial.Initial) (hrun : run System.step initial actions = some final) :
    final.Invariant :=
  run_invariant (fun _ _ _ h hstep => h.step hstep) hinitial.invariant hrun

/-- In every run: one thread at most is inside, the owner is that thread or a waiter that has been
resumed and has not run yet, the counter is the nesting depth, a leave by any other thread does
nothing, and nobody waits for a free semaphore. -/
theorem mutual_exclusion {initial final : System} {actions : List Action}
    (hinitial : initial.Initial) (hrun : run step initial actions = some final)
    (sema : Address) :
    (∀ first second, final.Inside first sema → final.Inside second sema → first = second) ∧
      (∀ thread, final.Inside thread sema → final.owner sema = some thread ∧
        (final.semaphore sema).ownerEnterCnt = final.nesting thread sema) ∧
      (∀ thread, final.owner sema = some thread → final.Inside thread sema ∨
        final.Waiting thread sema ∧ (final.kernel.thread thread).waitingFor = none) ∧
      (∀ next, final.owner sema ≠ some final.current →
        final.step (.leave sema) = some next → next = final) ∧
      (final.owner sema = none → ∀ thread,
        (final.kernel.thread thread).waitingFor ≠ some sema ∧
          (final.Waiting thread sema → (final.kernel.thread thread).suspendedUntil = 0 ∨
            (final.kernel.thread thread).beyondStack = true)) := by
  have h := Invariant.run hinitial hrun
  refine ⟨fun first second hfirst hsecond => ?_, fun thread hinside => ?_,
    fun thread howner => ?_, fun next hother hleave => ?_, fun hnone thread => ?_⟩
  · have howner := h.inside_owns first sema hfirst
    rw [h.inside_owns second sema hsecond] at howner
    exact (Option.some.inj howner).symm
  · exact ⟨h.inside_owns thread sema hinside, h.count_eq thread sema hinside⟩
  · rcases h.owner_known thread sema howner with hinside | hwaiting
    · exact Or.inl hinside
    · refine Or.inr ⟨hwaiting, ?_⟩
      rcases h.woken thread sema hwaiting with hwaits | hwoken
      · exact absurd howner (h.waitingFor thread sema hwaits).2.2
      · exact hwoken.1
  · simp only [step] at hleave
    split at hleave
    · rw [final.leave_of_not_owner sema hother] at hleave
      exact (Option.some.inj hleave).symm
    · cases hleave
  · have hnot : (final.kernel.thread thread).waitingFor ≠ some sema :=
      fun hwaits => (h.waitingFor thread sema hwaits).2.1 hnone
    refine ⟨hnot, fun hwaiting => ?_⟩
    exact ((h.woken thread sema hwaiting).resolve_left hnot).2

/-- The second thread waits while the first has entered twice and left once. -/
theorem mutual_exclusion_nested :
    ((run step (started [5, 3]) [.dispatch 1, .enter 7, .proceed, .dispatch 2, .enter 7,
      .proceed, .dispatch 1, .enter 7, .proceed, .leave 7]).map
        fun final => (final.semaphore 7).ownerEnterCnt) = some 1 := by
  have hrun : run step (started [5, 3]) [.dispatch 1, .enter 7, .proceed, .dispatch 2, .enter 7,
    .proceed, .dispatch 1, .enter 7, .proceed, .leave 7] = some _ := rfl
  obtain ⟨-, hinside, -⟩ := mutual_exclusion (started_initial _) hrun 7
  exact congrArg some (hinside 1 (Or.inl (by decide))).2

end System

end Rodos.BareMetal
