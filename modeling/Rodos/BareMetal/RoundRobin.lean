import Rodos.BareMetal.FindNextToRun
import Mathlib.Data.List.Perm.Basic
import Mathlib.Data.List.Chain

/-! Threads of one priority take turns, since the one that has not run for the longest time is
selected and marked with a time stamp that is later than all others. -/
namespace Rodos.BareMetal

namespace Kernel

/-- At a call of the scheduler, the threads of the ring are ready and have one priority, and no
other thread can take their place. -/
structure InRing (ring : List ThreadId) (prio : Int) (kernel : Kernel) : Prop where
  listed : ∀ thread ∈ ring, thread ∈ kernel.threadList
  ready : ∀ thread ∈ ring, kernel.IsReady thread
  priority_eq : ∀ thread ∈ ring, kernel.getPriority thread = prio
  others_lower : ∀ thread, thread = idlethread ∨ thread ∈ kernel.threadList → thread ∉ ring →
    kernel.IsReady thread → kernel.getPriority thread < prio
  not_violated : ∀ thread, (kernel.thread thread).beyondStack = false
  not_preselected : ∀ thread ∈ kernel.preSelectedNextToRun, thread = kernel.findNextToRun.1

/-- Until the next call of the scheduler no thread is activated. -/
structure Uninterrupted (after next : Kernel) : Prop where
  scheduleCounter_eq : next.scheduleCounter = after.scheduleCounter
  lastActivation_eq : ∀ thread,
    (next.thread thread).lastActivation = (after.thread thread).lastActivation

/-- The kernels before consecutive calls of the scheduler. -/
def Consecutive (calls : List Kernel) : Prop :=
  calls.IsChain fun before next => Uninterrupted before.schedule.2 next

def selected (kernel : Kernel) : ThreadId := kernel.schedule.1

section turn

variable {ring : List ThreadId} {prio : Int} {kernel : Kernel}

theorem InRing.selected_eq (h : InRing ring prio kernel) :
    kernel.selected = kernel.findNextToRun.1 := by
  have hcandidate : kernel.candidate = kernel.findNextToRun.1 := by
    unfold candidate
    cases hpreselected : kernel.preSelectedNextToRun with
    | none => rfl
    | some thread => exact h.not_preselected thread hpreselected
  rw [selected, schedule_fst, h.not_violated, hcandidate]
  rfl

/-- The scheduler selects a thread of the ring. -/
theorem InRing.selected_mem (h : InRing ring prio kernel)
    (hidle : idlethread ∉ ring → kernel.getPriority idlethread < prio) (hne : ring ≠ []) :
    kernel.selected ∈ ring := by
  obtain ⟨thread, hthread⟩ := List.exists_mem_of_ne_nil ring hne
  have hbest := kernel.priority_le_findNextToRun (h.listed thread hthread) (h.ready thread hthread)
  rw [h.priority_eq thread hthread] at hbest
  rw [h.selected_eq]
  by_contra houtside
  have hlower : kernel.getPriority kernel.findNextToRun.1 < prio := by
    rcases kernel.findNextToRun_mem with hfound | ⟨hlisted, hready⟩
    · rw [hfound] at houtside ⊢
      exact hidle houtside
    · exact h.others_lower _ (Or.inr hlisted) houtside hready
  omega

/-- The selected thread has not run for longer than the other threads of the ring. -/
theorem InRing.selected_oldest (h : InRing ring prio kernel)
    (hmem : kernel.selected ∈ ring) {thread : ThreadId} (hthread : thread ∈ ring) :
    (kernel.thread kernel.selected).lastActivation ≤ (kernel.thread thread).lastActivation := by
  have hprio := h.priority_eq _ hmem
  rw [h.selected_eq] at hprio ⊢
  apply kernel.findNextToRun_oldest (h.listed thread hthread) (h.ready thread hthread)
  rw [h.priority_eq thread hthread, hprio]

end turn

/-- The threads of the ring that have not been selected since the counter stood at `start`. -/
structure Unselected (ring fresh : List ThreadId) (start : Nat) (kernel : Kernel) : Prop where
  nodup : fresh.Nodup
  subset : fresh ⊆ ring
  start_le : start ≤ kernel.scheduleCounter
  fresh_le : ∀ thread ∈ fresh, (kernel.thread thread).lastActivation ≤ start
  selected_gt : ∀ thread ∈ ring, thread ∉ fresh → start < (kernel.thread thread).lastActivation

theorem Unselected.selected_mem {ring fresh : List ThreadId} {start : Nat} {prio : Int}
    {kernel : Kernel} (h : Unselected ring fresh start kernel) (hring : InRing ring prio kernel)
    (hidle : idlethread ∉ ring → kernel.getPriority idlethread < prio) (hne : fresh ≠ []) :
    kernel.selected ∈ fresh := by
  obtain ⟨thread, hthread⟩ := List.exists_mem_of_ne_nil fresh hne
  have hmem := hring.selected_mem hidle (List.ne_nil_of_mem (h.subset hthread))
  have holdest := hring.selected_oldest hmem (h.subset hthread)
  by_contra hagain
  have hlater := h.selected_gt _ hmem hagain
  have hearlier := h.fresh_le thread hthread
  omega

/-- One turn takes the selected thread out. -/
theorem Unselected.schedule {ring fresh : List ThreadId} {start : Nat} {kernel next : Kernel}
    (h : Unselected ring fresh start kernel) (hnext : Uninterrupted kernel.schedule.2 next) :
    Unselected ring (fresh.erase kernel.selected) start next := by
  have hswitched := schedule_switched kernel
  have hstart := h.start_le
  have hcounter : next.scheduleCounter = kernel.scheduleCounter + 1 :=
    hnext.scheduleCounter_eq.trans hswitched.counter_eq
  have hactivated : (next.thread kernel.selected).lastActivation = kernel.scheduleCounter + 1 :=
    (hnext.lastActivation_eq _).trans hswitched.activated
  have hothers : ∀ other ≠ kernel.selected,
      (next.thread other).lastActivation = (kernel.thread other).lastActivation :=
    fun other hother => (hnext.lastActivation_eq other).trans
      (hswitched.activated_other other hother)
  constructor
  case nodup => exact h.nodup.erase _
  case subset => exact fun thread hthread => h.subset (List.mem_of_mem_erase hthread)
  case start_le => omega
  case fresh_le =>
    intro thread hthread
    obtain ⟨hother, hfresh⟩ := h.nodup.mem_erase_iff.mp hthread
    rw [hothers thread hother]
    exact h.fresh_le thread hfresh
  case selected_gt =>
    intro thread hring hgone
    by_cases hother : thread = kernel.selected
    · rw [hother, hactivated]
      omega
    · rw [hothers thread hother]
      refine h.selected_gt thread hring fun hfresh => hgone ?_
      exact h.nodup.mem_erase_iff.mpr ⟨hother, hfresh⟩

theorem Unselected.perm {ring fresh : List ThreadId} {start : Nat} {prio : Int}
    {calls : List Kernel} (hconsecutive : Consecutive calls)
    (hring : ∀ kernel ∈ calls, InRing ring prio kernel)
    (hidle : ∀ kernel ∈ calls, idlethread ∉ ring → kernel.getPriority idlethread < prio)
    (hfirst : ∀ kernel ∈ calls.head?, Unselected ring fresh start kernel)
    (hlength : calls.length = fresh.length) : (calls.map selected).Perm fresh := by
  induction calls generalizing fresh with
  | nil =>
    rw [List.length_eq_zero_iff.mp hlength.symm]
    exact List.Perm.refl []
  | cons kernel calls ih =>
    have hunselected := hfirst kernel rfl
    have hne : fresh ≠ [] := List.ne_nil_of_length_pos (by rw [← hlength]; exact Nat.succ_pos _)
    have hmem := hunselected.selected_mem (hring kernel List.mem_cons_self)
      (hidle kernel List.mem_cons_self) hne
    have hrest : (calls.map selected).Perm (fresh.erase kernel.selected) := by
      apply ih
      · exact hconsecutive.tail
      · exact fun later hlater => hring later (List.mem_cons_of_mem kernel hlater)
      · exact fun later hlater => hidle later (List.mem_cons_of_mem kernel hlater)
      · intro later hlater
        cases calls with
        | nil => cases hlater
        | cons second calls =>
          cases hlater
          exact hunselected.schedule (List.isChain_cons_cons.mp hconsecutive).1
      · rw [List.length_erase_of_mem hmem, ← hlength]
        rfl
    exact (hrest.cons _).trans (List.perm_cons_erase hmem).symm

/-- In as many consecutive calls of the scheduler as the ring has threads, each of them is selected
exactly once. The idle thread, which is selected when no thread comes before it, has to be ready or
less urgent like the others, or in the ring itself. -/
theorem round_robin (ring : List ThreadId) (prio : Int) (calls : List Kernel)
    (hnodup : ring.Nodup) (hlength : calls.length = ring.length)
    (hconsecutive : Consecutive calls) (hring : ∀ kernel ∈ calls, InRing ring prio kernel)
    (hidle : ∀ kernel ∈ calls, idlethread ∉ ring →
      kernel.IsReady idlethread ∨ kernel.getPriority idlethread < prio)
    (hcounter : ∀ kernel ∈ calls.head?, ∀ thread,
      (kernel.thread thread).lastActivation ≤ kernel.scheduleCounter) :
    (calls.map selected).Perm ring := by
  cases calls with
  | nil =>
    rw [List.length_eq_zero_iff.mp hlength.symm]
    exact List.Perm.refl []
  | cons kernel calls =>
    have hlower : ∀ call ∈ kernel :: calls, idlethread ∉ ring →
        call.getPriority idlethread < prio := by
      intro call hcall houtside
      cases hidle call hcall houtside with
      | inl hready => exact (hring call hcall).others_lower idlethread (Or.inl rfl) houtside hready
      | inr hlower => exact hlower
    have hfirst : Unselected ring ring kernel.scheduleCounter kernel :=
      ⟨hnodup, List.Subset.refl ring, Nat.le_refl _, fun thread _ => hcounter kernel rfl thread,
        fun thread hthread hgone => absurd hthread hgone⟩
    have hhead : ∀ first ∈ (kernel :: calls).head?,
        Unselected ring ring kernel.scheduleCounter first := by
      intro first hsame
      cases hsame
      exact hfirst
    exact Unselected.perm hconsecutive hring hlower hhead hlength

/-- A call of the scheduler by itself leaves the ring as it is. -/
theorem InRing.schedule {ring : List ThreadId} {prio : Int} {kernel : Kernel}
    (h : InRing ring prio kernel) : InRing ring prio kernel.schedule.2 := by
  have hswitched := schedule_switched kernel
  have hready : ∀ thread, kernel.schedule.2.IsReady thread ↔ kernel.IsReady thread := by
    intro thread
    have hsuspended : (kernel.schedule.2.thread thread).suspendedUntil =
        (kernel.thread thread).suspendedUntil :=
      hswitched.suspended_eq thread (h.not_violated thread)
    have htime : kernel.schedule.2.timeNow = kernel.timeNow := hswitched.timeNow_eq
    rw [IsReady, IsReady, hsuspended, htime]
  have hpriority : ∀ thread, kernel.schedule.2.getPriority thread = kernel.getPriority thread :=
    hswitched.priority_eq
  have hlist : kernel.schedule.2.threadList = kernel.threadList := hswitched.threadList_eq
  constructor
  case listed => exact fun thread hthread => hlist ▸ h.listed thread hthread
  case ready => exact fun thread hthread => (hready thread).mpr (h.ready thread hthread)
  case priority_eq =>
    exact fun thread hthread => (hpriority thread).trans (h.priority_eq thread hthread)
  case others_lower =>
    intro thread hlisted houtside hthread
    rw [hlist] at hlisted
    rw [hpriority]
    exact h.others_lower thread hlisted houtside ((hready thread).mp hthread)
  case not_violated =>
    exact fun thread => (hswitched.beyondStack_eq thread).trans (h.not_violated thread)
  case not_preselected =>
    intro thread hpreselected
    have hnone : kernel.schedule.2.preSelectedNextToRun = none := hswitched.not_preselected
    rw [hnone] at hpreselected
    cases hpreselected

/-- Threads 1 and 2, equally urgent and started together, and the idle thread below them. -/
def twoEqual : Kernel where
  threadList := [0, 1, 2]
  thread := fun thread => if thread = 0 then {} else { priority := 5 }
  timeNow := 1

theorem round_robin_twoEqual :
    ([twoEqual, twoEqual.schedule.2].map selected).Perm [1, 2] := by
  have hfirst : InRing [1, 2] 5 twoEqual := by
    constructor
    case listed => decide
    case ready => decide
    case priority_eq => decide
    case others_lower =>
      rintro thread (rfl | hlisted) houtside -
      · decide
      · have hidle : thread = 0 := by
          revert thread
          decide
        rw [hidle]
        decide
    case not_violated =>
      intro thread
      simp only [twoEqual]
      split <;> rfl
    case not_preselected => exact fun thread hpreselected => nomatch hpreselected
  apply round_robin [1, 2] 5
  · decide
  · rfl
  · exact List.isChain_pair.mpr ⟨rfl, fun _ => rfl⟩
  · intro kernel hkernel
    rcases List.mem_pair.mp hkernel with rfl | rfl
    · exact hfirst
    · exact hfirst.schedule
  · decide
  · intro kernel hkernel thread
    cases hkernel
    simp only [twoEqual]
    split <;> exact Nat.le_refl 0

/-- The idle thread is not ready, and is selected all the same. -/
def idleSuspended : Kernel where
  threadList := [0, 1]
  thread := fun thread => if thread = 0 then { suspendedUntil := END_OF_TIME } else {}
  timeNow := 1

theorem idle_selected_unready :
    InRing [1] 0 idleSuspended ∧
      (∀ thread, (idleSuspended.thread thread).lastActivation ≤ idleSuspended.scheduleCounter) ∧
      ¬ ([idleSuspended].map selected).Perm [1] := by
  refine ⟨?_, ?_, by decide⟩
  · constructor
    case listed => decide
    case ready => decide
    case priority_eq => decide
    case others_lower =>
      rintro thread (rfl | hlisted) houtside hready
      · exact absurd hready (by decide)
      · have hidle : thread = 0 := by
          revert thread
          decide
        rw [hidle] at hready
        exact absurd hready (by decide)
    case not_violated =>
      intro thread
      simp only [idleSuspended]
      split <;> rfl
    case not_preselected => exact fun thread hpreselected => nomatch hpreselected
  · intro thread
    simp only [idleSuspended]
    split <;> exact Nat.le_refl 0

end Kernel

end Rodos.BareMetal
