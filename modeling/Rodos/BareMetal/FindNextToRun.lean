import Rodos.BareMetal.Scheduler

/-! What one pass over the thread list finds: the thread to run, and when a thread that matters
wakes up next. -/
namespace Rodos.BareMetal
open Library

namespace Kernel

variable (kernel : Kernel)

/-- A thread that is not ready yet, and would run then rather than wait for `running`. -/
def WakesBefore (running thread : ThreadId) : Prop :=
  ¬ kernel.IsReady thread ∧ kernel.getPriority running ≤ kernel.getPriority thread

instance (running thread : ThreadId) : Decidable (kernel.WakesBefore running thread) :=
  inferInstanceAs (Decidable (_ ∧ _))

theorem considerToRun_snd (found : ThreadId × Int) (iter : ThreadId) :
    (kernel.considerToRun found iter).2 =
      if kernel.WakesBefore found.1 iter then
        earlier found.2 (kernel.thread iter).suspendedUntil
      else found.2 := by
  unfold considerToRun WakesBefore IsReady
  grind

theorem considerToRun_priority (found : ThreadId × Int) (iter : ThreadId) :
    kernel.getPriority found.1 ≤ kernel.getPriority (kernel.considerToRun found iter).1 := by
  rw [considerToRun_fst]
  split
  · next hreplaced =>
    cases hreplaced.2 with
    | inl hhigher => exact Int.le_of_lt hhigher
    | inr hsame => exact Int.le_of_eq hsame.1.symm
  · exact Int.le_refl _

theorem foldl_considerToRun_priority (threads : List ThreadId) (found : ThreadId × Int) :
    kernel.getPriority found.1 ≤
      kernel.getPriority (threads.foldl kernel.considerToRun found).1 := by
  induction threads generalizing found with
  | nil => exact Int.le_refl _
  | cons thread threads ih =>
    exact Int.le_trans (kernel.considerToRun_priority found thread) (ih _)

theorem considerToRun_snd_le (found : ThreadId × Int) (iter : ThreadId) :
    (kernel.considerToRun found iter).2 ≤ found.2 := by
  rw [considerToRun_snd, earlier]
  split <;> [split; skip] <;> omega

theorem foldl_considerToRun_snd_le (threads : List ThreadId) (found : ThreadId × Int) :
    (threads.foldl kernel.considerToRun found).2 ≤ found.2 := by
  induction threads generalizing found with
  | nil => exact Int.le_refl _
  | cons thread threads ih =>
    exact Int.le_trans (ih _) (kernel.considerToRun_snd_le found thread)

/-- No wake-up is missed: the priority to compare with only grows in the course of the pass. -/
theorem foldl_considerToRun_earliest (threads : List ThreadId) (found : ThreadId × Int) :
    ∀ thread ∈ threads,
      kernel.WakesBefore (threads.foldl kernel.considerToRun found).1 thread →
        (threads.foldl kernel.considerToRun found).2 ≤ (kernel.thread thread).suspendedUntil := by
  induction threads generalizing found with
  | nil => exact fun thread hthread => nomatch hthread
  | cons iter threads ih =>
    intro thread hthread hwakes
    rw [List.foldl_cons] at hwakes ⊢
    cases List.mem_cons.mp hthread with
    | inr hlater => exact ih _ thread hlater hwakes
    | inl hfirst =>
      subst hfirst
      have hgrows := kernel.foldl_considerToRun_priority (thread :: threads) found
      have hcompared : kernel.WakesBefore found.1 thread :=
        ⟨hwakes.1, Int.le_trans hgrows hwakes.2⟩
      have htaken : (kernel.considerToRun found thread).2 ≤
          (kernel.thread thread).suspendedUntil := by
        rw [considerToRun_snd, if_pos hcompared, earlier]
        split <;> omega
      exact Int.le_trans (kernel.foldl_considerToRun_snd_le threads _) htaken

/-- The wake-up found is one of a thread that is not ready, unless it is still the first value. -/
theorem foldl_considerToRun_of_thread (threads : List ThreadId) (found : ThreadId × Int) :
    (threads.foldl kernel.considerToRun found).2 = found.2 ∨
      ∃ thread ∈ threads, ¬ kernel.IsReady thread ∧
        (threads.foldl kernel.considerToRun found).2 = (kernel.thread thread).suspendedUntil := by
  induction threads generalizing found with
  | nil => exact Or.inl rfl
  | cons iter threads ih =>
    rw [List.foldl_cons]
    rcases ih (kernel.considerToRun found iter) with hsame | ⟨thread, hthread, hwaits, hequal⟩
    · rw [hsame, considerToRun_snd]
      by_cases hwakes : kernel.WakesBefore found.1 iter
      · rw [if_pos hwakes, earlier]
        split
        · exact Or.inl rfl
        · exact Or.inr ⟨iter, List.mem_cons_self, hwakes.1, rfl⟩
      · exact Or.inl (if_neg hwakes)
    · exact Or.inr ⟨thread, List.mem_cons_of_mem iter hthread, hwaits, hequal⟩

/-- No ready thread comes before the one found. -/
theorem not_precedes_findNextToRun {thread : ThreadId} (hlisted : thread ∈ kernel.threadList)
    (hready : kernel.IsReady thread) : ¬ kernel.Precedes thread kernel.findNextToRun.1 := by
  rw [findNextToRun_fst]
  exact kernel.precedes_preference.not_better_selectBest idlethread _ thread
    (List.mem_cons_of_mem _ (mem_readyList.mpr ⟨hlisted, hready⟩))

theorem priority_le_findNextToRun {thread : ThreadId} (hlisted : thread ∈ kernel.threadList)
    (hready : kernel.IsReady thread) :
    kernel.getPriority thread ≤ kernel.getPriority kernel.findNextToRun.1 := by
  have hbest := kernel.not_precedes_findNextToRun hlisted hready
  unfold Precedes at hbest
  omega

theorem findNextToRun_oldest {thread : ThreadId} (hlisted : thread ∈ kernel.threadList)
    (hready : kernel.IsReady thread)
    (hsame : kernel.getPriority thread = kernel.getPriority kernel.findNextToRun.1) :
    (kernel.thread kernel.findNextToRun.1).lastActivation ≤
      (kernel.thread thread).lastActivation := by
  have hbest := kernel.not_precedes_findNextToRun hlisted hready
  unfold Precedes at hbest
  omega

/-- The thread found is ready, none is more urgent or has waited longer, and the time found is the
earliest one that a thread of at least its priority waits for, or earlier still. -/
theorem findNextToRun_correct :
    (kernel.findNextToRun.1 = idlethread ∨
        kernel.findNextToRun.1 ∈ kernel.threadList ∧ kernel.IsReady kernel.findNextToRun.1) ∧
      (∀ thread ∈ kernel.threadList, kernel.IsReady thread →
        kernel.getPriority thread ≤ kernel.getPriority kernel.findNextToRun.1) ∧
      (∀ thread ∈ kernel.threadList, kernel.IsReady thread →
        kernel.getPriority thread = kernel.getPriority kernel.findNextToRun.1 →
          (kernel.thread kernel.findNextToRun.1).lastActivation ≤
            (kernel.thread thread).lastActivation) ∧
      (∀ thread ∈ kernel.threadList, ¬ kernel.IsReady thread →
        kernel.getPriority kernel.findNextToRun.1 ≤ kernel.getPriority thread →
          kernel.findNextToRun.2 ≤ (kernel.thread thread).suspendedUntil) ∧
      (kernel.findNextToRun.2 = END_OF_TIME ∨
        ∃ thread ∈ kernel.threadList, ¬ kernel.IsReady thread ∧
          kernel.findNextToRun.2 = (kernel.thread thread).suspendedUntil) := by
  refine ⟨kernel.findNextToRun_mem, ?_, ?_, ?_, ?_⟩
  · exact fun thread hlisted hready => kernel.priority_le_findNextToRun hlisted hready
  · exact fun thread hlisted hready hsame => kernel.findNextToRun_oldest hlisted hready hsame
  · intro thread hlisted hwaits hpriority
    exact kernel.foldl_considerToRun_earliest kernel.threadList (idlethread, END_OF_TIME) thread
      hlisted ⟨hwaits, hpriority⟩
  · exact kernel.foldl_considerToRun_of_thread kernel.threadList (idlethread, END_OF_TIME)

end Kernel

end Rodos.BareMetal
