import Rodos.Library.Runs
import Mathlib.Data.Nat.Bitwise

/-! The time of the STM32H7: a 32-bit counter in hardware, and a second one in which an interrupt
counts how often the first one has wrapped around. -/
namespace Rodos.Time
open Library

/-- `CNT` and the update flag belong to `TIM2`. -/
structure HwTimer where
  CNT : UInt32 := 0
  updateFlag : Bool := false
  timerOverflowCount : UInt32 := 0

namespace HwTimer

def tick (timer : HwTimer) : HwTimer :=
  { timer with CNT := timer.CNT + 1, updateFlag := timer.updateFlag || timer.CNT + 1 = 0 }

/-- `TIM2_IRQHandler`. -/
def irqHandler (timer : HwTimer) : HwTimer :=
  if timer.updateFlag then
    { timer with updateFlag := false, timerOverflowCount := timer.timerOverflowCount + 1 }
  else timer

/-- What `hwGetNanoseconds` makes of the two counters. -/
def nanoseconds (overflow1 ticks : UInt32) : UInt64 :=
  ((overflow1.toUInt64 <<< 32) ||| ticks.toUInt64) * 1000

end HwTimer

/-- The access of `hwGetNanoseconds` that comes next. -/
inductive GetNanoseconds where
  | returned
  | readOverflow
  | readTicks (overflow1 : UInt32)
  /-- `uncounted` is not in the program: whether the counter had wrapped around without having been
  counted when `ticks` was read. -/
  | compare (overflow1 ticks : UInt32) (uncounted : Bool)

/-- The timer, the call of `hwGetNanoseconds` and the values returned so far. -/
structure TimeReading where
  timer : HwTimer
  call : GetNanoseconds := .returned
  values : List UInt64 := []

inductive TimeStep where
  | tick
  | interrupt
  | call
  | read

namespace TimeReading

def step (reading : TimeReading) : TimeStep → Option TimeReading
  | .tick => some { reading with timer := reading.timer.tick }
  | .interrupt => some { reading with timer := reading.timer.irqHandler }
  | .call =>
    match reading.call with
    | .returned => some { reading with call := .readOverflow }
    | .readOverflow | .readTicks _ | .compare _ _ _ => none
  | .read =>
    match reading.call with
    | .returned => none
    | .readOverflow => some { reading with call := .readTicks reading.timer.timerOverflowCount }
    | .readTicks overflow1 =>
      some { reading with
        call := .compare overflow1 reading.timer.CNT reading.timer.updateFlag }
    | .compare overflow1 ticks _ =>
      if overflow1 ≠ reading.timer.timerOverflowCount then
        some { reading with call := .readOverflow }
      else
        some { reading with
          call := .returned
          values := reading.values ++ [HwTimer.nanoseconds overflow1 ticks] }

/-- Every value is at least as late as the one before it. -/
def NeverDecreases (reading : TimeReading) : Prop := reading.values.Pairwise (· ≤ ·)

/-- A call that returns has not read the counter between a wrap and its interrupt, and its product
fits into 64 bits. -/
def ReturnsCounted (timer : HwTimer) : GetNanoseconds → Prop
  | .returned => True
  | .readOverflow => True
  | .readTicks _ => True
  | .compare overflow1 ticks uncounted =>
    overflow1 = timer.timerOverflowCount →
      uncounted = false ∧ (overflow1.toNat * 2 ^ 32 + ticks.toNat) * 1000 < 2 ^ 64

/-- The wraps fit into the counter for them. -/
def Counted (reading : TimeReading) : TimeStep → Prop
  | .tick => True
  | .interrupt => reading.timer.timerOverflowCount.toNat + 1 < 2 ^ 32
  | .call => True
  | .read => ReturnsCounted reading.timer reading.call

instance (timer : HwTimer) : DecidablePred (ReturnsCounted timer)
  | .returned => isTrue trivial
  | .readOverflow => isTrue trivial
  | .readTicks _ => isTrue trivial
  | .compare _ _ _ => inferInstanceAs (Decidable (_ → _ ∧ _))

instance (reading : TimeReading) : DecidablePred reading.Counted
  | .tick => isTrue trivial
  | .interrupt => inferInstanceAs (Decidable (_ < _))
  | .call => isTrue trivial
  | .read => inferInstanceAs (Decidable (ReturnsCounted _ _))

end TimeReading

namespace HwTimer

/-- The microseconds that are certain to have passed: with a wrap that is not yet counted, at least
those of the next round. -/
def passed (timer : HwTimer) : Nat :=
  if timer.updateFlag then (timer.timerOverflowCount.toNat + 1) * 2 ^ 32
  else timer.timerOverflowCount.toNat * 2 ^ 32 + timer.CNT.toNat

theorem passed_tick (timer : HwTimer) : timer.passed ≤ timer.tick.passed := by
  have hlt := timer.CNT.toNat_lt
  by_cases hflag : timer.updateFlag = true
  · simp [passed, tick, hflag]
  · by_cases hwrap : timer.CNT + 1 = 0
    · simp [passed, tick, hflag, hwrap]
      omega
    · have hnext : (timer.CNT + 1).toNat = timer.CNT.toNat + 1 := by
        rw [UInt32.toNat_add]
        refine Nat.mod_eq_of_lt (Nat.lt_of_not_le fun hle => hwrap ?_)
        have hmax : timer.CNT.toNat = 2 ^ 32 - 1 := by
          change 2 ^ 32 ≤ timer.CNT.toNat + 1 at hle
          omega
        rw [← UInt32.toNat_inj, UInt32.toNat_add, hmax]
        rfl
      simp [passed, tick, hflag, hwrap, hnext]

theorem timerOverflowCount_irqHandler {timer : HwTimer}
    (hfits : timer.timerOverflowCount.toNat + 1 < 2 ^ 32) (hflag : timer.updateFlag = true) :
    timer.irqHandler.timerOverflowCount.toNat = timer.timerOverflowCount.toNat + 1 := by
  simp only [irqHandler, hflag, if_true]
  rw [UInt32.toNat_add]
  exact Nat.mod_eq_of_lt hfits

theorem passed_irqHandler {timer : HwTimer}
    (hfits : timer.timerOverflowCount.toNat + 1 < 2 ^ 32) :
    timer.passed ≤ timer.irqHandler.passed := by
  by_cases hflag : timer.updateFlag = true
  · have hcount := timerOverflowCount_irqHandler hfits hflag
    have hcleared : timer.irqHandler.updateFlag = false := by simp [irqHandler, hflag]
    rw [passed, passed, hcount, if_pos hflag, if_neg (by simp [hcleared])]
    omega
  · rw [irqHandler, if_neg hflag]

theorem toNat_nanoseconds {overflow1 ticks : UInt32}
    (hfits : (overflow1.toNat * 2 ^ 32 + ticks.toNat) * 1000 < 2 ^ 64) :
    (nanoseconds overflow1 ticks).toNat = (overflow1.toNat * 2 ^ 32 + ticks.toNat) * 1000 := by
  have hlow := ticks.toNat_lt
  have hhigh : overflow1.toNat * 2 ^ 32 < 2 ^ 64 :=
    Nat.mul_lt_mul_of_pos_right overflow1.toNat_lt (Nat.two_pow_pos 32)
  have hshift : (overflow1.toUInt64 <<< 32).toNat = overflow1.toNat * 2 ^ 32 := by
    have hbits : (32 : UInt64).toNat % 64 = 32 := by decide
    rw [UInt64.toNat_shiftLeft, UInt32.toNat_toUInt64, hbits, Nat.shiftLeft_eq,
      Nat.mod_eq_of_lt hhigh]
  have hword : ((overflow1.toUInt64 <<< 32) ||| ticks.toUInt64).toNat =
      overflow1.toNat * 2 ^ 32 + ticks.toNat := by
    rw [UInt64.toNat_or, hshift, UInt32.toNat_toUInt64, ← Nat.shiftLeft_eq,
      Nat.shiftLeft_add_eq_or_of_lt hlow]
  rw [nanoseconds, UInt64.toNat_mul, hword]
  exact Nat.mod_eq_of_lt hfits

end HwTimer

namespace TimeReading

/-- All values returned so far lie within the time that has certainly passed; so does what a call
is going to return, unless it is too old or read between a wrap and its interrupt. -/
structure Bounded (reading : TimeReading) : Prop where
  sorted : reading.NeverDecreases
  values_le : ∀ value ∈ reading.values, value.toNat ≤ reading.timer.passed * 1000
  call_le : match reading.call with
    | .returned => True
    | .readOverflow => True
    | .readTicks overflow1 => overflow1.toNat ≤ reading.timer.timerOverflowCount.toNat
    | .compare overflow1 ticks uncounted =>
      overflow1.toNat ≤ reading.timer.timerOverflowCount.toNat ∧
        (overflow1 = reading.timer.timerOverflowCount → uncounted = false →
          overflow1.toNat * 2 ^ 32 + ticks.toNat ≤ reading.timer.passed ∧
          ∀ value ∈ reading.values,
            value.toNat ≤ (overflow1.toNat * 2 ^ 32 + ticks.toNat) * 1000)

/-- A later state of the timer. -/
theorem Bounded.later {reading : TimeReading} (h : reading.Bounded) {timer : HwTimer}
    (hpassed : reading.timer.passed ≤ timer.passed)
    (hcount : reading.timer.timerOverflowCount.toNat ≤ timer.timerOverflowCount.toNat) :
    Bounded { reading with timer := timer } := by
  have hcall := h.call_le
  refine ⟨h.sorted, fun value hvalue => ?_, ?_⟩
  · have hle := h.values_le value hvalue
    exact Nat.le_trans hle (Nat.mul_le_mul_right 1000 hpassed)
  · dsimp only
    split at hcall
    · trivial
    · trivial
    · exact Nat.le_trans hcall hcount
    · refine ⟨Nat.le_trans hcall.1 hcount, fun hsame hcounted => ?_⟩
      have hbefore := hcall.2 (by
        apply UInt32.toNat_inj.mp
        rw [hsame] at hcall ⊢
        omega) hcounted
      exact ⟨Nat.le_trans hbefore.1 hpassed, hbefore.2⟩

theorem Bounded.step {reading next : TimeReading} {label : TimeStep} (h : reading.Bounded)
    (hcounted : reading.Counted label) (hstep : reading.step label = some next) :
    next.Bounded := by
  have hcall := h.call_le
  cases label with
  | tick =>
    cases hstep
    exact h.later (HwTimer.passed_tick _) le_rfl
  | interrupt =>
    cases hstep
    apply h.later (HwTimer.passed_irqHandler hcounted)
    by_cases hflag : reading.timer.updateFlag = true
    · rw [HwTimer.timerOverflowCount_irqHandler hcounted hflag]
      exact Nat.le_succ _
    · rw [HwTimer.irqHandler, if_neg hflag]
  | call =>
    rw [TimeReading.step] at hstep
    split at hstep
    · cases hstep
      exact ⟨h.sorted, h.values_le, trivial⟩
    all_goals cases hstep
  | read =>
    rw [TimeReading.step] at hstep
    split at hstep
    · cases hstep
    · cases hstep
      exact ⟨h.sorted, h.values_le, le_rfl⟩
    · next overflow1 hreading =>
      rw [hreading] at hcall
      cases hstep
      refine ⟨h.sorted, h.values_le, hcall, fun hsame hclear => ?_⟩
      have hpassed : reading.timer.passed =
          overflow1.toNat * 2 ^ 32 + reading.timer.CNT.toNat := by
        dsimp only at hsame hclear
        rw [HwTimer.passed, if_neg (by simp [hclear]), hsame]
      rw [← hpassed]
      exact ⟨le_rfl, h.values_le⟩
    · next overflow1 ticks uncounted hreading =>
      rw [hreading] at hcall
      rw [Counted, hreading, ReturnsCounted] at hcounted
      split at hstep
      · cases hstep
        exact ⟨h.sorted, h.values_le, trivial⟩
      · next hsame =>
        cases hstep
        rw [Ne, not_not] at hsame
        obtain ⟨hclear, hfits⟩ := hcounted hsame
        obtain ⟨hpassed, hvalues⟩ := hcall.2 hsame hclear
        have hvalue := HwTimer.toNat_nanoseconds hfits
        refine ⟨?_, ?_, trivial⟩
        · refine List.pairwise_append.mpr ⟨h.sorted, List.pairwise_singleton _ _, ?_⟩
          intro value hvalue' last hlast
          rw [List.mem_singleton.mp hlast, UInt64.le_iff_toNat_le, hvalue]
          exact hvalues value hvalue'
        · intro value hmem
          obtain hmem | hmem := List.mem_append.mp hmem
          · exact h.values_le value hmem
          · rw [List.mem_singleton.mp hmem, hvalue]
            exact Nat.mul_le_mul_right 1000 hpassed

/-- The time never decreases while every wrap is counted before it can be read. -/
theorem never_decreases (timer : HwTimer) {labels : List TimeStep} {final : TimeReading}
    (hcounted : Along step Counted { timer := timer } labels)
    (hrun : run step { timer := timer } labels = some final) : final.NeverDecreases := by
  have hstart : Bounded { timer := timer } := ⟨.nil, nofun, trivial⟩
  have hkeeps (reading : TimeReading) (label : TimeStep) (next : TimeReading)
      (h : reading.Bounded) (hcounted : reading.Counted label)
      (hstep : reading.step label = some next) : next.Bounded := h.step hcounted hstep
  exact (run_invariant_along hkeeps hstart hcounted hrun).sorted

/-- A call: its three accesses behind each other. -/
def wholeCall : List TimeStep := [.call, .read, .read, .read]

theorem never_decreases_interrupted :
    ∃ final, run step { timer := { CNT := 0xFFFFFFFF } }
        (wholeCall ++ [.tick, .interrupt] ++ wholeCall) = some final ∧
      final.values = [4294967295000, 4294967296000] ∧ final.NeverDecreases := by
  have hvalues : (run step { timer := { CNT := 0xFFFFFFFF } }
      (wholeCall ++ [.tick, .interrupt] ++ wholeCall)).map values =
      some [4294967295000, 4294967296000] := by
    decide
  obtain ⟨final, hrun, hfinal⟩ := Option.map_eq_some_iff.mp hvalues
  exact ⟨final, hrun, hfinal, never_decreases { CNT := 0xFFFFFFFF } (by decide) hrun⟩

theorem run_ticks (count : Nat) (hcount : count < 2 ^ 32) :
    run step { timer := {} } (List.replicate count .tick) =
      some { timer := { CNT := UInt32.ofNat count } } := by
  induction count with
  | zero => rfl
  | succ count ih =>
    rw [List.replicate_succ']
    apply run_append (ih (by omega))
    have hnext : UInt32.ofNat count + 1 = UInt32.ofNat (count + 1) :=
      (UInt32.ofNat_add count 1).symm
    have hnonzero : UInt32.ofNat (count + 1) ≠ 0 := by
      intro hzero
      have hvalue := congrArg UInt32.toNat hzero
      rw [UInt32.toNat_ofNat_of_lt' hcount] at hvalue
      cases hvalue
    have htick : HwTimer.tick { CNT := UInt32.ofNat count } =
        { CNT := UInt32.ofNat (count + 1) } := by
      simp only [HwTimer.tick, hnext, hnonzero, decide_false, Bool.or_false]
    rw [← htick]
    rfl

/-- The counter has just wrapped around and its interrupt is still to come: the time falls back by
more than an hour. -/
theorem decreases_before_interrupt :
    ¬ ∀ (labels : List TimeStep) (final : TimeReading),
      run step { timer := {} } labels = some final → final.NeverDecreases := by
  intro halways
  have hvalues : (run step { timer := { CNT := UInt32.ofNat (2 ^ 32 - 1) } }
      (wholeCall ++ [.tick] ++ wholeCall)).map values = some [4294967295000, 0] := by
    decide
  obtain ⟨final, hrun, hfinal⟩ := Option.map_eq_some_iff.mp hvalues
  have hsorted := halways _ final (run_append (run_ticks (2 ^ 32 - 1) (by decide)) hrun)
  rw [NeverDecreases, hfinal] at hsorted
  revert hsorted
  decide

end TimeReading

end Rodos.Time
