import Rodos.Library.OperatorPeriod
import Mathlib.Data.BitVec
import Mathlib.NumberTheory.Multiplicity

/-! Linear congruential sequences of words. Where the multiplier is one more than a multiple of
four and the increment is odd, such a sequence runs through all words before it repeats one. -/
namespace Rodos.Library.AffineCycle
open Finset

/-- One step of the sequence. -/
def advance {R : Type*} [Mul R] [Add R] (multiplier increment x : R) : R :=
  multiplier * x + increment

theorem iterate_advance {R : Type*} [CommRing R] (multiplier increment x : R) (count : Nat) :
    (advance multiplier increment)^[count] x =
      x + (∑ i ∈ range count, multiplier ^ i) * ((multiplier - 1) * x + increment) := by
  induction count with
  | zero => simp
  | succ count ih =>
    rw [Function.iterate_succ_apply', ih, geom_sum_succ, advance]
    ring

/-- The powers of such a multiplier add up to as many factors of two as there are powers. -/
theorem emultiplicity_geom_sum {multiplier : ℤ} (hmultiplier : 4 ∣ multiplier - 1) (count : Nat) :
    emultiplicity 2 (∑ i ∈ range count, multiplier ^ i) = emultiplicity (2 : ℤ) count := by
  by_cases hone : multiplier = 1
  · simp [hone]
  · have hodd : ¬ 2 ∣ multiplier := by omega
    have hfinite : FiniteMultiplicity 2 (multiplier - 1) :=
      Int.finiteMultiplicity_iff.mpr ⟨by decide, sub_ne_zero.mpr hone⟩
    have hpowers := Int.two_pow_sub_pow' count hmultiplier hodd
    rw [one_pow, ← geom_sum_mul, emultiplicity_mul Int.prime_two, add_comm] at hpowers
    exact WithTop.add_left_cancel
      (finiteMultiplicity_iff_emultiplicity_ne_top.mp hfinite) hpowers

theorem two_pow_dvd_geom_sum {multiplier : Nat} (hmultiplier : multiplier % 4 = 1)
    (width count : Nat) :
    2 ^ width ∣ ∑ i ∈ range count, multiplier ^ i ↔ 2 ^ width ∣ count := by
  have hsum : (2 : ℤ) ^ width ∣ ∑ i ∈ range count, (multiplier : ℤ) ^ i ↔
      (2 : ℤ) ^ width ∣ count := by
    rw [pow_dvd_iff_le_emultiplicity, emultiplicity_geom_sum (by omega),
      ← pow_dvd_iff_le_emultiplicity]
  exact_mod_cast hsum

theorem natCast_eq_zero_iff {width : Nat} (n : Nat) :
    (n : BitVec width) = 0 ↔ 2 ^ width ∣ n := by
  rw [← BitVec.toNat_inj, BitVec.natCast_eq_ofNat, BitVec.toNat_ofNat]
  exact (Nat.dvd_iff_mod_eq_zero ..).symm

section words

variable {width multiplier increment : Nat} (hmultiplier : multiplier % 4 = 1)
  (hincrement : increment % 2 = 1)
include hmultiplier hincrement

/-- A word comes back after the multiples of the number of words and not otherwise. -/
theorem iterate_eq_self_iff (word : BitVec width) (count : Nat) :
    (advance (multiplier : BitVec width) increment)^[count] word = word ↔ 2 ^ width ∣ count := by
  have hodd : Nat.Coprime (2 ^ width) ((multiplier - 1) * word.toNat + increment) := by
    apply Nat.Coprime.pow_left
    rw [Nat.prime_two.coprime_iff_not_dvd]
    have heven : 2 ∣ (multiplier - 1) * word.toNat :=
      Dvd.dvd.mul_right (by omega) word.toNat
    omega
  have hcast : (∑ i ∈ range count, (multiplier : BitVec width) ^ i) *
      (((multiplier : BitVec width) - 1) * word + (increment : BitVec width)) =
      (((∑ i ∈ range count, multiplier ^ i) * ((multiplier - 1) * word.toNat + increment) : Nat) :
        BitVec width) := by
    have hword : ((word.toNat : Nat) : BitVec width) = word := by
      rw [BitVec.natCast_eq_ofNat, BitVec.ofNat_toNat, BitVec.setWidth_eq]
    push_cast [Nat.cast_sub (show 1 ≤ multiplier by omega)]
    rw [hword]
  rw [iterate_advance, hcast, add_eq_left, ← two_pow_dvd_geom_sum hmultiplier,
    ← hodd.dvd_mul_right]
  exact natCast_eq_zero_iff _

/-- Two places of the sequence hold the same word if they are that far apart. -/
theorem iterate_eq_iterate_iff (word : BitVec width) (left right : Nat) :
    (advance (multiplier : BitVec width) increment)^[left] word =
      (advance (multiplier : BitVec width) increment)^[right] word ↔
        left ≡ right [MOD 2 ^ width] :=
  OperatorPeriod.iterate_eq_iterate_iff (Nat.two_pow_pos width)
    (iterate_eq_self_iff hmultiplier hincrement word) left right

end words

end Rodos.Library.AffineCycle
