import Mathlib.Data.Rat.Floor
import Mathlib.Tactic.Linarith

/-! Rounding towards zero, of rationals and of quotients. -/
namespace Rodos.Library

/-- The conversion of a fraction to an integer type. -/
def truncate (value : ℚ) : Int := value.num.tdiv value.den

theorem truncate_of_nonneg {value : ℚ} (hnonneg : 0 ≤ value) : truncate value = ⌊value⌋ := by
  rw [truncate, Int.tdiv_eq_ediv_of_nonneg (Rat.num_nonneg.mpr hnonneg), Rat.floor_def']

theorem truncate_div {numerator denominator : Int} (hnumerator : 0 ≤ numerator)
    (hdenominator : 0 < denominator) :
    truncate ((numerator : ℚ) / (denominator : ℚ)) = numerator / denominator := by
  obtain ⟨denominator, rfl⟩ := Int.eq_ofNat_of_zero_le hdenominator.le
  have hquotient : (0 : ℚ) ≤ (numerator : ℚ) / (denominator : ℚ) := by positivity
  rw [Int.cast_natCast, truncate_of_nonneg hquotient, Rat.floor_intCast_div_natCast]

theorem truncate_eq_ediv {value : ℚ} {numerator denominator : Int} (hnumerator : 0 ≤ numerator)
    (hdenominator : 0 < denominator) (hvalue : value = (numerator : ℚ) / (denominator : ℚ)) :
    truncate value = numerator / denominator := by
  rw [hvalue, truncate_div hnumerator hdenominator]

theorem truncate_intCast (value : Int) : truncate (value : ℚ) = value := by
  simp [truncate]

theorem truncate_add_fraction {value : Int} (hvalue : 0 ≤ value) {fraction : ℚ}
    (hnonneg : 0 ≤ fraction) (hlt : fraction < 1) :
    truncate ((value : ℚ) + fraction) = value := by
  have hsum : (0 : ℚ) ≤ value + fraction := add_nonneg (by exact_mod_cast hvalue) hnonneg
  rw [truncate_of_nonneg hsum, Int.floor_intCast_add, Int.floor_eq_zero_iff.mpr ⟨hnonneg, hlt⟩,
    Int.add_zero]

/-- Dividing twice is dividing by the product, for negative values too. -/
theorem tdiv_tdiv (value : Int) (first second : Nat) :
    (value.tdiv first).tdiv second = value.tdiv ((first * second : Nat) : Int) := by
  obtain ⟨count, rfl | rfl⟩ := value.eq_nat_or_neg
  · rw [← Int.ofNat_tdiv, ← Int.ofNat_tdiv, ← Int.ofNat_tdiv, Nat.div_div_eq_div_mul]
  · rw [Int.neg_tdiv, Int.neg_tdiv, Int.neg_tdiv, ← Int.ofNat_tdiv, ← Int.ofNat_tdiv,
      ← Int.ofNat_tdiv, Nat.div_div_eq_div_mul]

/-- Quotient and remainder, which has the sign of the divided value. -/
theorem tdiv_tmod_spec (value : Int) {divisor : Int} (hdivisor : 0 < divisor) :
    divisor * value.tdiv divisor + value.tmod divisor = value ∧
      (0 ≤ value → 0 ≤ value.tmod divisor ∧ value.tmod divisor < divisor) ∧
      (value ≤ 0 → -divisor < value.tmod divisor ∧ value.tmod divisor ≤ 0) := by
  refine ⟨Int.mul_tdiv_add_tmod value divisor, fun hnonneg => ?_, fun hnonpos => ?_⟩
  · exact ⟨Int.tmod_nonneg divisor hnonneg, Int.tmod_lt_of_pos value hdivisor⟩
  · refine ⟨Int.lt_tmod_of_pos value hdivisor, ?_⟩
    have hopposite := Int.tmod_nonneg divisor (Int.neg_nonneg_of_nonpos hnonpos)
    rw [Int.neg_tmod] at hopposite
    omega

/-- A remainder is not negative if the value is not, or if there is none. -/
theorem tmod_nonneg_iff (value : Int) {divisor : Int} (hdivisor : 0 < divisor) :
    0 ≤ value.tmod divisor ↔ 0 ≤ value ∨ divisor ∣ value := by
  obtain ⟨_, hnonneg, hnonpos⟩ := tdiv_tmod_spec value hdivisor
  constructor
  · intro hrest
    by_cases hvalue : 0 ≤ value
    · exact .inl hvalue
    · have hnone : value.tmod divisor = 0 := by
        obtain ⟨_, hle⟩ := hnonpos (by omega)
        omega
      exact .inr (Int.dvd_of_tmod_eq_zero hnone)
  · rintro (hvalue | hdvd)
    · exact (hnonneg hvalue).1
    · rw [Int.tmod_eq_zero_of_dvd hdvd]

end Rodos.Library
