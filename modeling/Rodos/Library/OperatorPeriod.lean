import Mathlib.Algebra.CharP.Two
import Mathlib.Algebra.Module.Basic
import Mathlib.Data.Nat.Bitwise
import Mathlib.Data.Nat.ModEq
import Mathlib.Data.Nat.Prime.Basic
import Mathlib.Dynamics.PeriodicPts.Defs

/-! How often an operator has to be applied until an element comes back, from polynomials in that
operator. A polynomial over the field of two elements is a number, each bit a coefficient. -/
namespace Rodos.OperatorPeriod

/-- An element that comes back after the multiples of a length is at the same place of its orbit
at times that far apart. -/
theorem iterate_eq_iterate_iff {α : Type*} {f : α → α} {x : α} {length : Nat}
    (hpositive : 0 < length) (hreturn : ∀ count, f^[count] x = x ↔ length ∣ count)
    (left right : Nat) : f^[left] x = f^[right] x ↔ left ≡ right [MOD length] := by
  have hperiod : Function.minimalPeriod f x = length := by
    apply Nat.dvd_antisymm
    · exact Function.IsPeriodicPt.minimalPeriod_dvd ((hreturn length).mpr dvd_rfl)
    · exact (hreturn _).mp Function.iterate_minimalPeriod
  rw [← Function.iterate_mod_minimalPeriod_eq (n := left),
    ← Function.iterate_mod_minimalPeriod_eq (n := right),
    Function.iterate_eq_iterate_iff_of_lt_minimalPeriod, hperiod]
  · rfl
  all_goals
    rw [hperiod]
    exact Nat.mod_lt _ hpositive

section period

variable {R M : Type*} [Ring R] [AddCommGroup M] [Module R M]

/-- One power of the operator changes nothing. The power by a prime less moves every element but
zero. -/
structure HasPeriod (operator : R) (length : Nat) : Prop where
  positive : 0 < length
  pow_eq : operator ^ length = 1
  moves : ∀ p, p.Prime → p ∣ length → ∃ inverse, inverse * (operator ^ (length / p) - 1) = 1

variable {operator : R} {length : Nat}

theorem HasPeriod.pow_smul_eq_iff (h : HasPeriod operator length) {element : M}
    (hnonzero : element ≠ 0) (count : Nat) :
    operator ^ count • element = element ↔ length ∣ count := by
  have hiff (n : Nat) : operator ^ n • element = element ↔ MulAction.period operator element ∣ n :=
    MulAction.pow_smul_eq_iff_period_dvd
  rw [hiff]
  have hwhole : MulAction.period operator element ∣ length := by
    rw [← hiff, h.pow_eq, one_smul]
  generalize MulAction.period operator element = period at hiff hwhole ⊢
  suffices hsame : period = length by rw [hsame]
  obtain ⟨times, htimes⟩ := hwhole
  by_contra hne
  have hseveral : times ≠ 1 := by
    rintro rfl
    exact hne (by omega)
  -- Otherwise the period divides the length by some prime less, a power that moves the element.
  obtain ⟨p, hp, rest, rfl⟩ := Nat.exists_prime_and_dvd hseveral
  have hquotient : length / p = period * rest := by
    rw [htimes, Nat.mul_left_comm, Nat.mul_div_cancel_left _ hp.pos]
  obtain ⟨inverse, hinverse⟩ := h.moves p hp ⟨period * rest, by rw [htimes, Nat.mul_left_comm]⟩
  have hfixed : operator ^ (length / p) • element = element := by
    rw [hiff, hquotient]
    exact Nat.dvd_mul_right period rest
  apply hnonzero
  calc element
      = (inverse * (operator ^ (length / p) - 1)) • element := by rw [hinverse, one_smul]
    _ = inverse • (operator ^ (length / p) • element - element) := by
        rw [mul_smul, sub_smul, one_smul]
    _ = 0 := by rw [hfixed, sub_self, smul_zero]

end period

/-! ### Polynomials as numbers -/

/-- Times the indeterminate, modulo a polynomial of that degree. -/
def timesX (polynomial degree n : Nat) : Nat :=
  if 2 * n < 2 ^ degree then 2 * n else (2 * n) ^^^ polynomial

/-- The product modulo the polynomial of the lowest `bits` coefficients of `a` with `b`. -/
def multiply (polynomial degree : Nat) : Nat → Nat → Nat → Nat
  | 0, _, _ => 0
  | bits + 1, a, b =>
    timesX polynomial degree (multiply polynomial degree bits (a / 2) b) ^^^
      if a % 2 = 1 then b else 0

/-- The power of the indeterminate whose exponent is made of the lowest `bits` bits. -/
def powerX (polynomial degree : Nat) : Nat → Nat → Nat
  | 0, _ => 1
  | bits + 1, exponent =>
    let root := powerX polynomial degree bits (exponent / 2)
    let square := multiply polynomial degree degree root root
    if exponent % 2 = 1 then timesX polynomial degree square else square

section bounds

variable {polynomial degree : Nat}

theorem xor_lt_of_top {a b : Nat} (hlow : 2 ^ degree ≤ a) (ha : a < 2 ^ (degree + 1))
    (hbelow : 2 ^ degree ≤ b) (hb : b < 2 ^ (degree + 1)) : a ^^^ b < 2 ^ degree := by
  apply Nat.lt_pow_two_of_testBit
  intro bit hbit
  rw [Nat.testBit_xor]
  obtain rfl | hbit := Nat.eq_or_lt_of_le hbit
  · rw [Nat.testBit_of_two_pow_le_and_two_pow_add_one_gt hlow ha,
      Nat.testBit_of_two_pow_le_and_two_pow_add_one_gt hbelow hb, Bool.xor_self]
  · have habove : 2 ^ (degree + 1) ≤ 2 ^ bit := Nat.pow_le_pow_right (by decide) hbit
    rw [Nat.testBit_lt_two_pow (Nat.lt_of_lt_of_le ha habove),
      Nat.testBit_lt_two_pow (Nat.lt_of_lt_of_le hb habove), Bool.xor_self]

variable (hlow : 2 ^ degree ≤ polynomial) (hhigh : polynomial < 2 ^ (degree + 1))
include hlow hhigh

theorem timesX_lt {n : Nat} (hn : n < 2 ^ degree) : timesX polynomial degree n < 2 ^ degree := by
  unfold timesX
  split
  · assumption
  · exact xor_lt_of_top (by omega) (by omega) hlow hhigh

theorem multiply_lt (bits a : Nat) {b : Nat} (hb : b < 2 ^ degree) :
    multiply polynomial degree bits a b < 2 ^ degree := by
  induction bits generalizing a with
  | zero => exact Nat.two_pow_pos degree
  | succ bits ih =>
    rw [multiply]
    apply Nat.xor_lt_two_pow (timesX_lt hlow hhigh (ih (a / 2)))
    split
    · exact hb
    · exact Nat.two_pow_pos degree

theorem powerX_lt (hdegree : 0 < degree) (bits exponent : Nat) :
    powerX polynomial degree bits exponent < 2 ^ degree := by
  induction bits generalizing exponent with
  | zero => exact Nat.one_lt_two_pow (by omega)
  | succ bits ih =>
    have hsquare := multiply_lt hlow hhigh degree (powerX polynomial degree bits (exponent / 2))
      (ih (exponent / 2))
    rw [powerX]
    split
    · exact timesX_lt hlow hhigh hsquare
    · exact hsquare

end bounds

section evaluation

variable {R : Type*} [Ring R] (operator : R)

/-- The polynomial at an operator. -/
def evaluate (n : Nat) : R :=
  if n = 0 then 0 else (if n % 2 = 1 then 1 else 0) + operator * evaluate (n / 2)
termination_by n

@[simp] theorem evaluate_zero : evaluate operator 0 = 0 := by
  rw [evaluate, if_pos rfl]

theorem evaluate_eq (n : Nat) :
    evaluate operator n = (if n % 2 = 1 then 1 else 0) + operator * evaluate operator (n / 2) := by
  by_cases hzero : n = 0
  · simp [hzero]
  · rw [evaluate, if_neg hzero]

@[simp] theorem evaluate_one : evaluate operator 1 = 1 := by
  rw [evaluate_eq]
  simp

theorem evaluate_double (n : Nat) : evaluate operator (2 * n) = operator * evaluate operator n := by
  rw [evaluate_eq, Nat.mul_div_cancel_left n (by decide), Nat.mul_mod_right]
  simp

variable [CharP R 2]

theorem evaluate_xor (a b : Nat) :
    evaluate operator (a ^^^ b) = evaluate operator a + evaluate operator b := by
  induction a using Nat.strongRecOn generalizing b with
  | ind a ih =>
    by_cases hzero : a = 0
    · simp [hzero]
    · have hlowest : (if (a ^^^ b) % 2 = 1 then (1 : R) else 0) =
          (if a % 2 = 1 then 1 else 0) + if b % 2 = 1 then 1 else 0 := by
        have hone : (1 : R) + 1 = 0 := CharTwo.add_self_eq_zero 1
        simp only [Nat.xor_mod_two_eq_one]
        by_cases ha : a % 2 = 1 <;> by_cases hb : b % 2 = 1 <;> simp [ha, hb, hone]
      rw [evaluate_eq operator (a ^^^ b), evaluate_eq operator a, evaluate_eq operator b, hlowest,
        Nat.xor_div_two, ih (a / 2) (by omega), mul_add]
      exact add_add_add_comm _ _ _ _

variable {operator} {polynomial degree : Nat} (hroot : evaluate operator polynomial = 0)
include hroot

theorem evaluate_timesX (n : Nat) :
    evaluate operator (timesX polynomial degree n) = operator * evaluate operator n := by
  unfold timesX
  split
  · exact evaluate_double operator n
  · rw [evaluate_xor, evaluate_double, hroot, add_zero]

theorem evaluate_multiply {bits a : Nat} (ha : a < 2 ^ bits) (b : Nat) :
    evaluate operator (multiply polynomial degree bits a b) =
      evaluate operator a * evaluate operator b := by
  induction bits generalizing a with
  | zero =>
    obtain rfl : a = 0 := by omega
    simp [multiply]
  | succ bits ih =>
    rw [multiply, evaluate_xor, evaluate_timesX hroot, ih (by omega), evaluate_eq operator a,
      add_mul, mul_assoc, add_comm]
    congr 1
    split <;> simp

theorem evaluate_powerX (hdegree : 0 < degree) (hlow : 2 ^ degree ≤ polynomial)
    (hhigh : polynomial < 2 ^ (degree + 1)) {bits exponent : Nat}
    (hexponent : exponent < 2 ^ bits) :
    evaluate operator (powerX polynomial degree bits exponent) = operator ^ exponent := by
  induction bits generalizing exponent with
  | zero =>
    obtain rfl : exponent = 0 := by omega
    simp [powerX]
  | succ bits ih =>
    have hsquare : evaluate operator (multiply polynomial degree degree
        (powerX polynomial degree bits (exponent / 2))
        (powerX polynomial degree bits (exponent / 2))) = operator ^ (2 * (exponent / 2)) := by
      rw [evaluate_multiply hroot (powerX_lt hlow hhigh hdegree bits (exponent / 2)),
        ih (by omega), ← pow_add, Nat.two_mul]
    rw [powerX]
    split
    · rw [evaluate_timesX hroot, hsquare, ← pow_succ']
      congr 1
      omega
    · rw [hsquare]
      congr 1
      omega

/-- The period follows from powers modulo a polynomial that the operator is a root of: each prime
of the length comes with an inverse of what the power by that prime less differs from one. -/
theorem hasPeriod_of_root (hdegree : 0 < degree) (hlow : 2 ^ degree ≤ polynomial)
    (hhigh : polynomial < 2 ^ (degree + 1)) {length bits : Nat} (hpositive : 0 < length)
    (hlength : length < 2 ^ bits) (hone : powerX polynomial degree bits length = 1)
    (inverses : List (Nat × Nat))
    (hprimes : ∀ p, p.Prime → p ∣ length → ∃ inverse, (p, inverse) ∈ inverses)
    (hinverses : ∀ entry ∈ inverses, entry.2 < 2 ^ degree ∧
      multiply polynomial degree degree entry.2
        (powerX polynomial degree bits (length / entry.1) ^^^ 1) = 1) :
    HasPeriod operator length where
  positive := hpositive
  pow_eq := by
    rw [← evaluate_powerX hroot hdegree hlow hhigh hlength, hone, evaluate_one]
  moves p hp hdvd := by
    obtain ⟨inverse, hmem⟩ := hprimes p hp hdvd
    obtain ⟨hsmall, hproduct⟩ := hinverses _ hmem
    have hquotient : length / p < 2 ^ bits := Nat.lt_of_le_of_lt (Nat.div_le_self ..) hlength
    refine ⟨evaluate operator inverse, ?_⟩
    rw [CharTwo.sub_eq_add, ← evaluate_powerX hroot hdegree hlow hhigh hquotient,
      ← evaluate_one operator, ← evaluate_xor, ← evaluate_multiply hroot hsmall, hproduct]

end evaluation

end Rodos.OperatorPeriod
