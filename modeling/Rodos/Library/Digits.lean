import Mathlib.Data.Nat.Digits.Lemmas
import Rodos.Library.Numeral

/-! The numeral of a number: its digits in a base, the most significant one first. -/
namespace Rodos.Library

/-- Other than `Nat.digits`, zero has a digit. -/
def numeral (base n : Nat) : List Nat :=
  if n = 0 then [0] else (Nat.digits base n).reverse

variable {base n : Nat}

theorem numeral_of_lt (hn : n < base) : numeral base n = [n] := by
  by_cases hzero : n = 0
  · rw [numeral, if_pos hzero, hzero]
  · rw [numeral, if_neg hzero, Nat.digits_of_lt base n hzero hn, List.reverse_singleton]

/-- One step of repeated division. -/
theorem numeral_of_le (hbase : 1 < base) (hn : base ≤ n) :
    numeral base n = numeral base (n / base) ++ [n % base] := by
  have hquotient : n / base ≠ 0 := Nat.div_ne_zero_iff.mpr ⟨by omega, hn⟩
  rw [numeral, numeral, if_neg (by omega), if_neg hquotient, Nat.digits_def' hbase (by omega),
    List.reverse_cons]

theorem length_numeral_pos (hbase : 1 < base) (n : Nat) : 0 < (numeral base n).length := by
  by_cases hn : n < base
  · simp [numeral_of_lt hn]
  · simp [numeral_of_le hbase (Nat.le_of_not_lt hn)]

theorem digit_lt_of_mem_numeral (hbase : 1 < base) {digit : Nat} (h : digit ∈ numeral base n) :
    digit < base := by
  by_cases hzero : n = 0
  · rw [numeral, if_pos hzero, List.mem_singleton] at h
    omega
  · rw [numeral, if_neg hzero, List.mem_reverse] at h
    exact Nat.digits_lt_base hbase h

theorem valueOf_reverse (digits : List Nat) :
    valueOf base digits.reverse = Nat.ofDigits base digits := by
  induction digits with
  | nil => rfl
  | cons digit digits ih =>
    rw [List.reverse_cons, valueOf_concat, ih, Nat.ofDigits_cons, Nat.mul_comm, Nat.add_comm]

/-- A numeral denotes its number. -/
theorem valueOf_numeral (base n : Nat) : valueOf base (numeral base n) = n := by
  by_cases hzero : n = 0
  · rw [numeral, if_pos hzero, hzero]
    simp [valueOf]
  · rw [numeral, if_neg hzero, valueOf_reverse, Nat.ofDigits_digits]

theorem length_numeral_le_iff (hbase : 1 < base) {count : Nat} (hcount : 0 < count) (n : Nat) :
    (numeral base n).length ≤ count ↔ n < base ^ count := by
  by_cases hzero : n = 0
  · have hpower : 0 < base ^ count := Nat.pow_pos (by omega)
    rw [numeral, if_pos hzero, hzero, List.length_singleton]
    omega
  · rw [numeral, if_neg hzero, List.length_reverse, Nat.digits_length_le_iff hbase]

/-- Zeros in front do not change the number. -/
theorem valueOf_zeros (count : Nat) (digits : List Nat) :
    valueOf base (List.replicate count 0 ++ digits) = valueOf base digits := by
  induction count with
  | zero => rfl
  | succ count ih =>
    rw [List.replicate_succ, List.cons_append, ← ih]
    simp [valueOf]

end Rodos.Library
