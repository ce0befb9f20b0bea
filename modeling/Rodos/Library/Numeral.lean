import Mathlib.Data.List.Induction

/-! Numbers written as digits, the most significant one first. -/
namespace Rodos.Library

/-- The number that digits of a base denote. -/
def valueOf (base : Nat) (digits : List Nat) : Nat :=
  digits.foldl (fun value digit => value * base + digit) 0

variable {base : Nat}

@[simp] theorem valueOf_nil : valueOf base [] = 0 := rfl

@[simp] theorem valueOf_concat (digits : List Nat) (digit : Nat) :
    valueOf base (digits ++ [digit]) = valueOf base digits * base + digit := by
  simp [valueOf]

/-- More digits never make a number smaller. -/
theorem valueOf_le_append (hbase : 0 < base) (front back : List Nat) :
    valueOf base front ≤ valueOf base (front ++ back) := by
  induction back using List.reverseRecOn with
  | nil => simp
  | append_singleton back digit ih =>
    rw [← List.append_assoc, valueOf_concat]
    have hgrow := Nat.le_mul_of_pos_right (valueOf base (front ++ back)) hbase
    omega

theorem valueOf_step_le (hbase : 0 < base) (front back : List Nat) (digit : Nat) :
    valueOf base front * base + digit ≤ valueOf base (front ++ digit :: back) := by
  have happend := valueOf_le_append hbase (front ++ [digit]) back
  rw [valueOf_concat, List.append_assoc] at happend
  exact happend

end Rodos.Library
