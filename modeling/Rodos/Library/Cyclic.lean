import Mathlib.Logic.Function.Basic
import Mathlib.Data.List.Basic
import Mathlib.Data.Int.ModEq
import Mathlib.Tactic.Common

/-! Runs of cells in an array of fixed size whose last cell is followed by its first. -/
namespace Rodos.Library.Cyclic

/-- The `count` cells that follow each other from index `start` on. -/
def cells (memory : Int → α) (size start : Int) (count : Nat) : List α :=
  (List.range count).map fun i : Nat => memory ((start + i) % size)

variable {memory : Int → α} {size start : Int}

@[simp] theorem cells_zero : cells memory size start 0 = [] := rfl

@[simp] theorem length_cells (count : Nat) : (cells memory size start count).length = count := by
  simp [cells]

theorem cells_emod (count : Nat) :
    cells memory size (start % size) count = cells memory size start count := by
  simp [cells, Int.emod_add_emod]

theorem cells_add (first second : Nat) :
    cells memory size start (first + second) =
      cells memory size start first ++ cells memory size (start + first) second := by
  simp [cells, List.range_add, Function.comp_def, Int.add_assoc]

theorem cells_succ (count : Nat) :
    cells memory size start (count + 1) =
      cells memory size start count ++ [memory ((start + count) % size)] := by
  simp [cells, List.range_succ]

theorem cells_cons (count : Nat) :
    cells memory size start (count + 1) =
      memory (start % size) :: cells memory size (start + 1) count := by
  rw [Nat.add_comm, cells_add]
  simp [cells]

theorem index_ne (start : Int) {i j : Nat} (hij : i < j) (hj : j < size) :
    (start + i) % size ≠ (start + j) % size := by
  intro heq
  have hdvd : size ∣ (j : Int) - i := by
    have := Int.ModEq.dvd heq
    simpa using this
  have := Int.le_of_dvd (by omega) hdvd
  omega

/-- The cell behind a run that is not full can be stored without touching the run. -/
theorem cells_update_end {count : Nat} (value : α) (hcount : count < size) :
    cells (Function.update memory ((start + count) % size) value) size start count =
      cells memory size start count := by
  apply List.map_congr_left
  intro i hi
  exact Function.update_of_ne (index_ne start (List.mem_range.mp hi) hcount) _ _

theorem cells_store_end {count : Nat} (value : α) (hcount : count < size) :
    cells (Function.update memory ((start + count) % size) value) size start (count + 1) =
      cells memory size start count ++ [value] := by
  rw [cells_succ, cells_update_end value hcount, Function.update_self]

theorem drop_cells (memory : Int → α) (size start : Int) {count skipped : Nat}
    (hskipped : skipped ≤ count) :
    (cells memory size start count).drop skipped =
      cells memory size (start + skipped) (count - skipped) := by
  obtain ⟨rest, rfl⟩ := Nat.exists_eq_add_of_le hskipped
  rw [cells_add, List.drop_left' (length_cells skipped), Nat.add_sub_cancel_left]

end Rodos.Library.Cyclic
