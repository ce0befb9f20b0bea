import Mathlib.Logic.Function.Basic
import Mathlib.Data.List.Basic
import Mathlib.Data.List.Flatten
import Mathlib.Tactic.Common

/-! Unbounded cell arrays and the list of their first cells. A C buffer is such
an array together with the number of cells that are in use. -/
namespace Rodos.Library

abbrev Memory (α : Type) := Nat → α

namespace Memory

def store (memory : Memory α) (index : Nat) (value : α) : Memory α :=
  Function.update memory index value

/-- The first `count` cells, lowest index first. -/
def front (memory : Memory α) (count : Nat) : List α :=
  (List.range count).map memory

@[simp] theorem store_same (memory : Memory α) (index : Nat) (value : α) :
    memory.store index value index = value := by
  simp [store]

theorem store_other (memory : Memory α) (value : α) {index other : Nat}
    (hne : other ≠ index) : memory.store index value other = memory other := by
  simp [store, hne]

@[simp] theorem front_zero (memory : Memory α) : memory.front 0 = [] := rfl

@[simp] theorem length_front (memory : Memory α) (count : Nat) :
    (memory.front count).length = count := by
  simp [front]

theorem front_succ (memory : Memory α) (count : Nat) :
    memory.front (count + 1) = memory.front count ++ [memory count] := by
  simp [front, List.range_succ]

theorem front_cons (memory : Memory α) (count : Nat) :
    memory.front (count + 1) = memory 0 :: front (fun i => memory (i + 1)) count := by
  simp [front, List.range_succ_eq_map, Function.comp_def]

theorem front_congr {left right : Memory α} {count : Nat}
    (hcells : ∀ index < count, left index = right index) :
    left.front count = right.front count := by
  apply List.map_congr_left
  intro index hindex
  exact hcells index (List.mem_range.mp hindex)

@[simp] theorem getElem?_front (memory : Memory α) (count index : Nat) :
    (memory.front count)[index]? = if index < count then some (memory index) else none := by
  by_cases hindex : index < count <;> simp [front, hindex]

/-- Storing at or behind the counted cells leaves them alone. -/
theorem front_store_of_le (memory : Memory α) (value : α) {count index : Nat}
    (hle : count ≤ index) : (memory.store index value).front count = memory.front count := by
  apply front_congr
  intro other hother
  exact store_other memory value (by omega)

theorem front_store_end (memory : Memory α) (count : Nat) (value : α) :
    (memory.store count value).front (count + 1) = memory.front count ++ [value] := by
  rw [front_succ, front_store_of_le memory value (Nat.le_refl count), store_same]

theorem take_front (memory : Memory α) (count limit : Nat) :
    (memory.front count).take limit = memory.front (min limit count) := by
  rw [front, ← List.map_take, List.take_range]
  rfl

/-- `for(; count > 0; count--) *to++ = *from++;`, `to` being `target + targetIndex` and `from`
being `source + sourceIndex`. -/
def copy (target source : Memory α) (targetIndex sourceIndex : Nat) : Nat → Memory α
  | 0 => target
  | count + 1 =>
    copy (target.store targetIndex (source sourceIndex)) source (targetIndex + 1)
      (sourceIndex + 1) count

theorem copy_outside (target source : Memory α) {targetIndex count index : Nat}
    (sourceIndex : Nat) (houtside : index < targetIndex ∨ targetIndex + count ≤ index) :
    copy target source targetIndex sourceIndex count index = target index := by
  induction count generalizing target targetIndex sourceIndex with
  | zero => rfl
  | succ count ih =>
    rw [copy, ih _ _ (by omega)]
    exact store_other target _ (by omega)

theorem copy_inside (target source : Memory α) {targetIndex count index : Nat}
    (sourceIndex : Nat) (hlow : targetIndex ≤ index) (hhigh : index < targetIndex + count) :
    copy target source targetIndex sourceIndex count index =
      source (sourceIndex + (index - targetIndex)) := by
  induction count generalizing target targetIndex sourceIndex with
  | zero => omega
  | succ count ih =>
    rw [copy]
    by_cases hfirst : index = targetIndex
    · subst hfirst
      rw [copy_outside _ _ _ (by omega), store_same, Nat.sub_self, Nat.add_zero]
    · rw [ih _ _ (by omega) (by omega)]
      congr 1
      omega

/-- `memcpy` from the start of one array to the start of another. -/
theorem copy_start (target source : Memory α) (count index : Nat) :
    copy target source 0 0 count index = if index < count then source index else target index := by
  split
  · rw [copy_inside _ _ _ (Nat.zero_le _) (by omega)]
    congr 1
    omega
  · exact copy_outside _ _ _ (by omega)

/-- The cells from `start` on that lie before `stop`. -/
def slice (memory : Memory α) (start stop : Nat) : List α := (memory.front stop).drop start

theorem getElem?_slice (memory : Memory α) (start stop index : Nat) :
    (memory.slice start stop)[index]? =
      if start + index < stop then some (memory (start + index)) else none := by
  rw [slice, List.getElem?_drop, getElem?_front]

theorem front_copy (target source : Memory α) (targetIndex sourceIndex count : Nat) :
    (copy target source targetIndex sourceIndex count).front (targetIndex + count) =
      target.front targetIndex ++ source.slice sourceIndex (sourceIndex + count) := by
  apply List.ext_getElem?
  intro index
  rw [getElem?_front]
  by_cases hlow : index < targetIndex
  · rw [List.getElem?_append_left (by simpa using hlow), getElem?_front, if_pos hlow,
      if_pos (by omega), copy_outside _ _ _ (by omega)]
  · rw [List.getElem?_append_right (by simpa using hlow), length_front, getElem?_slice]
    by_cases hhigh : index < targetIndex + count
    · rw [if_pos hhigh, if_pos (by omega), copy_inside _ _ _ (by omega) hhigh]
    · rw [if_neg hhigh, if_neg (by omega)]

end Memory

end Rodos.Library
