import Rodos.Library.Memory

/-! A memory that keeps a log of the cells that are read or written, for statements on what a
function accesses at all. -/
namespace Rodos.Library

structure Logged (α : Type) where
  cells : Memory α
  /-- The index of each access, the latest one first. -/
  touched : List Nat := []

namespace Logged

def load (memory : Logged α) (index : Nat) : α × Logged α :=
  (memory.cells index, { memory with touched := index :: memory.touched })

def store (memory : Logged α) (index : Nat) (value : α) : Logged α where
  cells := memory.cells.store index value
  touched := index :: memory.touched

/-- The cells from `offset` on as a memory of their own, for a function that only reads. -/
def behind (memory : Logged α) (offset : Nat) : Logged α where
  cells index := memory.cells (offset + index)

/-- What was read of the cells from `offset` on is read here. -/
def resume (memory : Logged α) (offset : Nat) (part : Logged α) : Logged α :=
  { memory with touched := part.touched.map (offset + ·) ++ memory.touched }

variable (memory : Logged α) (index : Nat) (value : α)

@[simp] theorem load_fst : (memory.load index).1 = memory.cells index := rfl

@[simp] theorem cells_load : (memory.load index).2.cells = memory.cells := rfl

@[simp] theorem touched_load : (memory.load index).2.touched = index :: memory.touched := rfl

@[simp] theorem cells_store :
    (memory.store index value).cells = memory.cells.store index value := rfl

@[simp] theorem touched_store :
    (memory.store index value).touched = index :: memory.touched := rfl

@[simp] theorem cells_behind (offset : Nat) :
    (memory.behind offset).cells = fun index => memory.cells (offset + index) := rfl

@[simp] theorem cells_resume (offset : Nat) (part : Logged α) :
    (memory.resume offset part).cells = memory.cells := rfl

/-- Every access so far was one of these. -/
def Within (memory : Logged α) (allowed : Nat → Prop) : Prop :=
  ∀ index ∈ memory.touched, allowed index

variable {memory index value} {allowed : Nat → Prop}

theorem within_fresh (cells : Memory α) : (Logged.mk cells []).Within allowed := by
  intro index hindex
  exact absurd hindex List.not_mem_nil

theorem within_behind (memory : Logged α) (offset : Nat) :
    (memory.behind offset).Within allowed := within_fresh _

theorem Within.load (hwithin : memory.Within allowed) (hindex : allowed index) :
    (memory.load index).2.Within allowed := by
  intro other hother
  obtain rfl | hother := List.mem_cons.mp hother
  · exact hindex
  · exact hwithin other hother

theorem Within.store (hwithin : memory.Within allowed) (hindex : allowed index) :
    (memory.store index value).Within allowed := by
  intro other hother
  obtain rfl | hother := List.mem_cons.mp hother
  · exact hindex
  · exact hwithin other hother

theorem Within.resume (hwithin : memory.Within allowed) {offset : Nat} {part : Logged α}
    (hpart : part.Within fun index => allowed (offset + index)) :
    (memory.resume offset part).Within allowed := by
  intro other hother
  obtain hother | hother := List.mem_append.mp hother
  · obtain ⟨index, hindex, rfl⟩ := List.mem_map.mp hother
    exact hpart index hindex
  · exact hwithin other hother

end Logged

end Rodos.Library
