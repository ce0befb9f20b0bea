import Mathlib.Data.List.Basic
import Mathlib.Data.List.Flatten
import Mathlib.Tactic.Common

/-! Items that are put into groups of one size, in their order. The last group is filled up with
its last item. -/
namespace Rodos.Library

structure Packing (α : Type) where
  closed : List (List α) := []
  opened : List α := []

namespace Packing

variable {α : Type}

def add (capacity : Nat) (self : Packing α) (item : α) : Packing α :=
  if self.opened.length + 1 = capacity then { closed := self.closed ++ [self.opened ++ [item]] }
  else { self with opened := self.opened ++ [item] }

def finish (capacity : Nat) (self : Packing α) : List (List α) :=
  match self.opened.getLast? with
  | none => self.closed
  | some last =>
    self.closed ++ [self.opened ++ List.replicate (capacity - self.opened.length) last]

def pack (capacity : Nat) (items : List α) : List (List α) :=
  (items.foldl (add capacity) {}).finish capacity

example : pack 4 [1, 2, 3, 4, 5, 6] = [[1, 2, 3, 4], [5, 6, 6, 6]] := by decide

/-- The items so far, in their groups. -/
structure Holds (capacity : Nat) (items : List α) (packing : Packing α) : Prop where
  items_eq : packing.closed.flatten ++ packing.opened = items
  full : ∀ group ∈ packing.closed, group.length = capacity
  room : packing.opened.length < capacity

section holds

variable {capacity : Nat} {items : List α} {self : Packing α}

theorem Holds.add (h : Holds capacity items self) (item : α) :
    Holds capacity (items ++ [item]) (self.add capacity item) := by
  have hroom := h.room
  rw [Packing.add]
  split
  · next hfull =>
    constructor
    case items_eq => simp [← h.items_eq]
    case full =>
      intro group hgroup
      rcases List.mem_append.mp hgroup with hgroup | hgroup
      · exact h.full group hgroup
      · rw [List.mem_singleton.mp hgroup]
        simpa using hfull
    case room => simpa using Nat.lt_of_le_of_lt (Nat.zero_le _) hroom
  · constructor
    case items_eq => simp [← h.items_eq]
    case full => exact h.full
    case room =>
      rw [List.length_append, List.length_singleton]
      omega

theorem Holds.foldl (h : Holds capacity items self) (later : List α) :
    Holds capacity (items ++ later) (later.foldl (Packing.add capacity) self) := by
  induction later generalizing items self with
  | nil => simpa using h
  | cons item later ih => simpa using ih (h.add item)

theorem holds_pack (hcapacity : 0 < capacity) (items : List α) :
    Holds capacity items (items.foldl (Packing.add capacity) {}) := by
  have hempty : Holds capacity [] ({} : Packing α) := ⟨rfl, by simp, hcapacity⟩
  simpa using hempty.foldl items

theorem room_add (hroom : self.opened.length < capacity) (item : α) :
    (self.add capacity item).opened.length < capacity := by
  rw [Packing.add]
  split
  · exact Nat.lt_of_le_of_lt (Nat.zero_le _) hroom
  · rw [List.length_append, List.length_singleton]
    omega

theorem add_of_full (hfull : self.opened.length + 1 = capacity) (item : α) :
    self.add capacity item = { closed := self.closed ++ [self.opened ++ [item]] } := if_pos hfull

theorem finish_of_opened_nil (hopened : self.opened = []) : self.finish capacity = self.closed := by
  simp [finish, hopened]

theorem finish_of_opened (hopened : self.opened ≠ []) :
    self.finish capacity = self.closed ++
      [self.opened ++ List.replicate (capacity - self.opened.length)
        (self.opened.getLast hopened)] := by
  rw [finish, List.getLast?_eq_some_getLast hopened]

theorem closed_prefix_finish : self.closed <+: self.finish capacity := by
  rw [finish]
  split
  · exact List.prefix_rfl
  · exact List.prefix_append _ _

theorem closed_prefix_add (item : α) : self.closed <+: (self.add capacity item).closed := by
  rw [Packing.add]
  split
  · exact List.prefix_append _ _
  · exact List.prefix_rfl

/-- A group that is closed stays as it is. -/
theorem closed_prefix_foldl (later : List α) :
    self.closed <+: (later.foldl (Packing.add capacity) self).finish capacity := by
  induction later generalizing self with
  | nil => exact closed_prefix_finish
  | cons item later ih => exact (closed_prefix_add item).trans ih

end holds

variable {capacity : Nat} (hcapacity : 0 < capacity) {items : List α}
include hcapacity

theorem length_of_mem_pack {group : List α} (hgroup : group ∈ pack capacity items) :
    group.length = capacity := by
  have h := holds_pack hcapacity items
  have hroom := h.room
  rw [pack] at hgroup
  by_cases hopened : (items.foldl (Packing.add capacity) {}).opened = []
  · rw [finish_of_opened_nil hopened] at hgroup
    exact h.full group hgroup
  · rw [finish_of_opened hopened, List.mem_append, List.mem_singleton] at hgroup
    rcases hgroup with hgroup | rfl
    · exact h.full group hgroup
    · rw [List.length_append, List.length_replicate]
      omega

theorem mem_pack_iff {item : α} : (∃ group ∈ pack capacity items, item ∈ group) ↔ item ∈ items := by
  have h := holds_pack hcapacity items
  have hitems : item ∈ items ↔ (∃ group ∈ (items.foldl (Packing.add capacity) {}).closed,
      item ∈ group) ∨ item ∈ (items.foldl (Packing.add capacity) {}).opened := by
    conv_lhs => rw [← h.items_eq]
    simp
  rw [hitems, pack]
  by_cases hopened : (items.foldl (Packing.add capacity) {}).opened = []
  · rw [finish_of_opened_nil hopened, hopened]
    simp
  · have hlast := List.getLast_mem hopened
    rw [finish_of_opened hopened]
    simp only [List.mem_append, List.mem_singleton, List.mem_replicate, or_and_right, exists_or,
      exists_eq_left]
    apply or_congr_right
    constructor
    · rintro (hmem | ⟨-, rfl⟩)
      · exact hmem
      · exact hlast
    · exact .inl

/-- The items stand in the groups in their order. -/
theorem items_isPrefix_pack : items <+: (pack capacity items).flatten := by
  have h := holds_pack hcapacity items
  rw [pack]
  by_cases hopened : (items.foldl (Packing.add capacity) {}).opened = []
  · have hitems := h.items_eq
    rw [hopened, List.append_nil] at hitems
    exact ⟨[], by rw [List.append_nil, finish_of_opened_nil hopened, hitems]⟩
  · rw [finish_of_opened hopened, List.flatten_append, List.flatten_singleton, ← List.append_assoc,
      h.items_eq]
    exact List.prefix_append _ _

/-- As many groups as it takes. -/
theorem length_pack :
    (pack capacity items).length = (items.length + (capacity - 1)) / capacity := by
  have h := holds_pack hcapacity items
  have hroom := h.room
  have hclosed : (items.foldl (Packing.add capacity) {}).closed.flatten.length =
      (items.foldl (Packing.add capacity) {}).closed.length * capacity := by
    rw [List.length_flatten, List.map_congr_left h.full]
    simp
  have hlength := congrArg List.length h.items_eq
  rw [List.length_append, hclosed] at hlength
  symm
  rw [pack]
  by_cases hopened : (items.foldl (Packing.add capacity) {}).opened = []
  · rw [finish_of_opened_nil hopened]
    rw [hopened, List.length_nil] at hlength
    rw [Nat.div_eq_iff hcapacity]
    omega
  · have hpositive := List.length_pos_iff.mpr hopened
    rw [finish_of_opened hopened, List.length_append, List.length_singleton,
      Nat.div_eq_iff hcapacity, Nat.add_mul]
    omega

theorem length_flatten_pack : (pack capacity items).flatten.length ≤
    items.length + (capacity - 1) := by
  have hall : (pack capacity items).flatten.length = (pack capacity items).length * capacity := by
    rw [List.length_flatten, List.map_congr_left fun group hgroup =>
      length_of_mem_pack hcapacity hgroup]
    simp
  rw [hall, length_pack hcapacity]
  exact Nat.div_mul_le_self _ _

end Packing

end Rodos.Library
