import Mathlib.Algebra.BigOperators.Group.Finset.Piecewise
import Mathlib.Algebra.Order.BigOperators.Group.Finset

/-! How many places of a store hold a value of some kind, and how this number changes when one of
them is written. -/
namespace Rodos.Library

section census

variable {Place Value : Type}

def census (places : Finset Place) (store : Place → Value) (kind : Value → Prop)
    [DecidablePred kind] : Nat :=
  (places.filter fun place => kind (store place)).card

variable {places : Finset Place} {store : Place → Value} {kind : Value → Prop}
  [DecidablePred kind]

theorem census_le : census places store kind ≤ places.card :=
  Finset.card_filter_le places _

theorem census_pos {place : Place} (hplace : place ∈ places) (hkind : kind (store place)) :
    0 < census places store kind :=
  Finset.card_pos.mpr ⟨place, Finset.mem_filter.mpr ⟨hplace, hkind⟩⟩

theorem census_eq_zero : census places store kind = 0 ↔ ∀ place ∈ places, ¬ kind (store place) := by
  rw [census, Finset.card_eq_zero, Finset.filter_eq_empty_iff]

theorem census_congr {other : Place → Value}
    (hsame : ∀ place ∈ places, kind (store place) ↔ kind (other place)) :
    census places store kind = census places other kind := by
  rw [census, census, Finset.filter_congr hsame]

/-- What a write adds to the count, and what it takes away. -/
theorem census_update [DecidableEq Place] {place : Place} (hplace : place ∈ places)
    (value : Value) :
    census places (Function.update store place value) kind +
        (if kind (store place) then 1 else 0) =
      census places store kind + (if kind value then 1 else 0) := by
  have hrest : ∑ other ∈ places.erase place,
        (if kind (Function.update store place value other) then 1 else 0) =
      ∑ other ∈ places.erase place, if kind (store other) then 1 else 0 := by
    refine Finset.sum_congr rfl fun other hother => ?_
    rw [Function.update_of_ne (Finset.ne_of_mem_erase hother)]
  rw [census, census, Finset.card_filter, Finset.card_filter,
    ← Finset.add_sum_erase places _ hplace, ← Finset.add_sum_erase places _ hplace, hrest,
    Function.update_self]
  omega

end census

end Rodos.Library
