import Mathlib.Logic.Function.Basic
import Mathlib.Tactic.Common

/-! Folds that keep a difference: when a step is injective in the state and in the item, two lists
that differ in one item are told apart by what they fold to. -/
namespace Rodos.Library

/-- The lists are equal but for one item. -/
def DifferOnce (left right : List β) : Prop :=
  ∃ front back old new, old ≠ new ∧ left = front ++ old :: back ∧ right = front ++ new :: back

theorem DifferOnce.append_left {left right : List β} (before : List β)
    (h : DifferOnce left right) : DifferOnce (before ++ left) (before ++ right) := by
  obtain ⟨front, back, old, new, hne, rfl, rfl⟩ := h
  exact ⟨before ++ front, back, old, new, hne, by simp, by simp⟩

theorem DifferOnce.append_right {left right : List β} (behind : List β)
    (h : DifferOnce left right) : DifferOnce (left ++ behind) (right ++ behind) := by
  obtain ⟨front, back, old, new, hne, rfl, rfl⟩ := h
  exact ⟨front, back ++ behind, old, new, hne, by simp, by simp⟩

theorem differOnce_of_index {left right : List β} {index : Nat}
    (hlength : left.length = right.length) (hdiffers : left[index]? ≠ right[index]?)
    (hothers : ∀ other, other ≠ index → left[other]? = right[other]?) :
    DifferOnce left right := by
  have hinside : index < left.length := by
    by_contra houtside
    apply hdiffers
    rw [List.getElem?_eq_none (by omega), List.getElem?_eq_none (by omega)]
  have hinsideRight : index < right.length := by omega
  have hright : right = left.set index right[index] := by
    apply List.ext_getElem?
    intro other
    rw [List.getElem?_set]
    by_cases hother : index = other
    · subst hother
      rw [if_pos rfl, if_pos hinside, List.getElem?_eq_getElem hinsideRight]
    · rw [if_neg hother]
      exact (hothers other (Ne.symm hother)).symm
  refine ⟨left.take index, left.drop (index + 1), left[index], right[index],
    ?_, ?_, ?_⟩
  · intro hsame
    apply hdiffers
    rw [List.getElem?_eq_getElem hinside, List.getElem?_eq_getElem hinsideRight, hsame]
  · simp
  · conv_lhs => rw [hright]
    rw [List.set_eq_take_append_cons_drop, if_pos hinside]

theorem foldl_injective {step : σ → β → σ} (hstep : ∀ item, Function.Injective (step · item))
    (items : List β) : Function.Injective (items.foldl step) := by
  induction items with
  | nil => exact Function.injective_id
  | cons item rest ih => exact ih.comp (hstep item)

theorem foldl_ne_of_differOnce {step : σ → β → σ}
    (hstate : ∀ item, Function.Injective (step · item))
    (hitem : ∀ state, Function.Injective (step state)) {left right : List β}
    (hdiffer : DifferOnce left right) (state : σ) :
    left.foldl step state ≠ right.foldl step state := by
  obtain ⟨front, back, old, new, hne, rfl, rfl⟩ := hdiffer
  rw [List.foldl_append, List.foldl_append, List.foldl_cons, List.foldl_cons]
  intro hsame
  exact hne (hitem _ (foldl_injective hstate back hsame))

end Rodos.Library
