import Mathlib.Data.List.Basic
import Mathlib.Tactic.Common

/-! Choosing from a list by one pass: a candidate replaces the choice made so far when it is
better, so of equally good candidates the first one stays. -/
namespace Rodos.Library

variable {α : Type} (better : α → α → Prop) [DecidableRel better]

def selectBest (choice : α) (candidates : List α) : α :=
  candidates.foldl (fun choice candidate => if better candidate choice then candidate else choice)
    choice

@[simp] theorem selectBest_nil (choice : α) : selectBest better choice [] = choice := rfl

theorem selectBest_cons (choice candidate : α) (candidates : List α) :
    selectBest better choice (candidate :: candidates) =
      selectBest better (if better candidate choice then candidate else choice) candidates := rfl

theorem selectBest_mem (choice : α) (candidates : List α) :
    selectBest better choice candidates ∈ choice :: candidates := by
  induction candidates generalizing choice with
  | nil => simp
  | cons candidate candidates ih =>
    rw [selectBest_cons]
    have hrest := ih (if better candidate choice then candidate else choice)
    split at hrest <;> grind

/-- The two laws of an order in which some elements are equally good. -/
structure IsPreference : Prop where
  asymmetric : ∀ left right, better left right → ¬ better right left
  between : ∀ left middle right, better left right → better left middle ∨ better middle right

variable {better}

theorem IsPreference.not_better_selectBest (h : IsPreference better) (choice : α)
    (candidates : List α) :
    ∀ other ∈ choice :: candidates, ¬ better other (selectBest better choice candidates) := by
  induction candidates generalizing choice with
  | nil =>
    intro other hother hbetter
    obtain rfl := List.mem_singleton.mp hother
    exact h.asymmetric _ _ hbetter hbetter
  | cons candidate candidates ih =>
    rw [selectBest_cons]
    intro other hother hbetter
    by_cases hreplaced : better candidate choice
    · rw [if_pos hreplaced] at hbetter
      have hrest := ih candidate
      rcases List.mem_cons.mp hother with rfl | hother
      · rcases h.between _ candidate _ hbetter with hback | hfront
        · exact h.asymmetric _ _ hreplaced hback
        · exact hrest candidate (List.mem_cons_self ..) hfront
      · exact hrest other hother hbetter
    · rw [if_neg hreplaced] at hbetter
      have hrest := ih choice
      rcases List.mem_cons.mp hother with rfl | hother
      · exact hrest other (List.mem_cons_self ..) hbetter
      · rcases List.mem_cons.mp hother with rfl | hother
        · rcases h.between _ choice _ hbetter with hback | hfront
          · exact hreplaced hback
          · exact hrest choice (List.mem_cons_self ..) hfront
        · exact hrest other (List.mem_cons_of_mem _ hother) hbetter

/-- A candidate that is better than every other one is chosen. -/
theorem IsPreference.selectBest_eq (h : IsPreference better) {choice best : α}
    {candidates : List α} (hmem : best ∈ choice :: candidates)
    (hbest : ∀ other ∈ choice :: candidates, other ≠ best → better best other) :
    selectBest better choice candidates = best := by
  by_contra hother
  have hbetter := hbest _ (selectBest_mem better choice candidates) hother
  exact h.not_better_selectBest choice candidates best hmem hbetter

end Rodos.Library
