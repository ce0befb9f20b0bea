import Mathlib.Algebra.BigOperators.Fin
import Mathlib.Data.Fin.SuccPred

/-! Loops over the indices of an array: a rule for invariants, sums, and the copy of an array
without one of its entries. -/
namespace Rodos.Library

theorem foldl_finRange_invariant {State : Type} {n : Nat} {step : State → Fin n → State}
    {state : State} (Invariant : Nat → State → Prop) (hstart : Invariant 0 state)
    (hstep : ∀ state index, Invariant index.val state →
      Invariant (index.val + 1) (step state index)) :
    Invariant n ((List.finRange n).foldl step state) := by
  induction n generalizing state Invariant with
  | zero => exact hstart
  | succ n ih =>
    rw [List.finRange_succ, List.foldl_cons, List.foldl_map]
    apply ih (fun count => Invariant (count + 1))
    · exact hstep state 0 hstart
    · intro state index hstate
      exact hstep state index.succ hstate

theorem foldl_finRange_add {α : Type} [AddCommMonoid α] {n : Nat} (summand : Fin n → α) :
    (List.finRange n).foldl (fun total index => total + summand index) 0 =
      ∑ index, summand index := by
  rw [Fin.sum_univ_def, List.sum_eq_foldl, List.foldl_map]

section skip

variable {α : Type} {n : Nat}

def copySkippingStep (skip : Fin (n + 1)) (source : Fin (n + 1) → α)
    (state : (Fin n → α) × Nat) (index : Fin (n + 1)) : (Fin n → α) × Nat :=
  if index = skip then state
  else
    (fun place => if place.val = state.2 then source index else state.1 place, state.2 + 1)

/-- Copies all entries but one, one behind the other. -/
def copySkipping (skip : Fin (n + 1)) (source : Fin (n + 1) → α) (target : Fin n → α) :
    Fin n → α :=
  ((List.finRange (n + 1)).foldl (copySkippingStep skip source) (target, 0)).1

/-- What the loop has done before it looks at an index. -/
def CopiedBefore (skip : Fin (n + 1)) (source : Fin (n + 1) → α) (index : Nat)
    (state : (Fin n → α) × Nat) : Prop :=
  state.2 = (if index ≤ skip.val then index else index - 1) ∧
    ∀ place : Fin n, place.val < state.2 → state.1 place = source (skip.succAbove place)

theorem succAbove_eq_of_count {skip index : Fin (n + 1)} {place : Fin n} (hne : index ≠ skip)
    (hplace : place.val = if index.val ≤ skip.val then index.val else index.val - 1) :
    skip.succAbove place = index := by
  have hval : index.val ≠ skip.val := fun heq => hne (Fin.ext heq)
  apply Fin.ext
  rw [Fin.succAbove]
  split at hplace <;> split <;> rename_i hside <;>
    simp only [Fin.lt_def, Fin.val_castSucc, Fin.val_succ] at hside ⊢ <;> omega

theorem copySkippingStep_copied (skip : Fin (n + 1)) (source : Fin (n + 1) → α)
    (state : (Fin n → α) × Nat) (index : Fin (n + 1))
    (hcopied : CopiedBefore skip source index.val state) :
    CopiedBefore skip source (index.val + 1) (copySkippingStep skip source state index) := by
  obtain ⟨hcount, hentries⟩ := hcopied
  unfold copySkippingStep
  by_cases hskip : index = skip
  · subst hskip
    rw [if_pos rfl]
    exact ⟨by rw [hcount]; split <;> split <;> omega, hentries⟩
  · have hval : index.val ≠ skip.val := fun heq => hskip (Fin.ext heq)
    rw [if_neg hskip]
    constructor
    · rw [hcount]
      split <;> split <;> omega
    · intro place hplace
      by_cases hlast : place.val = state.2
      · simp only [if_pos hlast]
        rw [succAbove_eq_of_count hskip (hlast.trans hcount)]
      · simp only [if_neg hlast]
        exact hentries place (by omega)

/-- What the target held before does not matter. -/
theorem copySkipping_eq (skip : Fin (n + 1)) (source : Fin (n + 1) → α) (target : Fin n → α) :
    copySkipping skip source target = fun place => source (skip.succAbove place) := by
  have hcopied : CopiedBefore skip source (n + 1)
      ((List.finRange (n + 1)).foldl (copySkippingStep skip source) (target, 0)) := by
    apply foldl_finRange_invariant
    · exact ⟨by simp, fun place hplace => absurd hplace (Nat.not_lt_zero _)⟩
    · exact copySkippingStep_copied skip source
  obtain ⟨hcount, hentries⟩ := hcopied
  funext place
  apply hentries
  rw [hcount, if_neg (by omega)]
  omega

end skip

end Rodos.Library
