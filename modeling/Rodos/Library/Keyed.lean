import Mathlib.Logic.Function.Basic
import Mathlib.Data.List.Basic
import Mathlib.Tactic.Common

/-! One memory for each key, and inputs that concern one key each. -/
namespace Rodos.Library.Keyed

variable {Key Input Memory : Type} [DecidableEq Key] (key : Input → Key)
  (step : Memory → Input → Memory)

def act (memory : Key → Memory) (input : Input) : Key → Memory :=
  Function.update memory (key input) (step (memory (key input)) input)

/-- What is kept for a key depends only on the inputs that concern it. -/
theorem foldl_act (memory : Key → Memory) (inputs : List Input) (own : Key) :
    inputs.foldl (act key step) memory own =
      (inputs.filter fun input => key input = own).foldl step (memory own) := by
  induction inputs generalizing memory with
  | nil => rfl
  | cons input inputs ih =>
    rw [List.foldl_cons, ih]
    by_cases hown : key input = own
    · subst hown
      simp [act]
    · simp [act, hown, Function.update_of_ne (Ne.symm hown)]

theorem foldl_act_filter (memory : Key → Memory) (inputs : List Input) (own : Key) :
    (inputs.filter fun input => key input = own).foldl (act key step) memory own =
      inputs.foldl (act key step) memory own := by
  rw [foldl_act, foldl_act, List.filter_filter]
  simp

end Rodos.Library.Keyed
