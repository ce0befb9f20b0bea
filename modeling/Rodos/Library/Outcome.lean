import Mathlib.Data.List.Basic
import Mathlib.Tactic.Common

/-! What is left by a program that may give up on its way: one condition for the state in which it
comes to its end, another one for the state in which it gives up. -/
namespace Rodos.Library

variable {State Failed Item Index : Type}

def Outcome (good : State → Prop) (bad : Failed → Prop) : Except Failed State → Prop
  | .ok state => good state
  | .error state => bad state

namespace Outcome

variable {good : State → Prop} {bad : Failed → Prop} {result : Except Failed State}

theorem ok {state : State} (h : good state) : Outcome good bad (.ok state) := h

theorem mono {weaker : State → Prop} {worse : Failed → Prop} (h : Outcome good bad result)
    (hgood : ∀ state, good state → weaker state) (hbad : ∀ state, bad state → worse state) :
    Outcome weaker worse result := by
  cases result with
  | ok state => exact hgood state h
  | error state => exact hbad state h

theorem bind {Result : Type} {reached : Result → Prop} {next : State → Except Failed Result}
    (h : Outcome good bad result) (hnext : ∀ state, good state → Outcome reached bad (next state)) :
    Outcome reached bad (result >>= next) := by
  cases result with
  | ok state => exact hnext state h
  | error state => exact h

/-- A loop over a list, with an invariant that knows what the items so far amount to. -/
theorem foldlM {step : State → Item → Except Failed State} {advance : Index → Item → Index}
    {invariant : Index → State → Prop} {stops : Index → Item → Failed → Prop}
    (hstep : ∀ index state item, invariant index state →
      Outcome (invariant (advance index item)) (stops index item) (step state item))
    {index : Index} {state : State} (h : invariant index state) (items : List Item) :
    Outcome (invariant (items.foldl advance index))
      (fun failed => ∃ before item after, items = before ++ item :: after ∧
        stops (before.foldl advance index) item failed)
      (items.foldlM step state) := by
  induction items generalizing index state with
  | nil => exact h
  | cons item items ih =>
    rw [List.foldlM_cons]
    apply bind ((hstep index state item h).mono (fun _ => id) fun failed hstops => ?_)
    · intro next hnext
      apply (ih hnext).mono (fun _ => id)
      rintro failed ⟨before, other, after, rfl, hstops⟩
      exact ⟨item :: before, other, after, rfl, hstops⟩
    · exact ⟨[], item, items, rfl, hstops⟩

end Outcome

end Rodos.Library
