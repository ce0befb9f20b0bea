import Mathlib.Data.List.Basic
import Mathlib.Tactic.Common

/-! Runs of a system that takes one labelled step after another, and the rule that carries a
property from a step to a whole run. -/
namespace Rodos.Library

variable {State Label : Type} (step : State → Label → Option State)

/-- The state after the labels, or nothing when one of them is not possible. -/
def run (state : State) : List Label → Option State
  | [] => some state
  | label :: labels =>
    match step state label with
    | none => none
    | some next => run next labels

/-- Every label of the run is taken in a state where the condition allows it. -/
def Along (condition : State → Label → Prop) (state : State) : List Label → Prop
  | [] => True
  | label :: labels =>
    condition state label ∧
      match step state label with
      | none => True
      | some next => Along condition next labels

@[simp] theorem run_nil (state : State) : run step state [] = some state := rfl

variable {step}

theorem run_cons {state next final : State} {label : Label} {labels : List Label}
    (hstep : step state label = some next) (hrun : run step next labels = some final) :
    run step state (label :: labels) = some final := by
  rw [run, hstep]
  exact hrun

theorem exists_of_run_cons {state final : State} {label : Label} {labels : List Label}
    (hrun : run step state (label :: labels) = some final) :
    ∃ next, step state label = some next ∧ run step next labels = some final := by
  rw [run] at hrun
  split at hrun
  · cases hrun
  · next next hstep => exact ⟨next, hstep, hrun⟩

theorem run_append {state next final : State} {labels later : List Label}
    (hfirst : run step state labels = some next) (hthen : run step next later = some final) :
    run step state (labels ++ later) = some final := by
  induction labels generalizing state with
  | nil =>
    cases hfirst
    exact hthen
  | cons label labels ih =>
    obtain ⟨between, hstep, hrest⟩ := exists_of_run_cons hfirst
    exact run_cons hstep (ih hrest)

theorem exists_of_run_append {state final : State} {labels later : List Label}
    (hrun : run step state (labels ++ later) = some final) :
    ∃ next, run step state labels = some next ∧ run step next later = some final := by
  induction labels generalizing state with
  | nil => exact ⟨state, rfl, hrun⟩
  | cons label labels ih =>
    obtain ⟨between, hstep, hrest⟩ := exists_of_run_cons hrun
    obtain ⟨next, hlabels, hlater⟩ := ih hrest
    exact ⟨next, run_cons hstep hlabels, hlater⟩

theorem Along.of_cons {condition : State → Label → Prop} {state next : State} {label : Label}
    {labels : List Label} (h : Along step condition state (label :: labels))
    (hstep : step state label = some next) :
    condition state label ∧ Along step condition next labels := by
  rw [Along, hstep] at h
  exact h

theorem Along.of_append {condition : State → Label → Prop} {state : State}
    {labels later : List Label} (h : Along step condition state (labels ++ later)) :
    Along step condition state labels := by
  induction labels generalizing state with
  | nil => trivial
  | cons label labels ih =>
    rw [List.cons_append, Along] at h
    unfold Along
    refine ⟨h.1, ?_⟩
    split
    · trivial
    · next next hstep =>
      rw [hstep] at h
      exact ih h.2

theorem Along.and {left right : State → Label → Prop} {state : State} {labels : List Label}
    (hleft : Along step left state labels) (hright : Along step right state labels) :
    Along step (fun state label => left state label ∧ right state label) state labels := by
  induction labels generalizing state with
  | nil => trivial
  | cons label labels ih =>
    refine ⟨⟨hleft.1, hright.1⟩, ?_⟩
    split
    · trivial
    · next next hstep => exact ih (hleft.of_cons hstep).2 (hright.of_cons hstep).2

/-- A property that holds at first and that every allowed step keeps holds after every run
whose steps are all allowed. -/
theorem run_invariant_along {condition : State → Label → Prop} {Invariant : State → Prop}
    (hkeeps : ∀ state label next, Invariant state → condition state label →
      step state label = some next → Invariant next)
    {state final : State} {labels : List Label} (hinitial : Invariant state)
    (halong : Along step condition state labels) (hrun : run step state labels = some final) :
    Invariant final := by
  induction labels generalizing state with
  | nil =>
    cases hrun
    exact hinitial
  | cons label labels ih =>
    obtain ⟨next, hstep, hrest⟩ := exists_of_run_cons hrun
    obtain ⟨hcondition, halong⟩ := halong.of_cons hstep
    exact ih (hkeeps state label next hinitial hcondition hstep) halong hrest

/-- A run whose steps are all allowed goes through when every allowed step is possible. -/
theorem exists_run_along {condition : State → Label → Prop} {Invariant : State → Prop}
    (hkeeps : ∀ state label, Invariant state → condition state label →
      ∃ next, step state label = some next ∧ Invariant next)
    {state : State} {labels : List Label} (hinitial : Invariant state)
    (halong : Along step condition state labels) :
    ∃ final, run step state labels = some final ∧ Invariant final := by
  induction labels generalizing state with
  | nil => exact ⟨state, rfl, hinitial⟩
  | cons label labels ih =>
    obtain ⟨next, hstep, hnext⟩ := hkeeps state label hinitial halong.1
    obtain ⟨final, hrun, hfinal⟩ := ih hnext (halong.of_cons hstep).2
    exact ⟨final, run_cons hstep hrun, hfinal⟩

/-- Conditions that agree on every allowed step agree along every run of allowed steps. -/
theorem along_congr {restriction left right : State → Label → Prop}
    (hagree : ∀ state label, restriction state label → (left state label ↔ right state label))
    {state : State} {labels : List Label} (hallowed : Along step restriction state labels) :
    Along step left state labels ↔ Along step right state labels := by
  induction labels generalizing state with
  | nil => exact Iff.rfl
  | cons label labels ih =>
    rw [Along, Along, hagree state label hallowed.1]
    apply and_congr_right
    intro _
    split
    · exact Iff.rfl
    · next next hstep => exact ih (hallowed.of_cons hstep).2

/-- Conditions that agree wherever an invariant holds agree along a run, when the invariant is kept
where they hold. -/
theorem along_iff_of_keeps {Invariant : State → Prop} {left right : State → Label → Prop}
    (hagree : ∀ state label, Invariant state → (left state label ↔ right state label))
    (hkeeps : ∀ state label next, left state label → step state label = some next →
      Invariant next)
    {state : State} (hinitial : Invariant state) (labels : List Label) :
    Along step left state labels ↔ Along step right state labels := by
  induction labels generalizing state with
  | nil => exact Iff.rfl
  | cons label labels ih =>
    rw [Along, Along, ← hagree state label hinitial]
    apply and_congr_right
    intro hleft
    split
    · exact Iff.rfl
    · next next hstep => exact ih (hkeeps state label next hleft hstep)

theorem along_of_forall {condition : State → Label → Prop} {labels : List Label}
    (hlabels : ∀ label ∈ labels, ∀ state, condition state label) (state : State) :
    Along step condition state labels := by
  induction labels generalizing state with
  | nil => trivial
  | cons label labels ih =>
    refine ⟨hlabels label List.mem_cons_self state, ?_⟩
    split
    · trivial
    · exact ih (fun later hlater => hlabels later (List.mem_cons_of_mem label hlater)) _

/-- What an invariant and the condition say about each step holds along every run of allowed
steps. -/
theorem along_of_invariant_along {condition property : State → Label → Prop}
    {Invariant : State → Prop}
    (hkeeps : ∀ state label next, Invariant state → condition state label →
      step state label = some next → Invariant next)
    (hproperty : ∀ state label, Invariant state → condition state label → property state label)
    {state : State} {labels : List Label} (hinitial : Invariant state)
    (halong : Along step condition state labels) : Along step property state labels := by
  induction labels generalizing state with
  | nil => trivial
  | cons label labels ih =>
    refine ⟨hproperty state label hinitial halong.1, ?_⟩
    split
    · trivial
    · next next hstep =>
      obtain ⟨hcondition, hlater⟩ := halong.of_cons hstep
      exact ih (hkeeps state label next hinitial hcondition hstep) hlater

theorem along_of_invariant {condition : State → Label → Prop} {Invariant : State → Prop}
    (hkeeps : ∀ state label next, Invariant state → step state label = some next → Invariant next)
    (hallows : ∀ state label, Invariant state → condition state label) {state : State}
    (hinitial : Invariant state) (labels : List Label) : Along step condition state labels :=
  along_of_invariant_along (fun state label next h _ => hkeeps state label next h)
    (fun state label h _ => hallows state label h) hinitial
    (along_of_forall (fun _ _ _ => trivial) state)

theorem run_invariant {Invariant : State → Prop}
    (hkeeps : ∀ state label next, Invariant state → step state label = some next → Invariant next)
    {state final : State} {labels : List Label} (hinitial : Invariant state)
    (hrun : run step state labels = some final) : Invariant final :=
  run_invariant_along (fun state label next h _ => hkeeps state label next h) hinitial
    (along_of_forall (fun _ _ _ => trivial) state) hrun

/-- The property holds in every state of the run, the first and the last one included. -/
def Always (step : State → Label → Option State) (property : State → Prop) (state : State) :
    List Label → Prop
  | [] => property state
  | label :: labels =>
    property state ∧
      match step state label with
      | none => True
      | some next => Always step property next labels

theorem Always.holds {property : State → Prop} {state : State} {labels : List Label}
    (h : Always step property state labels) : property state := by
  cases labels with
  | nil => exact h
  | cons label labels => exact h.1

/-- What holds at the end of every beginning of a run holds always. -/
theorem always_of_prefixes {property : State → Prop} {state : State} {labels : List Label}
    (hends : ∀ labels' next, labels' <+: labels → run step state labels' = some next →
      property next) : Always step property state labels := by
  induction labels generalizing state with
  | nil => exact hends [] state List.prefix_rfl rfl
  | cons label labels ih =>
    refine ⟨hends [] state List.nil_prefix rfl, ?_⟩
    split
    · trivial
    · next next hstep =>
      refine ih fun labels' final hprefix hrun => ?_
      exact hends (label :: labels') final (List.prefix_cons_inj label |>.mpr hprefix)
        (run_cons hstep hrun)

/-- What follows from an invariant that every allowed step keeps holds in every state of a run whose
steps are all allowed. -/
theorem always_of_invariant_along {condition : State → Label → Prop}
    {Invariant property : State → Prop}
    (hkeeps : ∀ state label next, Invariant state → condition state label →
      step state label = some next → Invariant next)
    (hproperty : ∀ state, Invariant state → property state)
    {state : State} {labels : List Label} (hinitial : Invariant state)
    (halong : Along step condition state labels) : Always step property state labels := by
  induction labels generalizing state with
  | nil => exact hproperty state hinitial
  | cons label labels ih =>
    refine ⟨hproperty state hinitial, ?_⟩
    split
    · trivial
    · next next hstep =>
      obtain ⟨hcondition, halong⟩ := halong.of_cons hstep
      exact ih (hkeeps state label next hinitial hcondition hstep) halong

instance Along.decidable {condition : State → Label → Prop}
    [∀ state label, Decidable (condition state label)] :
    (state : State) → (labels : List Label) → Decidable (Along step condition state labels)
  | _, [] => isTrue trivial
  | state, label :: labels =>
    match hstep : step state label with
    | none => decidable_of_iff (condition state label) (by simp [Along, hstep])
    | some next =>
      have : Decidable (Along step condition next labels) := Along.decidable next labels
      decidable_of_iff (condition state label ∧ Along step condition next labels)
        (by simp [Along, hstep])

section yields

variable {Output : Type} {next : State → Option (Bool × State)} {view : State → Output}

/-- Repeated calls succeed with these outputs and then fail for the first time. -/
def Yields (next : State → Option (Bool × State)) (view : State → Output) (state : State) :
    List Output → Prop
  | [] => ∃ after, next state = some (false, after)
  | output :: outputs =>
    ∃ after, next state = some (true, after) ∧ view after = output ∧
      Yields next view after outputs

/-- Whether repeated calls end, and with good outputs only, is decided call by call. -/
theorem exists_yields_iff {good : Output → Prop} {state after : State} {success : Bool}
    (hnext : next state = some (success, after)) :
    (∃ outputs, Yields next view state outputs ∧ ∀ output ∈ outputs, good output) ↔
      (success = true → good (view after) ∧
        ∃ outputs, Yields next view after outputs ∧ ∀ output ∈ outputs, good output) := by
  constructor
  · rintro ⟨- | ⟨output, outputs⟩, hyields, hgood⟩ hsuccess
    · obtain ⟨end', hend⟩ := hyields
      rw [hnext, hsuccess] at hend
      cases hend
    · obtain ⟨after', hafter, hview, hrest⟩ := hyields
      rw [hnext] at hafter
      cases hafter
      obtain ⟨hfirst, hothers⟩ := List.forall_mem_cons.mp hgood
      exact ⟨hview ▸ hfirst, outputs, hrest, hothers⟩
  · intro h
    cases success with
    | false => exact ⟨[], ⟨after, hnext⟩, nofun⟩
    | true =>
      obtain ⟨hfirst, outputs, hyields, hgood⟩ := h rfl
      exact ⟨view after :: outputs, ⟨after, hnext, rfl, hyields⟩,
        List.forall_mem_cons.mpr ⟨hfirst, hgood⟩⟩

end yields

end Rodos.Library
