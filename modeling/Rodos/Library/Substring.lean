import Mathlib.Data.List.Infix
import Mathlib.Order.Bounds.Basic

/-! Where a list occurs in another one, and the first place where it does. -/
namespace Rodos.Library

variable {α : Type}

def OccursAt (needle text : List α) (position : Nat) : Prop := needle <+: text.drop position

instance [DecidableEq α] (needle text : List α) (position : Nat) :
    Decidable (OccursAt needle text position) :=
  inferInstanceAs (Decidable (needle <+: text.drop position))

/-- What a search is to return: the first position, or nothing if there is none. -/
def Finds (needle text : List α) : Option Nat → Prop
  | none => ∀ position, ¬ OccursAt needle text position
  | some position => IsLeast {position | OccursAt needle text position} position

section

variable {needle text : List α} {found : Option Nat}

theorem occursAt_zero : OccursAt needle text 0 ↔ needle <+: text := Iff.rfl

theorem occursAt_succ (letter : α) (position : Nat) :
    OccursAt needle (letter :: text) (position + 1) ↔ OccursAt needle text position := Iff.rfl

theorem Finds.here (hstarts : needle <+: text) : Finds needle text (some 0) :=
  ⟨hstarts, fun position _ => Nat.zero_le position⟩

theorem finds_nil (hneedle : needle ≠ []) : Finds needle [] none := by
  intro position hoccurs
  rw [OccursAt, List.drop_nil] at hoccurs
  exact hneedle (List.prefix_nil.mp hoccurs)

/-- A place where the needle does not occur is skipped. -/
theorem Finds.skip (hfinds : Finds needle text found) {letter : α}
    (hnot : ¬ needle <+: letter :: text) :
    Finds needle (letter :: text) (found.map (· + 1)) := by
  cases found with
  | none =>
    intro position hoccurs
    cases position with
    | zero => exact hnot (occursAt_zero.mp hoccurs)
    | succ position => exact hfinds position ((occursAt_succ letter position).mp hoccurs)
  | some first =>
    refine ⟨(occursAt_succ letter first).mpr hfinds.1, fun position hoccurs => ?_⟩
    cases position with
    | zero => exact absurd (occursAt_zero.mp hoccurs) hnot
    | succ position =>
      exact Nat.succ_le_succ (hfinds.2 ((occursAt_succ letter position).mp hoccurs))

/-- Letters other than the first one of the needle are skipped. -/
theorem Finds.skip_all {first : α} (hfinds : Finds (first :: needle) text found) {before : List α}
    (hbefore : first ∉ before) :
    Finds (first :: needle) (before ++ text) (found.map (· + before.length)) := by
  induction before with
  | nil =>
    rw [show found.map (· + ([] : List α).length) = found from Option.map_id']
    exact hfinds
  | cons letter before ih =>
    have hother : ¬ first :: needle <+: letter :: (before ++ text) := by
      intro hstarts
      rw [List.cons_prefix_cons] at hstarts
      exact hbefore (hstarts.1 ▸ List.mem_cons_self)
    have hrest := (ih (mt (List.mem_cons_of_mem letter) hbefore)).skip hother
    rw [Option.map_map] at hrest
    exact hrest

end

end Rodos.Library
