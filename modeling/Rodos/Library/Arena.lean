import Mathlib.Data.List.Basic
import Mathlib.Tactic.Common

/-! Blocks of memory that are cut off one after another from the front of a region. -/
namespace Rodos.Library

structure Block where
  start : Nat
  len : Nat
deriving DecidableEq

namespace Block

def stop (block : Block) : Nat := block.start + block.len

/-- No byte is in both. -/
def Apart (first second : Block) : Prop := first.stop ≤ second.start ∨ second.stop ≤ first.start

instance (first second : Block) : Decidable (first.Apart second) :=
  inferInstanceAs (Decidable (_ ∨ _))

/-- The block lies between two addresses. -/
def Within (low high : Nat) (block : Block) : Prop := low ≤ block.start ∧ block.stop ≤ high

instance (low high : Nat) (block : Block) : Decidable (block.Within low high) :=
  inferInstanceAs (Decidable (_ ∧ _))

end Block

/-- Blocks of a region that do not share a byte. -/
def Separate (low high : Nat) (blocks : List Block) : Prop :=
  (∀ block ∈ blocks, block.Within low high) ∧ blocks.Pairwise Block.Apart

instance (low high : Nat) (blocks : List Block) : Decidable (Separate low high blocks) :=
  inferInstanceAs (Decidable (_ ∧ _))

variable {low high position : Nat} {block : Block} {later : List Block}

theorem separate_nil : Separate low high [] := ⟨nofun, .nil⟩

/-- A block in front of a position and blocks behind it. -/
theorem separate_cons_iff (hlow : low ≤ block.start) (hstop : block.stop ≤ position)
    (hposition : position ≤ high) (hlater : ∀ other ∈ later, position ≤ other.start) :
    Separate low high (block :: later) ↔ Separate low high later := by
  have hwithin : block.Within low high := ⟨hlow, by omega⟩
  have hapart : ∀ other ∈ later, block.Apart other := by
    intro other hother
    have hbehind := hlater other hother
    exact .inl (by omega)
  unfold Separate
  rw [List.forall_mem_cons, List.pairwise_cons, and_iff_right hwithin, and_iff_right hapart]

theorem not_separate_cons (hlong : high < block.stop) : ¬ Separate low high (block :: later) := by
  intro hseparate
  have hstop := (hseparate.1 block List.mem_cons_self).2
  omega

end Rodos.Library
