import Mathlib.Order.Bounds.Basic
import Mathlib.Tactic.Ring
import Mathlib.Tactic.Linarith

/-! Evenly spaced points from an origin on, and the first of them behind a given one. -/
namespace Rodos.Library.Grid

/-- The points `origin`, `origin + period` and so on. -/
def points (origin period : Int) : Set Int := { point | ∃ k : Nat, point = origin + k * period }

def nextAfter (origin period now : Int) : Int := ((now - origin) / period + 1) * period + origin

variable {origin period now point : Int}

theorem origin_mem : origin ∈ points origin period := ⟨0, by simp⟩

theorem points_of_mem (hpoint : point ∈ points origin period) :
    points point period ⊆ points origin period := by
  obtain ⟨first, rfl⟩ := hpoint
  rintro _ ⟨k, rfl⟩
  refine ⟨first + k, ?_⟩
  push_cast
  ring

theorem nextAfter_mem (hperiod : 0 < period) (hnow : origin ≤ now) :
    nextAfter origin period now ∈ points origin period := by
  have hcount : 0 ≤ (now - origin) / period := Int.ediv_nonneg (by omega) (by omega)
  refine ⟨((now - origin) / period + 1).toNat, ?_⟩
  rw [Int.toNat_of_nonneg (by omega), nextAfter, Int.add_comm]

theorem lt_nextAfter (hperiod : 0 < period) : now < nextAfter origin period now := by
  have hrest := Int.lt_ediv_add_one_mul_self (now - origin) hperiod
  unfold nextAfter
  omega

theorem nextAfter_le (hperiod : 0 < period) (hpoint : point ∈ points origin period)
    (hlater : now < point) : nextAfter origin period now ≤ point := by
  obtain ⟨k, rfl⟩ := hpoint
  have hcount : (now - origin) / period < k := Int.ediv_lt_of_lt_mul hperiod (by omega)
  have hmul : ((now - origin) / period + 1) * period ≤ k * period :=
    Int.mul_le_mul_of_nonneg_right (by omega) (by omega)
  unfold nextAfter
  omega

theorem isLeast_nextAfter (hperiod : 0 < period) (hnow : origin ≤ now) :
    IsLeast { point ∈ points origin period | now < point } (nextAfter origin period now) :=
  ⟨⟨nextAfter_mem hperiod hnow, lt_nextAfter hperiod⟩,
    fun _ hpoint => nextAfter_le hperiod hpoint.1 hpoint.2⟩

theorem add_period_le_nextAfter (hperiod : 0 < period) (hnow : origin ≤ now) :
    origin + period ≤ nextAfter origin period now := by
  have hcount : 0 ≤ (now - origin) / period := Int.ediv_nonneg (by omega) (by omega)
  have hmul : 1 * period ≤ ((now - origin) / period + 1) * period :=
    Int.mul_le_mul_of_nonneg_right (by omega) (by omega)
  unfold nextAfter
  omega

theorem nextAfter_le_add (hperiod : 0 < period) :
    nextAfter origin period now ≤ now + period := by
  have hrest := Int.ediv_mul_le (now - origin) (show period ≠ 0 by omega)
  rw [nextAfter, Int.add_mul]
  omega

/-- The last point up to a limit. -/
def lastUpTo (origin period limit : Int) : Int := limit - (limit - origin) % period

theorem lastUpTo_eq (origin period limit : Int) :
    lastUpTo origin period limit = origin + (limit - origin) / period * period := by
  have hdivision := Int.ediv_mul_add_emod (limit - origin) period
  unfold lastUpTo
  omega

theorem lastUpTo_le {limit : Int} (hperiod : 0 < period) :
    lastUpTo origin period limit ≤ limit := by
  have hrest := Int.emod_nonneg (limit - origin) (show period ≠ 0 by omega)
  unfold lastUpTo
  omega

theorem le_lastUpTo {limit : Int} (hperiod : 0 < period) (hpoint : point ∈ points origin period)
    (hle : point ≤ limit) : point ≤ lastUpTo origin period limit := by
  obtain ⟨k, rfl⟩ := hpoint
  have hcount : (k : Int) ≤ (limit - origin) / period :=
    (Int.le_ediv_iff_mul_le hperiod).mpr (by omega)
  have hmul : k * period ≤ (limit - origin) / period * period :=
    Int.mul_le_mul_of_nonneg_right hcount (by omega)
  rw [lastUpTo_eq]
  omega

theorem nextAfter_le_iff {limit : Int} (hperiod : 0 < period) (hnow : origin ≤ now) :
    nextAfter origin period now ≤ limit ↔ now < lastUpTo origin period limit := by
  constructor
  · intro hle
    calc now < nextAfter origin period now := lt_nextAfter hperiod
      _ ≤ lastUpTo origin period limit := le_lastUpTo hperiod (nextAfter_mem hperiod hnow) hle
  · intro hbefore
    have hmem : lastUpTo origin period limit ∈ points origin period := by
      have hpositive : 0 < (limit - origin) / period := by
        rw [lastUpTo_eq] at hbefore
        exact pos_of_mul_pos_left (show 0 < (limit - origin) / period * period by omega) (by omega)
      refine ⟨((limit - origin) / period).toNat, ?_⟩
      rw [Int.toNat_of_nonneg (by omega), lastUpTo_eq]
    exact (nextAfter_le hperiod hmem hbefore).trans (lastUpTo_le hperiod)

end Rodos.Library.Grid
