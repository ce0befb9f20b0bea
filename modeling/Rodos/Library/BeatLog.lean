import Rodos.Library.Grid

/-! Which beats a periodic task serves. A beat is served at some time from it on, and the next beat
is the first one behind that time. -/
namespace Rodos.Library

/-- The beats that were served, each with the time, the last one first, and the beat that is
next. -/
inductive BeatLog (origin period : Int) : List (Int × Int) → Int → Prop
  | start : BeatLog origin period [] origin
  | serve {served : List (Int × Int)} {beat now : Int} (before : BeatLog origin period served beat)
      (due : beat ≤ now) :
      BeatLog origin period ((beat, now) :: served) (Grid.nextAfter beat period now)

/-- No beat is served too early or twice, and none is left out but those that pass by while an
earlier one is served. -/
structure OnTime (origin period : Int) (served : List (Int × Int)) (next : Int) : Prop where
  next_mem : next ∈ Grid.points origin period
  beat_mem : ∀ entry ∈ served, entry.1 ∈ Grid.points origin period
  due : ∀ entry ∈ served, entry.1 ≤ entry.2 ∧ entry.2 < next
  in_order : served.Pairwise fun later earlier => earlier.2 < later.1
  none_lost : ∀ point ∈ Grid.points origin period, point < next →
    ∃ entry ∈ served, entry.1 ≤ point ∧ point ≤ entry.2

variable {origin period next : Int} {served : List (Int × Int)}

theorem origin_le_of_mem (hperiod : 0 < period) {point : Int}
    (hpoint : point ∈ Grid.points origin period) : origin ≤ point := by
  obtain ⟨k, rfl⟩ := hpoint
  have hproduct : 0 ≤ (k : Int) * period := Int.mul_nonneg (by omega) (by omega)
  omega

theorem mem_points_of_le (hperiod : 0 < period) {first point : Int}
    (hfirst : first ∈ Grid.points origin period) (hpoint : point ∈ Grid.points origin period)
    (hle : first ≤ point) : point ∈ Grid.points first period := by
  obtain ⟨k, rfl⟩ := hfirst
  obtain ⟨l, rfl⟩ := hpoint
  have hcount : k ≤ l := by
    by_contra hless
    have hproduct : (l : Int) * period < k * period :=
      Int.mul_lt_mul_of_pos_right (by omega) hperiod
    omega
  refine ⟨l - k, ?_⟩
  rw [Nat.cast_sub hcount]
  ring

theorem BeatLog.onTime (hperiod : 0 < period) (h : BeatLog origin period served next) :
    OnTime origin period served next := by
  induction h with
  | start =>
    exact {
      next_mem := Grid.origin_mem
      beat_mem := by simp
      due := by simp
      in_order := List.Pairwise.nil
      none_lost := fun point hpoint hbefore => by
        have hle := origin_le_of_mem hperiod hpoint
        omega }
  | @serve served beat now before due ih =>
    have hlater : now < Grid.nextAfter beat period now := Grid.lt_nextAfter hperiod
    exact {
      next_mem := Grid.points_of_mem ih.next_mem (Grid.nextAfter_mem hperiod due)
      beat_mem := fun entry hentry => by
        rcases List.mem_cons.mp hentry with rfl | hentry
        · exact ih.next_mem
        · exact ih.beat_mem entry hentry
      due := fun entry hentry => by
        rcases List.mem_cons.mp hentry with rfl | hentry
        · exact ⟨due, hlater⟩
        · have hdue := ih.due entry hentry
          exact ⟨hdue.1, by omega⟩
      in_order := List.Pairwise.cons (fun entry hentry => (ih.due entry hentry).2) ih.in_order
      none_lost := fun point hpoint hbefore => by
        by_cases hearlier : point < beat
        · obtain ⟨entry, hentry, hcovers⟩ := ih.none_lost point hpoint hearlier
          exact ⟨entry, List.mem_cons_of_mem _ hentry, hcovers⟩
        · refine ⟨(beat, now), List.mem_cons_self, by omega, ?_⟩
          show point ≤ now
          by_contra hbehind
          have hgrid := mem_points_of_le hperiod ih.next_mem hpoint (Int.not_lt.mp hearlier)
          have hle := Grid.nextAfter_le hperiod hgrid (Int.not_le.mp hbehind)
          omega }

end Rodos.Library
