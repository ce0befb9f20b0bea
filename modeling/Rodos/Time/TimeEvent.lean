import Rodos.Library.Runs
import Rodos.Time.TimeModel
import Mathlib.Data.List.Forall2

/-! The list of time events, and that a call of `propagate` handles exactly those that are due. -/
namespace Rodos.Time
open Library

structure TimeEvent where
  /-- Stands for the address of the object. -/
  id : Nat
  eventAt : Int64 := END_OF_TIME
  eventPeriod : Int64 := 0

namespace TimeEvent

def activateAt (self : TimeEvent) (time : Int64) : TimeEvent :=
  { self with eventAt := time, eventPeriod := 0 }

def activatePeriodic (self : TimeEvent) (startAt period : Int64) : TimeEvent :=
  { self with eventPeriod := period, eventAt := startAt }

def IsDue (timeNow : Int64) (self : TimeEvent) : Prop := self.eventAt < timeNow

instance (timeNow : Int64) : DecidablePred (IsDue timeNow) :=
  fun _ => inferInstanceAs (Decidable (_ < _))

/-- The stores to an event that is due, up to the call of its handler. -/
def rearm (timeNow : Int64) (iter : TimeEvent) : TimeEvent :=
  let iterEventAt := iter.eventAt
  let iterEventPeriod := iter.eventPeriod
  if iterEventPeriod = 0 then { iter with eventAt := END_OF_TIME }
  else
    let iter := { iter with eventAt := iterEventAt + iterEventPeriod }
    if iterEventAt < timeNow then
      { iter with eventAt := computeNextBeat iterEventAt iterEventPeriod timeNow }
    else iter

/-- The loop of `propagate` so far. -/
structure Propagation where
  cnt : Nat := 0
  /-- The events behind the loop, as it leaves them. -/
  timeEventList : List TimeEvent := []
  /-- The events whose handlers have been called, in the order of the calls. -/
  handled : List Nat := []

/-- One turn of the loop of `propagate`. -/
def visit (timeNow : Int64) (done : Propagation) (iter : TimeEvent) : Propagation :=
  if iter.eventAt < timeNow then
    { cnt := done.cnt + 1
      timeEventList := done.timeEventList ++ [iter.rearm timeNow]
      handled := done.handled ++ [iter.id] }
  else { done with timeEventList := done.timeEventList ++ [iter] }

def propagate (timeNow : Int64) (timeEventList : List TimeEvent) : Propagation :=
  timeEventList.foldl (visit timeNow) {}

/-- What `propagate` makes of an event. -/
def visited (timeNow : Int64) (iter : TimeEvent) : TimeEvent :=
  if iter.eventAt < timeNow then iter.rearm timeNow else iter

theorem visited_of_due {timeNow : Int64} {iter : TimeEvent} (hdue : iter.IsDue timeNow) :
    iter.visited timeNow = iter.rearm timeNow := if_pos hdue

theorem visited_of_not_due {timeNow : Int64} {iter : TimeEvent} (hnot : ¬ iter.IsDue timeNow) :
    iter.visited timeNow = iter := if_neg hnot

theorem foldl_visit (timeNow : Int64) (events : List TimeEvent) (done : Propagation) :
    events.foldl (visit timeNow) done =
      { cnt := done.cnt + (events.filter (IsDue timeNow)).length
        timeEventList := done.timeEventList ++ events.map (visited timeNow)
        handled := done.handled ++ (events.filter (IsDue timeNow)).map id } := by
  induction events generalizing done with
  | nil => simp
  | cons event events ih =>
    rw [List.foldl_cons, ih]
    by_cases hdue : event.IsDue timeNow
    · have hvisit : visit timeNow done event =
          { cnt := done.cnt + 1
            timeEventList := done.timeEventList ++ [event.rearm timeNow]
            handled := done.handled ++ [event.id] } := if_pos hdue
      have hfilter : (event :: events).filter (IsDue timeNow) =
          event :: events.filter (IsDue timeNow) := List.filter_cons_of_pos (by simpa using hdue)
      rw [hvisit, hfilter, List.map_cons, List.map_cons, visited_of_due hdue, List.length_cons]
      simp only [List.append_assoc, List.cons_append, List.nil_append, Nat.add_assoc,
        Nat.add_comm 1]
    · have hvisit : visit timeNow done event =
          { done with timeEventList := done.timeEventList ++ [event] } := if_neg hdue
      have hfilter : (event :: events).filter (IsDue timeNow) =
          events.filter (IsDue timeNow) := List.filter_cons_of_neg (by simpa using hdue)
      rw [hvisit, hfilter, List.map_cons, visited_of_not_due hdue]
      simp only [List.append_assoc, List.cons_append, List.nil_append]

theorem propagate_eq (timeNow : Int64) (events : List TimeEvent) :
    propagate timeNow events =
      { cnt := (events.filter (IsDue timeNow)).length
        timeEventList := events.map (visited timeNow)
        handled := (events.filter (IsDue timeNow)).map id } := by
  rw [propagate, foldl_visit]
  simp only [Nat.zero_add, List.nil_append]

/-! ### What becomes of one event -/

/-- Activated for some time from 0 on, with no negative period. -/
def IsActivated (self : TimeEvent) : Prop := 0 ≤ self.eventAt.toInt ∧ 0 ≤ self.eventPeriod.toInt

instance : DecidablePred IsActivated := fun _ => inferInstanceAs (Decidable (_ ∧ _))

/-- The next beat of a periodic event that is due can be computed without an overflow. -/
def Fits (timeNow : Int64) (self : TimeEvent) : Prop :=
  self.IsDue timeNow → self.eventPeriod ≠ 0 → BeatFits self.eventAt self.eventPeriod timeNow

instance (timeNow : Int64) : DecidablePred (Fits timeNow) :=
  fun _ => inferInstanceAs (Decidable (_ → _))

/-- An event that is due gets the first of its beats that is later than now, or none at all when it
has no period; any other event is left alone. -/
structure IsRearmed (timeNow : Int64) (before after : TimeEvent) : Prop where
  id_eq : after.id = before.id
  eventPeriod_eq : after.eventPeriod = before.eventPeriod
  one_shot : before.IsDue timeNow → before.eventPeriod = 0 → after.eventAt = END_OF_TIME
  periodic : before.IsDue timeNow → before.eventPeriod ≠ 0 →
    IsLeast { point ∈ Grid.points before.eventAt.toInt before.eventPeriod.toInt |
      timeNow.toInt < point } after.eventAt.toInt
  not_due : ¬ before.IsDue timeNow → after = before

variable {timeNow : Int64} {self : TimeEvent}

theorem IsActivated.period_pos (h : self.IsActivated) (hperiod : self.eventPeriod ≠ 0) :
    0 < self.eventPeriod.toInt := by
  refine lt_of_le_of_ne h.2 fun hzero => hperiod ?_
  exact Int64.toInt_inj.mp hzero.symm

@[simp] theorem rearm_id : (self.rearm timeNow).id = self.id := by
  unfold rearm
  dsimp only
  split
  · rfl
  · split <;> rfl

@[simp] theorem rearm_eventPeriod : (self.rearm timeNow).eventPeriod = self.eventPeriod := by
  unfold rearm
  dsimp only
  split
  · rfl
  · split <;> rfl

theorem rearm_one_shot (hperiod : self.eventPeriod = 0) :
    (self.rearm timeNow).eventAt = END_OF_TIME := by
  simp only [rearm, if_pos hperiod]

theorem rearm_periodic (hactivated : self.IsActivated) (hfits : self.Fits timeNow)
    (hdue : self.IsDue timeNow) (hperiod : self.eventPeriod ≠ 0) :
    (self.rearm timeNow).eventAt.toInt =
      Grid.nextAfter self.eventAt.toInt self.eventPeriod.toInt timeNow.toInt := by
  have hbefore := Int64.lt_iff_toInt_lt.mp hdue
  have hstored : (self.rearm timeNow).eventAt =
      computeNextBeat self.eventAt self.eventPeriod timeNow := by
    unfold IsDue at hdue
    simp only [rearm, if_neg hperiod, if_pos hdue]
  rw [hstored]
  exact (hfits hdue hperiod).toInt_computeNextBeat hactivated.1
    (hactivated.period_pos hperiod) (Int.le_of_lt hbefore)

theorem visited_isRearmed (hactivated : self.IsActivated) (hfits : self.Fits timeNow) :
    IsRearmed timeNow self (self.visited timeNow) := by
  by_cases hdue : self.IsDue timeNow
  · rw [visited_of_due hdue]
    constructor
    case id_eq => exact rearm_id
    case eventPeriod_eq => exact rearm_eventPeriod
    case one_shot => exact fun _ hperiod => rearm_one_shot hperiod
    case periodic =>
      intro _ hperiod
      rw [rearm_periodic hactivated hfits hdue hperiod]
      exact Grid.isLeast_nextAfter (hactivated.period_pos hperiod)
        (Int.le_of_lt (Int64.lt_iff_toInt_lt.mp hdue))
    case not_due => exact fun hnot => absurd hdue hnot
  · rw [visited_of_not_due hdue]
    exact ⟨rfl, rfl, fun hnow => absurd hnow hdue, fun hnow => absurd hnow hdue, fun _ => rfl⟩

theorem IsRearmed.not_due_after {before after : TimeEvent} (h : IsRearmed timeNow before after) :
    ¬ after.IsDue timeNow := by
  intro hafter
  by_cases hdue : before.IsDue timeNow
  · by_cases hperiod : before.eventPeriod = 0
    · rw [IsDue, h.one_shot hdue hperiod, Int64.lt_iff_toInt_lt, toInt_END_OF_TIME] at hafter
      have hlimit := timeNow.toInt_lt
      omega
    · exact Int.lt_asymm (h.periodic hdue hperiod).1.2 (Int64.lt_iff_toInt_lt.mp hafter)
  · rw [h.not_due hdue] at hafter
    exact hdue hafter

theorem IsRearmed.isActivated {before after : TimeEvent} (h : IsRearmed timeNow before after)
    (hnow : 0 ≤ timeNow.toInt) (hactivated : before.IsActivated) : after.IsActivated := by
  by_cases hdue : before.IsDue timeNow
  · refine ⟨?_, by rw [h.eventPeriod_eq]; exact hactivated.2⟩
    by_cases hperiod : before.eventPeriod = 0
    · rw [h.one_shot hdue hperiod, toInt_END_OF_TIME]
      decide
    · exact Int.le_of_lt (Int.lt_of_le_of_lt hnow (h.periodic hdue hperiod).1.2)
  · rw [h.not_due hdue]
    exact hactivated

/-! ### What becomes of the list -/

/-- The call counts and handles the events that are due, in the order of the list and each once,
and leaves none behind. -/
structure HandlesDue (timeNow : Int64) (events : List TimeEvent) (result : Propagation) :
    Prop where
  cnt_eq : result.cnt = (events.filter (IsDue timeNow)).length
  handled_eq : result.handled = (events.filter (IsDue timeNow)).map id
  rearmed : List.Forall₂ (IsRearmed timeNow) events result.timeEventList
  none_due : ∀ event ∈ result.timeEventList, ¬ event.IsDue timeNow

theorem propagate_handlesDue {events : List TimeEvent}
    (hactivated : ∀ event ∈ events, event.IsActivated)
    (hfits : ∀ event ∈ events, event.Fits timeNow) :
    HandlesDue timeNow events (propagate timeNow events) := by
  rw [propagate_eq]
  have hrearmed : ∀ event ∈ events, IsRearmed timeNow event (event.visited timeNow) :=
    fun event hmem => visited_isRearmed (hactivated event hmem) (hfits event hmem)
  constructor
  case cnt_eq => rfl
  case handled_eq => rfl
  case rearmed =>
    rw [List.forall₂_map_right_iff, List.forall₂_same]
    exact hrearmed
  case none_due =>
    intro after hmem
    obtain ⟨before, hbefore, rfl⟩ := List.mem_map.mp hmem
    exact (hrearmed before hbefore).not_due_after

/-! ### Any number of calls -/

/-- A call of `propagate` as a step of the list. -/
def propagated (events : List TimeEvent) (timeNow : Int64) : Option (List TimeEvent) :=
  some (propagate timeNow events).timeEventList

def AllFit (events : List TimeEvent) (timeNow : Int64) : Prop :=
  0 ≤ timeNow.toInt ∧ ∀ event ∈ events, event.Fits timeNow

instance (events : List TimeEvent) (timeNow : Int64) : Decidable (AllFit events timeNow) :=
  inferInstanceAs (Decidable (_ ∧ _))

/-- The same event, which, if it is periodic, is still activated for one of its beats. -/
structure KeepsGrid (start event : TimeEvent) : Prop where
  id_eq : event.id = start.id
  eventPeriod_eq : event.eventPeriod = start.eventPeriod
  on_grid : start.eventPeriod ≠ 0 →
    event.eventAt.toInt ∈ Grid.points start.eventAt.toInt start.eventPeriod.toInt

theorem KeepsGrid.refl (start : TimeEvent) : KeepsGrid start start :=
  ⟨rfl, rfl, fun _ => Grid.origin_mem⟩

theorem KeepsGrid.rearmed {start before after : TimeEvent} (h : KeepsGrid start before)
    (hrearmed : IsRearmed timeNow before after) : KeepsGrid start after := by
  by_cases hdue : before.IsDue timeNow
  · refine ⟨hrearmed.id_eq.trans h.id_eq, hrearmed.eventPeriod_eq.trans h.eventPeriod_eq, ?_⟩
    intro hperiod
    have hnext := (hrearmed.periodic hdue (h.eventPeriod_eq ▸ hperiod)).1.1
    rw [h.eventPeriod_eq] at hnext
    exact Grid.points_of_mem (h.on_grid hperiod) hnext
  · rw [hrearmed.not_due hdue]
    exact h

theorem forall₂_keepsGrid {starts events later : List TimeEvent}
    (hgrid : List.Forall₂ KeepsGrid starts events)
    (hrearmed : List.Forall₂ (IsRearmed timeNow) events later) :
    List.Forall₂ KeepsGrid starts later := by
  induction hgrid generalizing later with
  | nil =>
    cases hrearmed
    exact .nil
  | cons hfirst _ ih =>
    cases hrearmed with
    | cons hevent hevents => exact .cons (hfirst.rearmed hevent) (ih hevents)

theorem HandlesDue.isActivated {events : List TimeEvent} {result : Propagation}
    (h : HandlesDue timeNow events result) (hnow : 0 ≤ timeNow.toInt)
    (hactivated : ∀ event ∈ events, event.IsActivated) :
    ∀ event ∈ result.timeEventList, event.IsActivated := by
  intro after hmem
  obtain ⟨n, hlt, rfl⟩ := List.getElem_of_mem hmem
  have hbefore : n < events.length := h.rearmed.length_eq ▸ hlt
  exact (h.rearmed.get hbefore hlt).isActivated hnow (hactivated _ (List.getElem_mem hbefore))

/-- What the calls keep of the events they started with. -/
structure KeepsGrids (starts events : List TimeEvent) : Prop where
  on_grid : List.Forall₂ KeepsGrid starts events
  activated : ∀ event ∈ events, event.IsActivated

theorem KeepsGrids.propagated {starts events next : List TimeEvent}
    (h : KeepsGrids starts events) (hallowed : AllFit events timeNow)
    (hstep : propagated events timeNow = some next) : KeepsGrids starts next := by
  cases hstep
  have hhandles := propagate_handlesDue h.activated hallowed.2
  exact ⟨forall₂_keepsGrid h.on_grid hhandles.rearmed,
    hhandles.isActivated hallowed.1 h.activated⟩

/-- A call handles exactly what is due, and over any number of calls every periodic event stays
on its grid. -/
theorem propagate_correct (events : List TimeEvent)
    (hactivated : ∀ event ∈ events, event.IsActivated) :
    (∀ timeNow, AllFit events timeNow →
      HandlesDue timeNow events (propagate timeNow events)) ∧
    ∀ calls final, Along propagated AllFit events calls →
      run propagated events calls = some final → List.Forall₂ KeepsGrid events final := by
  refine ⟨fun timeNow hallowed => propagate_handlesDue hactivated hallowed.2, ?_⟩
  intro calls final halong hrun
  have hstarts : KeepsGrids events events :=
    ⟨List.forall₂_same.mpr fun event _ => KeepsGrid.refl event, hactivated⟩
  have hfinal : KeepsGrids events final :=
    run_invariant_along (fun _ _ _ => KeepsGrids.propagated) hstarts halong hrun
  exact hfinal.on_grid

/-- A periodic event that is several periods late, and one for a single time. -/
def lateAndSingle : List TimeEvent :=
  [activatePeriodic { id := 1 } 5 10, activateAt { id := 2 } 7]

theorem propagate_correct_lateAndSingle :
    HandlesDue 38 lateAndSingle (propagate 38 lateAndSingle) ∧
      ∃ final, run propagated lateAndSingle [38, 40, 71] = some final ∧
        List.Forall₂ KeepsGrid lateAndSingle final := by
  have h := propagate_correct lateAndSingle (by decide)
  exact ⟨h.1 38 (by decide), _, rfl, h.2 [38, 40, 71] _ (by decide) rfl⟩

end TimeEvent

end Rodos.Time
