import Rodos.Time.TimeEvent

/-! `activateAt` stores the time and the period of an event one after the other, and the interrupt
that runs `propagate` may come before, between and behind the two stores. -/
namespace Rodos.Time
open Library

/-- The store of `activateAt` that comes next. -/
inductive ActivateAt where
  | storeEventAt
  | storeEventPeriod
  | returned
deriving DecidableEq

/-- An event during an activation for `time`. The last field is not in the program: how many times
the handler has been called since the event is due at `time`. -/
structure Activation where
  event : TimeEvent
  time : Int64
  next : ActivateAt := .storeEventAt
  handled : Nat := 0

/-- The next store, or a call of `propagate`. -/
inductive ActivationStep where
  | store
  | propagate (timeNow : Int64)

namespace Activation

def step (activation : Activation) : ActivationStep → Option Activation
  | .store =>
    match activation.next with
    | .storeEventAt =>
      some { activation with
        event := { activation.event with eventAt := activation.time }
        next := .storeEventPeriod }
    | .storeEventPeriod =>
      some { activation with
        event := { activation.event with eventPeriod := 0 }
        next := .returned }
    | .returned => none
  | .propagate timeNow =>
    some { activation with
      event := activation.event.visited timeNow
      handled :=
        if activation.next ≠ .storeEventAt ∧ activation.event.IsDue timeNow then
          activation.handled + 1
        else activation.handled }

/-- Without an interrupt the two stores are the whole `activateAt`. -/
theorem stores_eq_activateAt (event : TimeEvent) (time : Int64) :
    (run step { event := event, time := time } [.store, .store]).map Activation.event =
      some (event.activateAt time) := rfl

/-- `propagate` treats the events of its list one by one, this one as a step does. -/
theorem propagate_singles (timeNow : Int64) (front back : List TimeEvent) (event : TimeEvent) :
    (TimeEvent.propagate timeNow (front ++ event :: back)).timeEventList =
        front.map (TimeEvent.visited timeNow) ++ event.visited timeNow ::
          back.map (TimeEvent.visited timeNow) ∧
      (TimeEvent.propagate timeNow (front ++ event :: back)).handled =
        (front.filter (TimeEvent.IsDue timeNow)).map TimeEvent.id ++
          ((if event.IsDue timeNow then [event.id] else []) ++
            (back.filter (TimeEvent.IsDue timeNow)).map TimeEvent.id) := by
  rw [TimeEvent.propagate_eq, List.map_append, List.map_cons, List.filter_append, List.map_append]
  by_cases hdue : event.IsDue timeNow <;> simp [hdue]

/-- The handler has been called at most once with the event due at `time`, and afterwards the event
is not armed any more. -/
def HandledOnce (activation : Activation) : Prop :=
  activation.handled ≤ 1 ∧ (activation.handled = 1 → activation.event.eventAt = END_OF_TIME)

/-- Between the two stores the event is not due with the period that it had before. -/
def NotSplit (activation : Activation) : ActivationStep → Prop
  | .store => True
  | .propagate timeNow =>
    activation.next = .storeEventPeriod → activation.event.IsDue timeNow →
      activation.event.eventPeriod = 0

/-- What the stores done so far have left. -/
structure Stored (activation : Activation) : Prop where
  unhandled : activation.next = .storeEventAt → activation.handled = 0
  one_shot : activation.next = .returned → activation.event.eventPeriod = 0
  once : activation.HandledOnce

theorem not_due_endOfTime {event : TimeEvent} (hend : event.eventAt = END_OF_TIME)
    (timeNow : Int64) : ¬ event.IsDue timeNow := by
  intro hdue
  have hlt := Int64.lt_iff_toInt_lt.mp hdue
  have hle : timeNow.toInt ≤ 2 ^ 63 - 1 := timeNow.toInt_le
  rw [hend, toInt_END_OF_TIME] at hlt
  omega

@[simp] theorem visited_eventPeriod (event : TimeEvent) (timeNow : Int64) :
    (event.visited timeNow).eventPeriod = event.eventPeriod := by
  unfold TimeEvent.visited
  split
  · exact TimeEvent.rearm_eventPeriod
  · rfl

/-- A handler call behind the first store is the first one, and it leaves the event unarmed. -/
theorem Stored.handled {activation : Activation} {timeNow : Int64} (h : activation.Stored)
    (hsplit : activation.NotSplit (.propagate timeNow)) (hlate : activation.next ≠ .storeEventAt)
    (hdue : activation.event.IsDue timeNow) :
    activation.handled = 0 ∧ (activation.event.visited timeNow).eventAt = END_OF_TIME := by
  have hperiod : activation.event.eventPeriod = 0 := by
    cases hnext : activation.next with
    | storeEventAt => exact absurd hnext hlate
    | storeEventPeriod => exact hsplit hnext hdue
    | returned => exact h.one_shot hnext
  have hunhandled : activation.handled = 0 := by
    by_contra hhandled
    have hle := h.once.1
    exact not_due_endOfTime (h.once.2 (by omega)) timeNow hdue
  refine ⟨hunhandled, ?_⟩
  rw [TimeEvent.visited_of_due hdue, TimeEvent.rearm_one_shot hperiod]

theorem Stored.step {activation next : Activation} {label : ActivationStep}
    (h : activation.Stored) (hsplit : activation.NotSplit label)
    (hstep : activation.step label = some next) : next.Stored := by
  cases label with
  | store =>
    rw [Activation.step] at hstep
    split at hstep
    · next hnext =>
      cases hstep
      have hzero := h.unhandled hnext
      exact ⟨nofun, nofun, h.once.1, fun hone => absurd (hzero.symm.trans hone) nofun⟩
    · cases hstep
      exact ⟨nofun, fun _ => rfl, h.once⟩
    · cases hstep
  | propagate timeNow =>
    cases hstep
    refine ⟨fun hnext => ?_, fun hnext => (visited_eventPeriod _ _).trans (h.one_shot hnext), ?_⟩
    · dsimp only at hnext ⊢
      rw [if_neg (fun hcalled => hcalled.1 hnext)]
      exact h.unhandled hnext
    · by_cases hcalled : activation.next ≠ .storeEventAt ∧ activation.event.IsDue timeNow
      · obtain ⟨hunhandled, hunarmed⟩ := h.handled hsplit hcalled.1 hcalled.2
        unfold HandledOnce
        rw [if_pos hcalled, hunhandled]
        exact ⟨le_rfl, fun _ => hunarmed⟩
      · unfold HandledOnce
        rw [if_neg hcalled]
        refine ⟨h.once.1, fun hhandled => ?_⟩
        have hunarmed := h.once.2 hhandled
        have hidle := TimeEvent.visited_of_not_due (not_due_endOfTime hunarmed timeNow)
        exact (congrArg TimeEvent.eventAt hidle).trans hunarmed

/-- The event is handled at most once, and is not armed again, while `propagate` does not find it
due with its old period between the two stores. -/
theorem handled_once (event : TimeEvent) (time : Int64) {labels : List ActivationStep}
    (hsplit : Along step NotSplit { event := event, time := time } labels) :
    Always step HandledOnce { event := event, time := time } labels := by
  have hstart : Stored { event := event, time := time } :=
    ⟨fun _ => rfl, nofun, Nat.zero_le 1, nofun⟩
  have hkeeps (activation : Activation) (label : ActivationStep) (next : Activation)
      (h : activation.Stored) (hsplit : activation.NotSplit label)
      (hstep : activation.step label = some next) : next.Stored := h.step hsplit hstep
  exact always_of_invariant_along hkeeps (fun _ h => h.once) hstart hsplit

theorem handled_once_later :
    Always step HandledOnce { event := { id := 0, eventAt := 50, eventPeriod := 100 }, time := 10 }
      [.store, .store, .propagate 20, .propagate 120] :=
  handled_once { id := 0, eventAt := 50, eventPeriod := 100 } 10 (by simp [Along, step, NotSplit])

/-- The interrupt finds the new time with the old period: it handles the event and arms it again,
for 110, when it is handled once more. -/
theorem handled_twice_between_stores :
    ∃ final, run step
        { event := { id := 0, eventAt := 50, eventPeriod := 100 }, time := 10 }
        [.store, .propagate 20, .store, .propagate 120] = some final ∧
      final.handled = 2 ∧ ¬ final.HandledOnce := by
  have hvalue : (run step
      { event := { id := 0, eventAt := 50, eventPeriod := 100 }, time := 10 }
      [.store, .propagate 20, .store, .propagate 120]).map handled = some 2 := by decide
  obtain ⟨final, hrun, hfinal⟩ := Option.map_eq_some_iff.mp hvalue
  refine ⟨final, hrun, hfinal, fun honce => ?_⟩
  have hle := honce.1
  rw [hfinal] at hle
  cases hle
  contradiction

end Activation

end Rodos.Time
