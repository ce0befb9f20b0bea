import Mathlib.Data.List.Basic
import Mathlib.Tactic.Common

/-! What the users of a queue of limited capacity see of it, value by value and block by block. -/
namespace Rodos.Library.BoundedQueue

inductive Event (α : Type) where
  | entered (values : List α)
  /-- A value found no room. -/
  | refused
  | left (values : List α)
  /-- There was no value to leave. -/
  | missed
  | cleared
  /-- So many values may be entered next. -/
  | room (count : Nat)
  /-- So many values may leave next. -/
  | available (count : Nat)

/-- The events that a queue admits, and the queue behind each. -/
inductive Step {α : Type} (capacity : Nat) : List α → Event α → List α → Prop where
  | entered {queue values : List α} (hroom : queue.length + values.length ≤ capacity) :
      Step capacity queue (.entered values) (queue ++ values)
  | refused {queue : List α} (hfull : queue.length = capacity) :
      Step capacity queue .refused queue
  | left {values queue : List α} : Step capacity (values ++ queue) (.left values) queue
  | missed : Step capacity [] .missed []
  | cleared {queue : List α} : Step capacity queue .cleared []
  | room {queue : List α} {count : Nat} (hroom : queue.length + count ≤ capacity)
      (hsome : queue.length < capacity → 0 < count) : Step capacity queue (.room count) queue
  | available {queue : List α} {count : Nat} (hleft : count ≤ queue.length)
      (hsome : 0 < queue.length → 0 < count) : Step capacity queue (.available count) queue

/-- The events so far and the queue behind them, which was empty at first. -/
inductive History {α : Type} (capacity : Nat) : List (Event α) → List α → Prop where
  | nil : History capacity [] []
  | snoc {events : List (Event α)} {event : Event α} {queue next : List α}
      (hbefore : History capacity events queue) (hstep : Step capacity queue event next) :
      History capacity (events ++ [event]) next

/-- All values that entered since the queue was last cleared, and those of them that left. -/
def ledger {α : Type} (events : List (Event α)) : List α × List α :=
  events.foldl (fun (incoming, outgoing) event =>
    match event with
    | .entered values => (incoming ++ values, outgoing)
    | .left values => (incoming, outgoing ++ values)
    | .cleared => ([], [])
    | .refused | .missed | .room _ | .available _ => (incoming, outgoing)) ([], [])

variable {α : Type} {capacity : Nat} {events : List (Event α)} {queue : List α}

/-- Nothing is lost, doubled or reordered: what left, followed by what is still queued, is what
entered. -/
theorem History.ledger_eq (h : History capacity events queue) :
    (ledger events).2 ++ queue = (ledger events).1 := by
  induction h with
  | nil => rfl
  | snoc _ hstep ih =>
    rw [ledger, List.foldl_append]
    rw [ledger] at ih
    cases hstep with
    | entered hroom => simp only [List.foldl_cons, List.foldl_nil, ← List.append_assoc, ih]
    | left => simpa only [List.foldl_cons, List.foldl_nil, List.append_assoc] using ih
    | cleared => rfl
    | refused | missed | room | available => exact ih

end Rodos.Library.BoundedQueue
