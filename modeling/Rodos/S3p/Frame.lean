import Rodos.S3p.Code

/-! What the framing is for, without bytes: a line carries data bytes, frame
marks and commands, and a receiver of bounded capacity cuts messages out of it. -/
namespace Rodos.S3p

inductive Token where
  | data (value : UInt8)
  | bom
  | eom
  | command (code : UInt16)
  deriving DecidableEq, Repr

inductive Event where
  | message (bytes : List UInt8)
  | command (code : UInt16)
  deriving DecidableEq, Repr

namespace Frame

/-- The bytes kept so far of the message inside the open frame, if one is open. -/
abbrev Content := Option (List UInt8)

/-- One token. Bytes beyond the capacity are dropped, as is data outside a frame. -/
def step (capacity : Nat) (content : Content) : Token → Content × List Event
  | .data value => (content.map fun bytes => (bytes ++ [value]).take capacity, [])
  | .bom => (some [], [])
  | .eom =>
    match content with
    | some bytes => (none, [.message bytes])
    | none => (none, [])
  | .command code => (content, [.command code])

def run (capacity : Nat) (content : Content) : List Token → List Event
  | [] => []
  | token :: tokens =>
    (step capacity content token).2 ++ run capacity (step capacity content token).1 tokens

/-- Cutting early does not change what is cut later. -/
theorem take_append_take (capacity : Nat) (bytes later : List UInt8) :
    (bytes.take capacity ++ later).take capacity = (bytes ++ later).take capacity := by
  have hroom : capacity - min capacity bytes.length = capacity - bytes.length := by omega
  rw [List.take_append, List.take_append, List.take_take, Nat.min_self, List.length_take, hroom]

theorem run_data (capacity : Nat) (bytes : List UInt8) (payload : List UInt8)
    (tokens : List Token) (hbytes : bytes.length ≤ capacity) :
    run capacity (some bytes) (payload.map .data ++ tokens) =
      run capacity (some ((bytes ++ payload).take capacity)) tokens := by
  induction payload generalizing bytes with
  | nil => simp [List.take_of_length_le hbytes]
  | cons value payload ih =>
    have hshort : ((bytes ++ [value]).take capacity).length ≤ capacity := by
      simp
    simp only [List.map_cons, List.cons_append, run, step, Option.map_some, List.nil_append]
    rw [ih _ hshort, take_append_take, List.append_assoc]
    rfl

/-- What is open behind the tokens. -/
def after (capacity : Nat) (content : Content) : List Token → Content
  | [] => content
  | token :: tokens => after capacity (step capacity content token).1 tokens

theorem run_append (capacity : Nat) (content : Content) (tokens later : List Token) :
    run capacity content (tokens ++ later) =
      run capacity content tokens ++ run capacity (after capacity content tokens) later := by
  induction tokens generalizing content with
  | nil => rfl
  | cons token tokens ih => rw [List.cons_append, run, run, after, ih, List.append_assoc]

/-- A whole frame delivers the payload cut to the capacity. -/
theorem run_frame (capacity : Nat) (content : Content) (payload : List UInt8)
    (tokens : List Token) :
    run capacity content (.bom :: payload.map .data ++ .eom :: tokens) =
      .message (payload.take capacity) :: run capacity none tokens := by
  rw [List.cons_append, run]
  simp only [step, List.nil_append]
  rw [run_data capacity [] payload _ (Nat.zero_le _)]
  rfl

end Frame

end Rodos.S3p
