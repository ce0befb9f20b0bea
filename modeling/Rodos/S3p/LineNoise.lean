import Rodos.S3p.RoundTrip
import Mathlib.Algebra.Ring.Parity

/-! Lines on which not every byte comes from a sender: when the two receivers agree, and when a
frame is received behind noise. -/
namespace Rodos.S3p
open Library

/-- The marks at the end of a line that no other byte follows. -/
def trailingMarks (line : List UInt8) : Nat :=
  (line.reverse.takeWhile fun c => c = markByte).length

theorem trailingMarks_mark (line : List UInt8) :
    trailingMarks (line ++ [markByte]) = trailingMarks line + 1 := by
  simp [trailingMarks]

theorem trailingMarks_plain (line : List UInt8) {c : UInt8} (hc : c ≠ markByte) :
    trailingMarks (line ++ [c]) = 0 := by
  simp [trailingMarks, hc]

/-- Each second one of the marks at the end completes a code. -/
theorem nestedRead_pending (line : List UInt8) :
    (nestedRead.scan false line).1 = true ↔ ¬ Even (trailingMarks line) := by
  induction line using List.reverseRecOn with
  | nil => simp [trailingMarks]
  | append_singleton line c ih =>
    rw [Scanner.scan_append]
    show (nestedRead.next (nestedRead.scan false line).1 c).1 = true ↔ _
    by_cases hc : c = markByte
    · subst hc
      rw [trailingMarks_mark, Nat.even_add_one, ← ih]
      cases (nestedRead.scan false line).1 <;> simp [nestedRead]
    · rw [trailingMarks_plain line hc]
      cases (nestedRead.scan false line).1 <;> simp [nestedRead, hc]

/-- The upcalls at the frame are the message and nothing else, whatever came before. -/
def Delivers (receive : List UInt8 → List Event) (noise frame bytes : List UInt8) : Prop :=
  receive (noise ++ frame) = receive noise ++ [.message bytes]

/-- The tokens of a frame deliver its message, whatever is open before. -/
theorem frame_run_sendMsg {capacity len : Nat} (hfits : len ≤ capacity) (content : Frame.Content)
    (s : Memory UInt8) :
    Frame.run capacity content (SenderCall.tokens (.sendMsg len s)) = [.message (s.front len)] := by
  have hwhole : (s.front len).take capacity = s.front len :=
    List.take_of_length_le (by rw [Memory.length_front]; exact hfits)
  have hframe := Frame.run_frame capacity content (s.front len) []
  rw [hwhole] at hframe
  exact hframe

/-- A scanner without a pending mark finds the tokens of the frame. -/
theorem Scanner.run_sendMsg (self : Scanner) {capacity len : Nat} (hfits : len ≤ capacity)
    (content : Frame.Content) (s : Memory UInt8) :
    Frame.run capacity content (self.scan false (Sender.sendMsg len s)).2 =
      [.message (s.front len)] := by
  have hencoded := self.scan_encoded (SenderCall.tokens (.sendMsg len s))
    (SenderCall.tokens_admissible trivial) []
  rw [List.append_nil, ← SenderCall.emitted_eq_tokens] at hencoded
  show Frame.run capacity content (self.scan false (SenderCall.emitted (.sendMsg len s))).2 = _
  rw [hencoded]
  exact (congrArg _ (List.append_nil _)).trans (frame_run_sendMsg hfits content s)

theorem sendMsg_cons (len : Int) (s : Memory UInt8) :
    ∃ frame, Sender.sendMsg len s = markByte :: frame := ⟨_, rfl⟩

/-- Behind noise the asynchronous receiver always delivers a frame, the synchronous one exactly
when the noise ends with an even number of marks: after an odd one it takes the first byte of the
frame for the second byte of a code. -/
theorem delivers_behind_noise_iff (maxLen : Int) (noise : List UInt8) (len : Nat)
    (s : Memory UInt8) (hfits : len ≤ maxLen) (msg : Memory UInt8)
    (requests : Nat → S3pReceiverAsynchronous.RequestBuffer)
    (hoffers : S3pReceiverAsynchronous.AlwaysOffers maxLen requests) :
    (Delivers (receiveSynchronous maxLen msg) noise (Sender.sendMsg len s) (s.front len) ↔
        Even (trailingMarks noise)) ∧
      Delivers (S3pReceiverAsynchronous.receive requests {}) noise (Sender.sendMsg len s)
        (s.front len) := by
  have hcapacity : len ≤ maxLen.toNat := by omega
  obtain ⟨frame, hframe⟩ := sendMsg_cons len s
  constructor
  · rw [Delivers, receiveSynchronous_scan, receiveSynchronous_scan, Scanner.scan_append,
      Frame.run_append, List.append_cancel_left_eq]
    have hpending := nestedRead_pending noise
    cases hmark : (nestedRead.scan false noise).1 with
    | false =>
      rw [hmark] at hpending
      apply iff_of_true (nestedRead.run_sendMsg hcapacity _ s)
      exact not_not.mp fun hodd => Bool.false_ne_true (hpending.mpr hodd)
    | true =>
      refine iff_of_false (fun hdelivers => ?_) (hpending.mp hmark)
      have hnever : Token.ofCode markByte = .command NEVER_USE := by decide
      rw [hframe, Scanner.scan_cons] at hdelivers
      simp only [nestedRead, hnever, List.cons_append, Frame.run, Frame.step, if_true] at hdelivers
      cases hdelivers
  · rw [Delivers, S3pReceiverAsynchronous.receiveAsynchronous_scan hoffers,
      S3pReceiverAsynchronous.receiveAsynchronous_scan hoffers, Scanner.scan_append,
      Frame.run_append, List.append_cancel_left_eq]
    have hscan : ∀ pending, rememberedMark.scan pending (Sender.sendMsg len s) =
        rememberedMark.scan false (Sender.sendMsg len s) := by
      intro pending
      rw [hframe, Scanner.scan_cons, Scanner.scan_cons]
      rfl
    rw [hscan]
    exact rememberedMark.run_sendMsg hcapacity _ s

theorem delivers_behind_noise_iff_twoMarks :
    Delivers (receiveSynchronous 1 fun _ => 0) [markByte, markByte]
      (Sender.sendMsg 1 fun _ => 7) [7] :=
  (delivers_behind_noise_iff 1 [markByte, markByte] 1 (fun _ => 7) (by decide) (fun _ => 0)
    (fun _ _ => (some fun _ => 0, 1)) (fun _ _ => ⟨_, rfl⟩)).1.mpr (by decide)

/-- One mark of noise, and the synchronous receiver reports no message at all. -/
theorem frame_lost_behind_mark :
    receiveSynchronous 10 (fun _ => 0) ([markByte] ++ Sender.sendMsg 1 fun _ => 7) =
        [.command NEVER_USE] ∧
      ¬ Delivers (receiveSynchronous 10 fun _ => 0) [markByte]
        (Sender.sendMsg 1 fun _ => 7) [7] := by
  have hlost : receiveSynchronous 10 (fun _ => 0)
      ([markByte] ++ Sender.sendMsg 1 fun _ => 7) = [.command NEVER_USE] := by
    rw [receiveSynchronous_scan]
    decide
  refine ⟨hlost, fun hdelivers => ?_⟩
  rw [Delivers, hlost] at hdelivers
  have hlast := congrArg List.getLast? hdelivers
  rw [List.getLast?_concat] at hlast
  cases hlast

/-- On every line without two adjacent marks both receivers make the same upcalls, however
malformed the line is. -/
theorem receivers_agree (maxLen : Int) (line : List UInt8)
    (hline : Scanner.NoMarkBehindMark line) (msg : Memory UInt8)
    (requests : Nat → S3pReceiverAsynchronous.RequestBuffer)
    (hoffers : S3pReceiverAsynchronous.AlwaysOffers maxLen requests) :
    receiveSynchronous maxLen msg line = S3pReceiverAsynchronous.receive requests {} line := by
  rw [receiveSynchronous_scan, S3pReceiverAsynchronous.receiveAsynchronous_scan hoffers,
    nestedRead.scan_eq rememberedMark line hline]

/-- An aborted frame, a `SYNC` and a stuffed mark inside the next one, and a stray `EOM`. -/
theorem receivers_agree_aborted :
    receiveSynchronous 2 (fun _ => 0)
        [0xFE, 0x02, 5, 0xFE, 0x02, 6, 0xFE, 0x16, 0xFE, 0x7E, 7, 0xFE, 0x03, 0xFE, 0x03] =
      S3pReceiverAsynchronous.receive (fun _ _ => (some fun _ => 0, 2)) {}
        [0xFE, 0x02, 5, 0xFE, 0x02, 6, 0xFE, 0x16, 0xFE, 0x7E, 7, 0xFE, 0x03, 0xFE, 0x03] :=
  receivers_agree 2 _ (by decide) _ _ fun _ _ => ⟨_, rfl⟩

end Rodos.S3p
