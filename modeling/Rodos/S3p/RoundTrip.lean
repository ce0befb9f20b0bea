import Rodos.S3p.Receivers

/-! Both receivers invert the sender: whatever receiver scans the line finds the tokens there that
the sender has encoded, and the round trip is a fact about tokens. -/
namespace Rodos.S3p
open Library

/-- Codes with the mark as high byte that the sender may put between messages. -/
def FreeCommand (c : UInt16) : Prop :=
  isCommand c = true ∧ c ≠ BOM ∧ c ≠ EOM ∧ c ≠ STUFF ∧ c ≠ NEVER_USE ∧ c ≠ NODATA

instance (c : UInt16) : Decidable (FreeCommand c) :=
  inferInstanceAs (Decidable (_ ∧ _))

namespace Token

def encode : Token → List UInt8
  | .data value => Sender.putDataByte value
  | .bom => Sender.putCommand BOM
  | .eom => Sender.putCommand EOM
  | .command code => Sender.putCommand code

def Admissible : Token → Prop
  | .command code => FreeCommand code
  | _ => True

end Token

theorem putDataByte_mark : Sender.putDataByte markByte = [markByte, lsb STUFF] := by decide

theorem putDataByte_plain {value : UInt8} (hvalue : value ≠ markByte) :
    Sender.putDataByte value = [value] := by
  simp [Sender.putDataByte, toUInt16_eq_mark, hvalue]

theorem putCommand_free {c : UInt16} (hc : FreeCommand c) :
    Sender.putCommand c = [markByte, lsb c] := by
  simp [Sender.putCommand, hc.2.2.2.2.2, msb_of_isCommand hc.1]

theorem putCommand_bom : Sender.putCommand BOM = [markByte, lsb BOM] := by decide

theorem putCommand_eom : Sender.putCommand EOM = [markByte, lsb EOM] := by decide

/-- An encoded token is scanned as itself, by both receivers and whatever follows it. -/
theorem Scanner.scan_encode (self : Scanner) {token : Token} (htoken : token.Admissible)
    (line : List UInt8) :
    self.scan false (token.encode ++ line) =
      ((self.scan false line).1, token :: (self.scan false line).2) := by
  cases token with
  | data value =>
    by_cases hvalue : value = markByte
    · subst hvalue
      rw [Token.encode, putDataByte_mark]
      exact self.scan_code (by decide) line
    · rw [Token.encode, putDataByte_plain hvalue]
      exact self.scan_plain hvalue line
  | bom =>
    rw [Token.encode, putCommand_bom]
    exact self.scan_code (by decide) line
  | eom =>
    rw [Token.encode, putCommand_eom]
    exact self.scan_code (by decide) line
  | command code =>
    obtain ⟨hcommand, hbom, heom, hstuff, hnever, -⟩ := id htoken
    have hcode : Token.ofCode (lsb code) = .command code := by
      simp [Token.ofCode, command_or_lsb hcommand, hbom, heom, hstuff]
    rw [Token.encode, putCommand_free htoken, ← hcode]
    exact self.scan_code (lsb_ne_mark hcommand hnever) line

theorem Scanner.scan_encoded (self : Scanner) (tokens : List Token)
    (htokens : ∀ token ∈ tokens, token.Admissible) (line : List UInt8) :
    self.scan false (tokens.flatMap Token.encode ++ line) =
      ((self.scan false line).1, tokens ++ (self.scan false line).2) := by
  induction tokens with
  | nil => rfl
  | cons token tokens ih =>
    rw [List.flatMap_cons, List.append_assoc, self.scan_encode (htokens token List.mem_cons_self),
      ih fun other hother => htokens other (List.mem_cons_of_mem _ hother)]
    rfl

/-! ### One message read by the synchronous receiver -/

/-- A data byte, stuffed or plain, is kept under the same guard. -/
theorem getMsgLoop_data (maxLen len : Int) (msg : Memory UInt8) (line : List UInt8)
    (value : UInt8) :
    getMsgLoop maxLen len msg (Sender.putDataByte value ++ line) =
      if len ≥ 0 ∧ len < maxLen then
        getMsgLoop maxLen (len + 1) (msg.store len.toNat value) line
      else getMsgLoop maxLen len msg line := by
  by_cases hvalue : value = markByte
  · have hstuff : COMMAND ||| (lsb STUFF).toUInt16 = STUFF := by decide
    have hbom : STUFF ≠ BOM := by decide
    have heom : STUFF ≠ EOM := by decide
    subst hvalue
    rw [putDataByte_mark, List.cons_append, List.cons_append, List.nil_append, getMsgLoop]
    simp [toUInt16_eq_mark, hstuff, hbom, heom]
  · rw [putDataByte_plain hvalue, List.cons_append, List.nil_append]
    conv_lhs => rw [getMsgLoop.eq_def]
    simp [toUInt16_eq_mark, hvalue]

/-- The bytes of a message are stored one behind the other, as far as the capacity reaches. -/
theorem getMsgLoop_payload (capacity start count : Nat) (msg s : Memory UInt8)
    (line : List UInt8) :
    getMsgLoop capacity (min start capacity : Nat) msg
        (((List.range' start count).map s).flatMap Sender.putDataByte ++ line) =
      getMsgLoop capacity (min (start + count) capacity : Nat)
        (Memory.copy msg s start start (min (start + count) capacity - min start capacity))
        line := by
  induction count generalizing start msg with
  | zero => simp [Memory.copy]
  | succ count ih =>
    have hnext : start + 1 + count = start + (count + 1) := by omega
    rw [List.range'_succ, List.map_cons, List.flatMap_cons, List.append_assoc, getMsgLoop_data]
    by_cases hroom : start < capacity
    · have hone : ((min start capacity : Nat) : Int) + 1 = (min (start + 1) capacity : Nat) := by
        omega
      have hcount : min (start + 1 + count) capacity - min start capacity =
          min (start + 1 + count) capacity - min (start + 1) capacity + 1 := by omega
      have hindex : ((min start capacity : Nat) : Int).toNat = start := by omega
      rw [if_pos (by omega), hone, hindex, ih, ← hnext, hcount, Memory.copy]
    · have hfull : min start capacity = min (start + 1) capacity := by omega
      have hstill : min (start + 1 + count) capacity - min (start + 1) capacity = 0 := by omega
      rw [if_neg (by omega), hfull, ih, ← hnext, hstill]
      rfl

/-- A message on the line is received whatever comes behind it, and stays unread. -/
theorem getMsg_sendMsg (capacity count : Nat) (msg s : Memory UInt8) (line : List UInt8) :
    getMsg capacity msg (Sender.sendMsg count s ++ line) =
      ⟨[], Memory.copy msg s 0 0 (min count capacity),
        some ((min count capacity : Nat), line)⟩ := by
  have hbom : COMMAND ||| (lsb BOM).toUInt16 = BOM := by decide
  have heom : COMMAND ||| (lsb EOM).toUInt16 = EOM := by decide
  have hdistinct : EOM ≠ BOM := by decide
  have hpayload := getMsgLoop_payload capacity 0 count msg s (Sender.putCommand EOM ++ line)
  rw [Nat.zero_min, Nat.zero_add, Nat.sub_zero, ← List.range_eq_range'] at hpayload
  rw [getMsg, Sender.sendMsg, Int.toNat_natCast, putCommand_bom, List.append_assoc,
    List.append_assoc, List.cons_append, List.cons_append, List.nil_append, getMsgLoop]
  simp only [toUInt16_eq_mark, hbom, ne_eq, not_true, false_and, if_false, if_true]
  unfold Memory.front
  apply hpayload.trans
  rw [putCommand_eom, List.cons_append, List.cons_append, List.nil_append, getMsgLoop]
  simp [toUInt16_eq_mark, heom, hdistinct]

/-! ### Sender calls -/

/-- A call on `S3pSenderSynchronous`. -/
inductive SenderCall where
  | sendMsg (len : Int) (s : Memory UInt8)
  | putDataByte (c : UInt8)
  | putCommand (c : UInt16)

namespace SenderCall

def emitted : SenderCall → List UInt8
  | .sendMsg len s => Sender.sendMsg len s
  | .putDataByte c => Sender.putDataByte c
  | .putCommand c => Sender.putCommand c

/-- Between messages only data bytes and free commands are put. -/
def Admissible : SenderCall → Prop
  | .putCommand c => FreeCommand c
  | _ => True

/-- The upcalls that a call shall cause in a receiver of the given capacity. -/
def received (capacity : Nat) : SenderCall → List Event
  | .sendMsg len s => [.message ((s.front len.toNat).take capacity)]
  | .putDataByte _ => []
  | .putCommand c => [.command c]

def tokens : SenderCall → List Token
  | .sendMsg len s => .bom :: (s.front len.toNat).map .data ++ [.eom]
  | .putDataByte c => [.data c]
  | .putCommand c => [.command c]

theorem emitted_eq_tokens (call : SenderCall) :
    call.emitted = call.tokens.flatMap Token.encode := by
  cases call with
  | sendMsg len s =>
    simp [emitted, tokens, Sender.sendMsg, Token.encode, List.flatMap_map]
  | putDataByte c => simp [emitted, tokens, Token.encode]
  | putCommand c => simp [emitted, tokens, Token.encode]

theorem tokens_admissible {call : SenderCall} (hcall : call.Admissible) :
    ∀ token ∈ call.tokens, token.Admissible := by
  cases call with
  | sendMsg len s =>
    intro token htoken
    simp only [tokens, List.cons_append, List.mem_cons, List.mem_append, List.mem_map,
      List.not_mem_nil, or_false] at htoken
    rcases htoken with rfl | ⟨value, -, rfl⟩ | rfl <;> trivial
  | putDataByte c => simp [tokens, Token.Admissible]
  | putCommand c =>
    intro token htoken
    obtain rfl := List.mem_singleton.mp htoken
    exact hcall

end SenderCall

theorem frame_run_calls (capacity : Nat) (calls : List SenderCall) :
    Frame.run capacity none (calls.flatMap SenderCall.tokens) =
      calls.flatMap (SenderCall.received capacity) := by
  induction calls with
  | nil => rfl
  | cons call calls ih =>
    rw [List.flatMap_cons, List.flatMap_cons, ← ih]
    cases call with
    | sendMsg len s =>
      simp only [SenderCall.tokens, SenderCall.received, List.append_assoc, List.cons_append,
        List.nil_append]
      exact Frame.run_frame capacity none _ _
    | putDataByte c => rfl
    | putCommand c => rfl

/-- Whatever calls the sender makes, both receivers report exactly the sent messages, cut to
the capacity, and the sent commands, in the order of the calls. -/
theorem receivers_invert_sender (maxLen : Int) (calls : List SenderCall)
    (hcalls : ∀ call ∈ calls, call.Admissible) (msg : Memory UInt8)
    (requests : Nat → S3pReceiverAsynchronous.RequestBuffer)
    (hoffers : S3pReceiverAsynchronous.AlwaysOffers maxLen requests) :
    receiveSynchronous maxLen msg (calls.flatMap SenderCall.emitted) =
        calls.flatMap (SenderCall.received maxLen.toNat) ∧
      S3pReceiverAsynchronous.receive requests {} (calls.flatMap SenderCall.emitted) =
        calls.flatMap (SenderCall.received maxLen.toNat) := by
  have hemitted : calls.flatMap SenderCall.emitted =
      (calls.flatMap SenderCall.tokens).flatMap Token.encode := by
    rw [List.flatMap_assoc]
    exact List.flatMap_congr fun call _ => call.emitted_eq_tokens
  have htokens : ∀ token ∈ calls.flatMap SenderCall.tokens, token.Admissible := by
    intro token htoken
    obtain ⟨call, hcall, hmem⟩ := List.mem_flatMap.mp htoken
    exact SenderCall.tokens_admissible (hcalls call hcall) token hmem
  have hscan : ∀ scanner : Scanner,
      (scanner.scan false ((calls.flatMap SenderCall.tokens).flatMap Token.encode)).2 =
        calls.flatMap SenderCall.tokens := by
    intro scanner
    have hencoded := scanner.scan_encoded _ htokens []
    rw [List.append_nil] at hencoded
    rw [hencoded]
    exact List.append_nil _
  rw [hemitted, ← frame_run_calls]
  constructor
  · rw [receiveSynchronous_scan, hscan]
  · rw [S3pReceiverAsynchronous.receiveAsynchronous_scan hoffers, hscan]

/-- A stray mark, a message with marks at both ends that is cut by one byte, and a `SYNC`. -/
theorem receivers_invert_sender_marks :
    receiveSynchronous 2 (fun _ => 0)
        ([.putDataByte 0xFE, .sendMsg 3 fun i => if i = 1 then 2 else 0xFE,
          .putCommand 0xFE16].flatMap SenderCall.emitted) =
      [.message [0xFE, 2], .command 0xFE16] := by
  have hcalls : ∀ call ∈ [SenderCall.putDataByte 0xFE,
      .sendMsg 3 fun i => if i = 1 then 2 else 0xFE, .putCommand 0xFE16], call.Admissible := by
    have hsync : FreeCommand 0xFE16 := by decide
    simp [SenderCall.Admissible, hsync]
  have hoffers : S3pReceiverAsynchronous.AlwaysOffers 2 fun _ _ => (some fun _ => 0, 2) :=
    fun _ _ => ⟨_, rfl⟩
  rw [(receivers_invert_sender 2 _ hcalls (fun _ => 0) _ hoffers).1]
  decide

end Rodos.S3p
