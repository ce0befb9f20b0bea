import Rodos.Gateway.NetworkMessage

/-! `LinkinterfaceCAN::sendNetworkMsg`: how a message is cut into CAN telegrams of at most eight
data bytes. -/
namespace Rodos.Gateway
open Library

/-- A telegram on the bus. The driver always moves eight bytes; `len` of them are data. -/
structure Telegram where
  canID : UInt32
  data : Memory UInt8
  len : Nat
  len_le : len ≤ 8

def Telegram.payload (self : Telegram) : List UInt8 := self.data.front self.len

def Telegram.ofBytes (canID : UInt32) (bytes : List UInt8) (len : Fin 9) : Telegram :=
  ⟨canID, fun i => bytes.getD i 0, len, Nat.le_of_lt_succ len.isLt⟩

inductive CanErrorType where
  | noError | unknown | errorActive | errorPassive | bof | stuff | noAck
  deriving DecidableEq, Repr

/-- What the driver answers to one call of `can.write`: zero, or -1 and then this error type as
its transmit status. -/
inductive WriteAnswer where
  | accepted
  | refused (errorType : CanErrorType)
  deriving DecidableEq, Repr

/-- `while(can.write(...) == -1)`: whether the telegram was accepted or the sender gave up,
together with the answers left over. -/
def awaitWrite : List WriteAnswer → Option (Bool × List WriteAnswer)
  | [] => none
  | .accepted :: answers => some (true, answers)
  | .refused errorType :: answers =>
    match errorType with
    | .unknown | .errorActive | .errorPassive | .bof => some (false, answers)
    | .noError | .stuff | .noAck => awaitWrite answers

/-- The local variables of `sendNetworkMsg`, `messageData` being an index of `userDataC`. -/
structure Sender where
  buffer : Memory UInt8
  count : Nat
  count_le : count ≤ 8
  messageData : Nat
  sequenceCounter : UInt8

/-- `while(dataLength>0 && count < 8)`, with the data length that is left. -/
def Sender.fill (outMsg : NetworkMessage) (self : Sender) : Nat → Sender × Nat
  | 0 => (self, 0)
  | dataLength + 1 =>
    if hroom : self.count < 8 then
      let next := { self with
        buffer := self.buffer.store self.count (outMsg.userDataC self.messageData)
        count := self.count + 1
        count_le := hroom
        messageData := self.messageData + 1 }
      next.fill outMsg dataLength
    else (self, dataLength + 1)

/-- The telegrams the driver took, and the value returned unless the sender still waits. -/
structure Sending where
  written : List Telegram
  returned : Option Bool

/-- `while(dataLength>0)`. -/
def Sender.sendTelegrams (outMsg : NetworkMessage) :
    (fuel : Nat) → Sender → (dataLength : Nat) → List WriteAnswer → Sending
  | 0, _, _, _ => ⟨[], none⟩
  | fuel + 1, self, dataLength, answers =>
    if dataLength > 0 then
      let (filled, dataLength) := Sender.fill outMsg
        { self with buffer := self.buffer.store 0 self.sequenceCounter } dataLength
      match awaitWrite answers with
      | none => ⟨[], none⟩
      | some (false, _) => ⟨[], some false⟩
      | some (true, answers) =>
        let telegram : Telegram := ⟨outMsg.canID, filled.buffer, filled.count, filled.count_le⟩
        let next := { filled with
          sequenceCounter := filled.sequenceCounter + 1
          count := 1
          count_le := by decide }
        let sending := sendTelegrams outMsg fuel next dataLength answers
        ⟨telegram :: sending.written, sending.returned⟩
    else ⟨[], some true⟩

/-- `buffer` holds whatever was on the stack. Every telegram takes at least one byte, so the
outer loop ends within `dataLength` rounds. -/
def sendNetworkMsg (buffer : Memory UInt8) (outMsg : NetworkMessage)
    (answers : List WriteAnswer) : Sending :=
  let dataLength := outMsg.getLen.toNat
  let sender : Sender :=
    { buffer := buffer.storeBigEndian 1 2 dataLength
      count := 3
      count_le := by decide
      messageData := 0
      sequenceCounter := 0 }
  sender.sendTelegrams outMsg (dataLength + 1) dataLength answers

/-- Data bytes of the message in the telegrams before the given one. -/
def bytesBefore (number : Nat) : Nat := 7 * number - 2

def telegramCount (length : Nat) : Nat := if length = 0 then 0 else (length + 8) / 7

/-- What stands before the data in the given telegram of a message. -/
def NetworkMessage.telegramHead (self : NetworkMessage) (number : Nat) : List UInt8 :=
  if number = 0 then [0, UInt8.ofNat (self.getLen.toNat / 256), UInt8.ofNat self.getLen.toNat]
  else [UInt8.ofNat number]

def NetworkMessage.telegram (self : NetworkMessage) (number : Nat) : List UInt8 :=
  self.telegramHead number ++
    (self.userData.take (bytesBefore (number + 1))).drop (bytesBefore number)

def NetworkMessage.telegrams (self : NetworkMessage) : List (List UInt8) :=
  (List.range (telegramCount self.getLen.toNat)).map self.telegram

/-- The inner loop copies the data left as far as the buffer has room. -/
theorem Sender.fill_fields {outMsg : NetworkMessage} {self filled : Sender}
    {dataLength left : Nat} (hfill : self.fill outMsg dataLength = (filled, left)) :
    let room := min dataLength (8 - self.count)
    filled.buffer = Memory.copy self.buffer outMsg.userDataC self.count self.messageData room ∧
      filled.count = self.count + room ∧ filled.messageData = self.messageData + room ∧
      filled.sequenceCounter = self.sequenceCounter ∧ left = dataLength - room := by
  induction dataLength generalizing self with
  | zero =>
    cases hfill
    simp [Memory.copy]
  | succ dataLength ih =>
    by_cases hroom : self.count < 8
    · have hmin : min (dataLength + 1) (8 - self.count) =
          min dataLength (8 - (self.count + 1)) + 1 := by omega
      rw [fill, dif_pos hroom] at hfill
      have hfields := ih hfill
      dsimp only at hfields
      rw [hmin]
      obtain ⟨hbuffer, hcount, hdata, hsequence, hleft⟩ := hfields
      exact ⟨hbuffer, by omega, by omega, hsequence, by omega⟩
    · have hmin : min (dataLength + 1) (8 - self.count) = 0 := by omega
      rw [fill, dif_neg hroom] at hfill
      cases hfill
      simp [hmin, Memory.copy]

theorem bytesBefore_succ (number : Nat) : bytesBefore (number + 1) = 7 * number + 5 := by
  unfold bytesBefore
  omega

theorem lt_telegramCount {length number : Nat} :
    number < telegramCount length ↔ bytesBefore number < length := by
  unfold telegramCount bytesBefore
  split <;> omega

/-- Before the first telegram goes out, and before every later one. -/
structure Sender.BeforeTelegram (outMsg : NetworkMessage) (sender : Sender) (number : Nat) :
    Prop where
  head :
    (sender.buffer.store 0 sender.sequenceCounter).front sender.count = outMsg.telegramHead number
  room : bytesBefore number + (8 - sender.count) = bytesBefore (number + 1)
  sequence : sender.sequenceCounter = UInt8.ofNat number
  data : sender.messageData = min (bytesBefore number) outMsg.getLen.toNat

theorem Sender.BeforeTelegram.filled {outMsg : NetworkMessage} {sender filled : Sender}
    {number left : Nat} (h : sender.BeforeTelegram outMsg number)
    (hmore : bytesBefore number < outMsg.getLen.toNat)
    (hfill : Sender.fill outMsg
      { sender with buffer := sender.buffer.store 0 sender.sequenceCounter }
      (outMsg.getLen.toNat - bytesBefore number) = (filled, left)) :
    filled.buffer.front filled.count = outMsg.telegram number ∧
      left = outMsg.getLen.toNat - bytesBefore (number + 1) ∧
      filled.messageData = min (bytesBefore (number + 1)) outMsg.getLen.toNat ∧
      filled.sequenceCounter = UInt8.ofNat number := by
  have hfields := Sender.fill_fields hfill
  have hroom := h.room
  have hdata := h.data
  dsimp only at hfields
  obtain ⟨hbuffer, hcount, hnext, hsequence, hleft⟩ := hfields
  refine ⟨?_, by omega, by omega, hsequence.trans h.sequence⟩
  have hstart : sender.messageData = bytesBefore number := by omega
  have hstop : bytesBefore number +
      min (outMsg.getLen.toNat - bytesBefore number) (8 - sender.count) =
        min (bytesBefore (number + 1)) outMsg.getLen.toNat := by omega
  rw [hbuffer, hcount, Memory.front_copy, h.head, hstart, hstop, Memory.slice,
    NetworkMessage.telegram, NetworkMessage.userData, Memory.take_front]

/-- A later telegram starts behind its sequence number. -/
theorem Sender.BeforeTelegram.next {outMsg : NetworkMessage} {sender : Sender} {number : Nat}
    (hdata : sender.messageData = min (bytesBefore (number + 1)) outMsg.getLen.toNat)
    (hsequence : sender.sequenceCounter = UInt8.ofNat number) :
    Sender.BeforeTelegram outMsg { sender with
      sequenceCounter := sender.sequenceCounter + 1
      count := 1
      count_le := by decide } (number + 1) := by
  have hcounter : sender.sequenceCounter + 1 = UInt8.ofNat (number + 1) := by
    rw [hsequence, UInt8.ofNat_add]
    rfl
  refine ⟨?_, ?_, hcounter, hdata⟩
  · simp [NetworkMessage.telegramHead, Memory.front_succ, hcounter]
  · simp only [bytesBefore_succ]
    omega

theorem Sender.sendTelegrams_written {outMsg : NetworkMessage} {fuel number : Nat}
    {sender : Sender} {answers : List WriteAnswer} {written : List Telegram}
    (h : sender.BeforeTelegram outMsg number)
    (hsend : sender.sendTelegrams outMsg fuel (outMsg.getLen.toNat - bytesBefore number) answers =
      ⟨written, some true⟩) :
    (∀ telegram ∈ written, telegram.canID = outMsg.canID) ∧
      written.map Telegram.payload =
        (List.range' number (telegramCount outMsg.getLen.toNat - number)).map outMsg.telegram := by
  induction fuel generalizing sender number answers written with
  | zero => cases hsend
  | succ fuel ih =>
    have hcount := @lt_telegramCount outMsg.getLen.toNat number
    by_cases hmore : bytesBefore number < outMsg.getLen.toNat
    · have hpositive : outMsg.getLen.toNat - bytesBefore number > 0 := by omega
      rw [sendTelegrams, if_pos hpositive] at hsend
      cases hfill : Sender.fill outMsg
          { sender with buffer := sender.buffer.store 0 sender.sequenceCounter }
          (outMsg.getLen.toNat - bytesBefore number) with
      | mk filled left =>
      obtain ⟨hpayload, rfl, hdata, hsequence⟩ := h.filled hmore hfill
      simp only [hfill] at hsend
      cases hawait : awaitWrite answers with
      | none =>
        rw [hawait] at hsend
        cases hsend
      | some result =>
        obtain ⟨accepted, answers⟩ := result
        cases accepted with
        | false =>
          rw [hawait] at hsend
          cases hsend
        | true =>
          simp only [hawait, Sending.mk.injEq] at hsend
          obtain ⟨hwritten, hreturned⟩ := hsend
          obtain ⟨hids, hpayloads⟩ := ih (BeforeTelegram.next hdata hsequence)
            (congrArg (Sending.mk _) hreturned)
          have hrange : telegramCount outMsg.getLen.toNat - number =
              telegramCount outMsg.getLen.toNat - (number + 1) + 1 := by omega
          rw [← hwritten, hrange, List.range'_succ]
          constructor
          · intro telegram hmem
            cases List.mem_cons.mp hmem with
            | inl hfirst => rw [hfirst]
            | inr hlater => exact hids telegram hlater
          · rw [List.map_cons, List.map_cons, hpayloads]
            exact congrArg (· :: _) hpayload
    · have hdone : telegramCount outMsg.getLen.toNat - number = 0 := by omega
      have hzero : ¬ outMsg.getLen.toNat - bytesBefore number > 0 := by omega
      rw [sendTelegrams, if_neg hzero] at hsend
      cases hsend
      simp [hdone]

/-- A send that returns true has put all telegrams of the message on the bus. -/
theorem sendNetworkMsg_written {buffer : Memory UInt8} {outMsg : NetworkMessage}
    {answers : List WriteAnswer} {written : List Telegram}
    (hsend : sendNetworkMsg buffer outMsg answers = ⟨written, some true⟩) :
    (∀ telegram ∈ written, telegram.canID = outMsg.canID) ∧
      written.map Telegram.payload = outMsg.telegrams := by
  have hstart : Sender.BeforeTelegram outMsg
      { buffer := buffer.storeBigEndian 1 2 outMsg.getLen.toNat
        count := 3
        count_le := by decide
        messageData := 0
        sequenceCounter := 0 } 0 := by
    refine ⟨?_, rfl, rfl, by simp [bytesBefore]⟩
    simp [NetworkMessage.telegramHead, Memory.front_succ, Memory.storeBigEndian, Memory.store]
  have hwritten := Sender.sendTelegrams_written hstart hsend
  rw [NetworkMessage.telegrams, List.range_eq_range']
  exact hwritten

theorem Sender.sendTelegrams_returned {outMsg : NetworkMessage} {fuel dataLength room : Nat}
    {sender : Sender} (hfuel : dataLength < fuel) (hroom : dataLength ≤ room)
    (hcount : sender.count < 8) :
    (sender.sendTelegrams outMsg fuel dataLength (List.replicate room .accepted)).returned =
      some true := by
  induction fuel generalizing sender dataLength room with
  | zero => omega
  | succ fuel ih =>
    by_cases hmore : dataLength > 0
    · obtain ⟨fewer, rfl⟩ := Nat.exists_eq_succ_of_ne_zero (show room ≠ 0 by omega)
      cases hfill : Sender.fill outMsg
          { sender with buffer := sender.buffer.store 0 sender.sequenceCounter } dataLength with
      | mk filled left =>
      have hfields := Sender.fill_fields hfill
      dsimp only at hfields
      rw [sendTelegrams, if_pos hmore]
      simp only [hfill, List.replicate_succ, awaitWrite]
      exact ih (by omega) (by omega) (show 1 < 8 by decide)
    · rw [sendTelegrams, if_neg hmore]

/-- A driver that accepts every telegram lets the send return true. -/
theorem sendNetworkMsg_returned (buffer : Memory UInt8) (outMsg : NetworkMessage) :
    (sendNetworkMsg buffer outMsg
      (List.replicate outMsg.getLen.toNat .accepted)).returned = some true :=
  Sender.sendTelegrams_returned (Nat.lt_succ_self _) (Nat.le_refl _)
    (show 3 < 8 by decide)

end Rodos.Gateway
