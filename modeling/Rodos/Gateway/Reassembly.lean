import Rodos.Gateway.Telegram

/-! How `LinkinterfaceCAN` puts a message together from telegrams: the part of
`appendCANMsgToCurrentNetMsg` behind the handling of the telegram buffer. -/
namespace Rodos.Gateway
open Library

/-- `currentDataPointer` is an index of `userDataC`. The last three fields are not in the program:
how many messages were begun, for which of them each byte was last stored, and the telegrams that
were handed over so far. -/
structure Reassembly where
  currentMsg : NetworkMessage
  currentReceiveCANId : UInt32
  currentDataPointer : Nat
  bytesReceived : UInt16
  sequenceCounter : UInt8
  message : Nat
  storedFor : Memory (Option Nat)
  handed : List Telegram

/-- The user-data length that a first telegram announces. -/
def Telegram.announced (self : Telegram) : UInt16 :=
  UInt16.ofNat (self.data.loadBigEndian 1 2)

namespace Reassembly

/-- `if(canMsg->data[0] == 0)`. -/
def begin (NOW : Int64) (self : Reassembly) (canMsg : Telegram) : Reassembly :=
  let id := canMsg.canID
  let currentMsg := self.currentMsg
    |>.putMaxStepsToForward 5
    |>.putSenderNode (id &&& uint32Ones CAN_LINK_NODE_BITS).toInt32
    |>.putSenderThreadId 0
    |>.putSentTime NOW
    |>.putTopicId ((id >>> CAN_LINK_NODE_BITS) &&& uint32Ones CAN_LINK_TOPIC_BITS)
    |>.putLen canMsg.announced
  { self with
    currentMsg := currentMsg
    currentReceiveCANId := id
    currentDataPointer := 0
    bytesReceived := 0
    sequenceCounter := 0
    message := self.message + 1 }

/-- The loop over the data bytes of a telegram, and the byte count behind it. -/
def storeData (self : Reassembly) (canMsg : Telegram) (userDataBegin : Nat) : Reassembly :=
  let count := canMsg.len - userDataBegin
  { self with
    currentMsg := { self.currentMsg with
      userDataC := Memory.copy self.currentMsg.userDataC canMsg.data self.currentDataPointer
        userDataBegin count }
    currentDataPointer := self.currentDataPointer + count
    bytesReceived :=
      UInt16.ofInt ((self.bytesReceived.toNat : Int) + canMsg.len - userDataBegin)
    storedFor := Memory.copy self.storedFor (fun _ => some self.message) self.currentDataPointer
      userDataBegin count }

def finishOrContinue (self : Reassembly) : Bool × Reassembly :=
  if self.bytesReceived ≥ self.currentMsg.getLen then
    (true, { self with currentMsg := self.currentMsg.setCheckSum, currentReceiveCANId := 0 })
  else (false, { self with sequenceCounter := self.sequenceCounter + 1 })

/-- `NOW` gives the time at which each telegram is handed over. -/
def append (NOW : Nat → Int64) (self : Reassembly) (canMsg : Telegram) : Bool × Reassembly :=
  let first := canMsg.data 0 = 0
  let userDataBegin := if first then 3 else 1
  let self := if first then self.begin (NOW self.handed.length) canMsg else self
  let self := { self with handed := self.handed ++ [canMsg] }
  if self.currentReceiveCANId = 0 then
    if canMsg.data 0 > 0 then (false, self)
    else (self.storeData canMsg userDataBegin).finishOrContinue
  else if canMsg.canID ≠ self.currentReceiveCANId ∨ canMsg.data 0 ≠ self.sequenceCounter then
    (false, self)
  else (self.storeData canMsg userDataBegin).finishOrContinue

def hand (self : Reassembly) (canMsg : Telegram) : Reassembly :=
  { self with handed := self.handed ++ [canMsg] }

/-- The telegram is taken as the next one of the message that is being put together. -/
def Continues (self : Reassembly) (canMsg : Telegram) : Prop :=
  canMsg.data 0 ≠ 0 ∧ self.currentReceiveCANId ≠ 0 ∧ canMsg.canID = self.currentReceiveCANId ∧
    canMsg.data 0 = self.sequenceCounter

instance (self : Reassembly) (canMsg : Telegram) : Decidable (self.Continues canMsg) :=
  inferInstanceAs (Decidable (_ ∧ _))

variable {NOW : Nat → Int64} {self : Reassembly} {canMsg : Telegram}

theorem append_first (hfirst : canMsg.data 0 = 0) :
    self.append NOW canMsg =
      (((self.begin (NOW self.handed.length) canMsg).hand canMsg).storeData
        canMsg 3).finishOrContinue := by
  simp [append, hfirst, begin, hand]

theorem append_next (hnext : self.Continues canMsg) :
    self.append NOW canMsg = ((self.hand canMsg).storeData canMsg 1).finishOrContinue := by
  obtain ⟨hlater, hbusy, hid, hsequence⟩ := hnext
  have hmatches :
      ¬ (canMsg.canID ≠ self.currentReceiveCANId ∨ canMsg.data 0 ≠ self.sequenceCounter) := by
    simp [hid, hsequence]
  simp only [append, if_neg hlater, if_neg hbusy, if_neg hmatches, hand]

theorem append_dropped (hlater : canMsg.data 0 ≠ 0) (hdropped : ¬ self.Continues canMsg) :
    self.append NOW canMsg = (false, self.hand canMsg) := by
  have hpositive : canMsg.data 0 > 0 := UInt8.pos_iff_ne_zero.mpr hlater
  simp only [append, if_neg hlater, if_pos hpositive, hand]
  by_cases hidle : self.currentReceiveCANId = 0
  · rw [if_pos hidle]
  · rw [if_neg hidle, if_pos]
    by_contra hcontinues
    rw [not_or, not_not, not_not] at hcontinues
    exact hdropped ⟨hlater, hidle, hcontinues.1, hcontinues.2⟩

@[simp] theorem getLen_begin (NOW : Int64) :
    (self.begin NOW canMsg).currentMsg.getLen = canMsg.announced :=
  NetworkMessage.getLen_putLen _ _

@[simp] theorem getLen_storeData (userDataBegin : Nat) :
    (self.storeData canMsg userDataBegin).currentMsg.getLen = self.currentMsg.getLen := rfl

@[simp] theorem currentMsg_hand : (self.hand canMsg).currentMsg = self.currentMsg := rfl

theorem storedFor_storeData (userDataBegin index : Nat) :
    (self.storeData canMsg userDataBegin).storedFor index =
      if self.currentDataPointer ≤ index ∧
        index < self.currentDataPointer + (canMsg.len - userDataBegin) then some self.message
      else self.storedFor index := by
  by_cases hnew : self.currentDataPointer ≤ index ∧
      index < self.currentDataPointer + (canMsg.len - userDataBegin)
  · rw [if_pos hnew]
    exact Memory.copy_inside _ _ _ hnew.1 hnew.2
  · rw [if_neg hnew]
    exact Memory.copy_outside _ _ _ (by omega)

/-- The byte count grows by the data bytes, or shrinks when the telegram ends before them. -/
theorem bytesReceived_storeData {userDataBegin : Nat}
    (hbegin : userDataBegin ≤ self.bytesReceived.toNat + canMsg.len)
    (hsmall : self.bytesReceived.toNat + canMsg.len - userDataBegin < 2 ^ 16) :
    (self.storeData canMsg userDataBegin).bytesReceived.toNat =
      self.bytesReceived.toNat + canMsg.len - userDataBegin := by
  have hvalue : (((self.bytesReceived.toNat : Int) + canMsg.len - userDataBegin) % 2 ^ 16).toNat =
      self.bytesReceived.toNat + canMsg.len - userDataBegin := by omega
  show (UInt16.ofInt _).toNat = _
  rw [UInt16.ofInt, hvalue, UInt16.toNat_ofNat', Nat.mod_eq_of_lt hsmall]

end Reassembly

end Rodos.Gateway
