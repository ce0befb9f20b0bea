import Rodos.Gateway.Reassembly

/-! Reassembly of a message that `sendNetworkMsg` split, telegram by telegram. -/
namespace Rodos.Gateway
open Library

/-- Only the low 16 bits of the topic and the low 8 bits of the node cross the link. -/
structure NetworkMessage.ReceivedAs (sent received : NetworkMessage) : Prop where
  len : received.getLen = sent.getLen
  userData : received.userData = sent.userData
  topicId : received.getTopicId.toNat = sent.getTopicId.toNat % 2 ^ 16
  senderNode : received.getSenderNode.toInt = sent.getSenderNode.toInt % 2 ^ 8

/-- A received message would be sent on under the id it came with. -/
theorem NetworkMessage.ReceivedAs.canID {sent received : NetworkMessage}
    (h : sent.ReceivedAs received) : received.canID = sent.canID := by
  have htopic : received.getTopicId &&& uint32Ones CAN_LINK_TOPIC_BITS =
      sent.getTopicId &&& uint32Ones CAN_LINK_TOPIC_BITS := by
    apply UInt32.toNat_inj.mp
    rw [toNat_and_topicOnes, toNat_and_topicOnes, h.topicId, Nat.mod_mod]
  have hnode : received.getSenderNode.toUInt32 &&& uint32Ones CAN_LINK_NODE_BITS =
      sent.getSenderNode.toUInt32 &&& uint32Ones CAN_LINK_NODE_BITS := by
    apply UInt32.toNat_inj.mp
    have hsender := h.senderNode
    rw [toInt_eq_toNat_toUInt32, toInt_eq_toNat_toUInt32] at hsender
    rw [toNat_and_nodeOnes, toNat_and_nodeOnes]
    split at hsender <;> split at hsender <;> omega
  simp only [NetworkMessage.canID, htopic, hnode]
/-- A telegram that carries the given part of a message. -/
structure Telegram.Carries (telegram : Telegram) (message : NetworkMessage) (number : Nat) :
    Prop where
  canID : telegram.canID = message.canID
  payload : telegram.payload = message.telegram number

/-- The data of the telegrams before the given one is stored. -/
structure Reassembly.HasStored (reassembly : Reassembly) (message : NetworkMessage)
    (number : Nat) : Prop where
  canID : reassembly.currentReceiveCANId = message.canID
  sequenceCounter : reassembly.sequenceCounter = UInt8.ofNat number
  pointer : reassembly.currentDataPointer = bytesBefore number
  count : reassembly.bytesReceived.toNat = bytesBefore number
  more : bytesBefore number < message.getLen.toNat
  len : reassembly.currentMsg.getLen = message.getLen
  topicId : reassembly.currentMsg.getTopicId.toNat = message.getTopicId.toNat % 2 ^ 16
  senderNode : reassembly.currentMsg.getSenderNode.toInt = message.getSenderNode.toInt % 2 ^ 8
  userData : reassembly.currentMsg.userDataC.front (bytesBefore number) =
    message.userData.take (bytesBefore number)

@[simp] theorem NetworkMessage.length_userData (self : NetworkMessage) :
    self.userData.length = self.getLen.toNat :=
  Memory.length_front _ _

theorem NetworkMessage.telegramHead_eq_cons (self : NetworkMessage) (number : Nat) :
    ∃ rest, self.telegramHead number = UInt8.ofNat number :: rest := by
  unfold telegramHead
  split
  · next hfirst =>
    rw [hfirst]
    exact ⟨_, rfl⟩
  · exact ⟨[], rfl⟩

@[simp] theorem Telegram.length_payload (self : Telegram) : self.payload.length = self.len :=
  Memory.length_front _ _

theorem Telegram.data_eq {self : Telegram} {bytes : List UInt8} {index : Nat} {byte : UInt8}
    (hpayload : self.payload = bytes) (hbyte : bytes[index]? = some byte) :
    self.data index = byte := by
  rw [← hpayload, Telegram.payload, Memory.getElem?_front] at hbyte
  split at hbyte
  · exact Option.some.inj hbyte
  · cases hbyte

namespace Telegram.Carries

variable {telegram : Telegram} {message : NetworkMessage} {number : Nat}

theorem number_eq (h : telegram.Carries message number) :
    telegram.data 0 = UInt8.ofNat number := by
  apply Telegram.data_eq h.payload
  obtain ⟨rest, hhead⟩ := message.telegramHead_eq_cons number
  simp [NetworkMessage.telegram, hhead]

/-- Only the first telegram has a sequence counter of zero. -/
theorem later (h : telegram.Carries message number) (hpos : 0 < number) (hsmall : number < 256) :
    telegram.data 0 ≠ 0 := by
  rw [h.number_eq]
  intro hzero
  have hvalue := congrArg UInt8.toNat hzero
  rw [UInt8.toNat_ofNat', Nat.mod_eq_of_lt hsmall] at hvalue
  exact Nat.ne_of_gt hpos hvalue

theorem announced (h : telegram.Carries message 0) : telegram.announced = message.getLen := by
  have hupper : telegram.data 1 = UInt8.ofNat (message.getLen.toNat / 256) :=
    Telegram.data_eq h.payload rfl
  have hlower : telegram.data 2 = UInt8.ofNat message.getLen.toNat :=
    Telegram.data_eq h.payload rfl
  have hlt := message.getLen.toNat_lt
  have hload : telegram.data.loadBigEndian 1 2 = message.getLen.toNat := by
    simp only [Memory.loadBigEndian, hupper, hlower, UInt8.toNat_ofNat', Nat.add_zero,
      Nat.zero_mul, Nat.zero_add]
    omega
  rw [Telegram.announced, hload, UInt16.ofNat_toNat]

/-- The telegram ends with its data. -/
theorem len_eq (h : telegram.Carries message number) :
    telegram.len = (message.telegramHead number).length +
      (min (bytesBefore (number + 1)) message.getLen.toNat - bytesBefore number) := by
  rw [← telegram.length_payload, h.payload, NetworkMessage.telegram, List.length_append,
    List.length_drop, List.length_take, NetworkMessage.length_userData]

theorem data_slice (h : telegram.Carries message number) :
    Memory.slice telegram.data (message.telegramHead number).length telegram.len =
      (message.userData.take (bytesBefore (number + 1))).drop (bytesBefore number) := by
  unfold Memory.slice
  show telegram.payload.drop _ = _
  rw [h.payload, NetworkMessage.telegram, List.drop_left']
  rfl

end Telegram.Carries

namespace Reassembly

variable {self : Reassembly} {telegram : Telegram} {message : NetworkMessage} {number : Nat}

theorem begin_hasStored (NOW : Int64) (h : telegram.Carries message 0)
    (hlen : 0 < message.getLen.toNat) :
    ((self.begin NOW telegram).hand telegram).HasStored message 0 := by
  refine ⟨h.canID, rfl, rfl, rfl, hlen, ?_, ?_, ?_, rfl⟩
  · rw [currentMsg_hand, getLen_begin, h.announced]
  · rw [currentMsg_hand, begin, NetworkMessage.getTopicId_putLen,
      NetworkMessage.getTopicId_putTopicId, h.canID]
    exact message.toNat_topic_of_canID
  · rw [currentMsg_hand, begin, NetworkMessage.getSenderNode_putLen,
      NetworkMessage.getSenderNode_putTopicId, NetworkMessage.getSenderNode_putSentTime,
      NetworkMessage.getSenderNode_putSenderThreadId, NetworkMessage.getSenderNode_putSenderNode,
      h.canID]
    exact message.toInt_node_of_canID

/-- Either the message is now complete or the next telegram is awaited. -/
def Advances (message : NetworkMessage) (number : Nat) (result : Bool × Reassembly) : Prop :=
  if bytesBefore (number + 1) < message.getLen.toNat then
    result.1 = false ∧ result.2.HasStored message (number + 1)
  else
    result.1 = true ∧ result.2.currentReceiveCANId = 0 ∧ message.ReceivedAs result.2.currentMsg

theorem take_append_part {bytes : List UInt8} {start stop : Nat} (hle : start ≤ stop) :
    bytes.take start ++ (bytes.take stop).drop start = bytes.take stop := by
  have hstart : bytes.take start = (bytes.take stop).take start := by
    rw [List.take_take, Nat.min_eq_left hle]
  rw [hstart, List.take_append_drop]

theorem HasStored.store (h : self.HasStored message number)
    (hcarries : telegram.Carries message number) :
    Advances message number
      (self.storeData telegram (message.telegramHead number).length).finishOrContinue := by
  have hlen := hcarries.len_eq
  have hmore := h.more
  have hgrows : bytesBefore number ≤ bytesBefore (number + 1) := by
    unfold bytesBefore
    omega
  have hlt := message.getLen.toNat_lt
  let stop := min (bytesBefore (number + 1)) message.getLen.toNat
  have hpart : telegram.len - (message.telegramHead number).length = stop - bytesBefore number := by
    omega
  have hpointer : bytesBefore number + (stop - bytesBefore number) = stop := by omega
  have hcounted := h.count
  have hcount : (self.storeData telegram
      (message.telegramHead number).length).bytesReceived.toNat = stop := by
    rw [bytesReceived_storeData (by omega) (by omega)]
    omega
  have hdata : Memory.front (self.storeData telegram
      (message.telegramHead number).length).currentMsg.userDataC stop =
        message.userData.take stop := by
    have hend : (message.telegramHead number).length + (stop - bytesBefore number) =
        telegram.len := by omega
    have hcut : message.userData.take stop = message.userData.take (bytesBefore (number + 1)) := by
      rw [← List.take_take, ← message.length_userData, List.take_length]
    show Memory.front (Memory.copy self.currentMsg.userDataC telegram.data
      self.currentDataPointer (message.telegramHead number).length
      (telegram.len - (message.telegramHead number).length)) stop = _
    have hfront := Memory.front_copy self.currentMsg.userDataC telegram.data
      (bytesBefore number) (message.telegramHead number).length (stop - bytesBefore number)
    rw [hpointer, h.userData, hend, hcarries.data_slice, take_append_part hgrows, ← hcut] at hfront
    rw [h.pointer, hpart, hfront]
  unfold Advances Reassembly.finishOrContinue
  rw [getLen_storeData, h.len]
  split
  · next hlater =>
    have hopen : ¬ (self.storeData telegram (message.telegramHead number).length).bytesReceived ≥
        message.getLen := by
      rw [ge_iff_le, UInt16.le_iff_toNat_le, hcount]
      omega
    have hstop : stop = bytesBefore (number + 1) := by omega
    rw [if_neg hopen]
    refine ⟨rfl, ⟨h.canID, ?_, ?_, hcount.trans hstop, hlater, h.len, h.topicId, h.senderNode, ?_⟩⟩
    · show self.sequenceCounter + 1 = _
      rw [h.sequenceCounter, UInt8.ofNat_add]
      rfl
    · show self.currentDataPointer + (telegram.len - (message.telegramHead number).length) = _
      rw [h.pointer, hpart, hpointer, hstop]
    · rw [hstop] at hdata
      exact hdata
  · next hlast =>
    have hfull : (self.storeData telegram (message.telegramHead number).length).bytesReceived ≥
        message.getLen := by
      rw [ge_iff_le, UInt16.le_iff_toNat_le, hcount]
      omega
    have hstop : stop = message.getLen.toNat := by omega
    rw [if_pos hfull]
    refine ⟨rfl, rfl, ?_, ?_, ?_, ?_⟩
    · rw [NetworkMessage.getLen_setCheckSum, getLen_storeData, h.len]
    · rw [NetworkMessage.userData, NetworkMessage.getLen_setCheckSum, getLen_storeData, h.len,
        NetworkMessage.userDataC_setCheckSum, ← hstop, hdata, hstop, ← message.length_userData,
        List.take_length]
    · rw [NetworkMessage.getTopicId_setCheckSum]
      exact h.topicId
    · rw [NetworkMessage.getSenderNode_setCheckSum]
      exact h.senderNode

/-- A first telegram starts its message whatever was in progress. -/
theorem append_begins (NOW : Nat → Int64) (h : telegram.Carries message 0)
    (hlen : 0 < message.getLen.toNat) :
    Advances message 0 (self.append NOW telegram) := by
  rw [append_first h.number_eq]
  exact (begin_hasStored _ h hlen).store h

/-- The next telegram of the message in progress is taken. -/
theorem HasStored.hand (h : self.HasStored message number) (telegram : Telegram) :
    (self.hand telegram).HasStored message number :=
  ⟨h.canID, h.sequenceCounter, h.pointer, h.count, h.more, h.len, h.topicId, h.senderNode,
    h.userData⟩

/-- The next telegram of the message is stored behind those before it. -/
theorem HasStored.append_eq (NOW : Nat → Int64) (h : self.HasStored message number)
    (hnumber : 0 < number) (hsmall : number < 256) (hcarries : telegram.Carries message number) :
    self.append NOW telegram = ((self.hand telegram).storeData telegram
      (message.telegramHead number).length).finishOrContinue := by
  have hnext : self.Continues telegram := by
    refine ⟨hcarries.later hnumber hsmall, ?_, hcarries.canID.trans h.canID.symm,
      hcarries.number_eq.trans h.sequenceCounter.symm⟩
    rw [h.canID]
    exact message.canID_ne_zero
  have hhead : (message.telegramHead number).length = 1 := by
    rw [NetworkMessage.telegramHead, if_neg (Nat.ne_of_gt hnumber)]
    rfl
  rw [append_next hnext, hhead]

theorem HasStored.append_continues (NOW : Nat → Int64) (h : self.HasStored message number)
    (hnumber : 0 < number) (hsmall : number < 256) (hcarries : telegram.Carries message number) :
    Advances message number (self.append NOW telegram) := by
  rw [h.append_eq NOW hnumber hsmall hcarries]
  exact (h.hand telegram).store hcarries

end Reassembly

end Rodos.Gateway
