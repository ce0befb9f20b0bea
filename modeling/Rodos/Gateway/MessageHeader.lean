import Rodos.Gateway.Router

/-! The header that `prepareNetworkMessage` writes: what the receiving gateway reads of it, and what
routers may change without a new checksum. -/
namespace Rodos.Gateway
open Library

/-- A write to a field in front of the part that the checksum covers. -/
inductive HopWrite where
  | receiverNode (x : Int32)
  | receiverNodesBitMap (x : UInt32)
  | maxStepsToForward (x : Int16)

namespace NetworkMessage

def applyHopWrite (self : NetworkMessage) : HopWrite → NetworkMessage
  | .receiverNode x => self.putReceiverNode x
  | .receiverNodesBitMap x => self.putReceiverNodesBitMap x
  | .maxStepsToForward x => self.putMaxStepsToForward x

def applyHopWrites (self : NetworkMessage) (writes : List HopWrite) : NetworkMessage :=
  writes.foldl applyHopWrite self

variable {self : NetworkMessage}

/-! ### Fields of a header -/

theorem ofNat_field (x : UInt32) : UInt32.ofNat (x.toNat % 256 ^ 4) = x := by
  have hsmall : x.toNat % 256 ^ 4 = x.toNat := Nat.mod_eq_of_lt x.toNat_lt
  rw [hsmall, UInt32.ofNat_toNat]

theorem ofNat_shortField (x : UInt16) : UInt16.ofNat (x.toNat % 256 ^ 2) = x := by
  have hsmall : x.toNat % 256 ^ 2 = x.toNat := Nat.mod_eq_of_lt x.toNat_lt
  rw [hsmall, UInt16.ofNat_toNat]

theorem ofNat_longField (x : UInt64) : UInt64.ofNat (x.toNat % 256 ^ 8) = x := by
  have hsmall : x.toNat % 256 ^ 8 = x.toNat := Nat.mod_eq_of_lt x.toNat_lt
  rw [hsmall, UInt64.ofNat_toNat]

/-- The fields of a header, by their offsets. -/
structure HeaderIs (message : NetworkMessage) (topicId : UInt32) (len : UInt16)
    (netMsgInfo : NetMsgInfo) : Prop where
  receiverNode : message.getReceiverNode = netMsgInfo.receiverNode
  receiverNodesBitMap : message.getReceiverNodesBitMap = netMsgInfo.receiverNodesBitMap
  messageType : message.getType = netMsgInfo.messageType
  len : message.getLen = len
  senderNode : message.getSenderNode = netMsgInfo.senderNode
  sentTime : message.getSentTime = netMsgInfo.sentTime
  senderThreadId : message.getSenderThreadId = netMsgInfo.senderThreadId
  topicId : message.getTopicId = topicId

/-- It is enough that the cells hold the numbers. -/
theorem HeaderIs.of_loads {topicId : UInt32} {len : UInt16} {netMsgInfo : NetMsgInfo}
    (receiverNode : self.header.loadBigEndian 0 4 =
      netMsgInfo.receiverNode.toUInt32.toNat % 256 ^ 4)
    (receiverNodesBitMap : self.header.loadBigEndian 4 4 =
      netMsgInfo.receiverNodesBitMap.toNat % 256 ^ 4)
    (messageType : self.header.loadBigEndian 12 2 = netMsgInfo.messageType.toNat % 256 ^ 2)
    (hlen : self.header.loadBigEndian 14 2 = len.toNat % 256 ^ 2)
    (senderNode : self.header.loadBigEndian 16 4 = netMsgInfo.senderNode.toUInt32.toNat % 256 ^ 4)
    (sentTime : self.header.loadBigEndian 20 8 = netMsgInfo.sentTime.toUInt64.toNat % 256 ^ 8)
    (senderThreadId : self.header.loadBigEndian 28 4 = netMsgInfo.senderThreadId.toNat % 256 ^ 4)
    (htopicId : self.header.loadBigEndian 32 4 = topicId.toNat % 256 ^ 4) :
    self.HeaderIs topicId len netMsgInfo where
  receiverNode := by
    rw [getReceiverNode, receiverNode, ofNat_field]
    exact Int32.toInt32_toUInt32 _
  receiverNodesBitMap := by rw [getReceiverNodesBitMap, receiverNodesBitMap, ofNat_field]
  messageType := by rw [getType, messageType, ofNat_shortField]
  len := by rw [getLen, hlen, ofNat_shortField]
  senderNode := by
    rw [getSenderNode, senderNode, ofNat_field]
    exact Int32.toInt32_toUInt32 _
  sentTime := by
    rw [getSentTime, sentTime, ofNat_longField]
    exact Int64.toInt64_toUInt64 _
  senderThreadId := by rw [getSenderThreadId, senderThreadId, ofNat_field]
  topicId := by rw [getTopicId, htopicId, ofNat_field]

/-- What the receiving gateway keeps of a header. -/
theorem HeaderIs.msgInfo {topicId : UInt32} {len : UInt16} {netMsgInfo : NetMsgInfo}
    (h : self.HeaderIs topicId len netMsgInfo) (gateway : Gateway) :
    ({ gateway with networkInMessage := self } : Gateway).msgInfo =
      { netMsgInfo with linkId := gateway.linkIdentifier } := by
  unfold Gateway.msgInfo
  rw [h.receiverNode, h.receiverNodesBitMap, h.messageType, h.senderNode, h.sentTime,
    h.senderThreadId]

/-! ### The prepared message -/

/-- In the order in which they are written. -/
def preparedFields (topicId : UInt32) (len : UInt16) (netMsgInfo : NetMsgInfo)
    (checkSum : UInt16) : List Memory.Field :=
  [⟨0, 4, netMsgInfo.receiverNode.toUInt32.toNat⟩, ⟨4, 4, netMsgInfo.receiverNodesBitMap.toNat⟩,
    ⟨8, 2, (10 : Int16).toUInt16.toNat⟩, ⟨16, 4, netMsgInfo.senderNode.toUInt32.toNat⟩,
    ⟨32, 4, topicId.toNat⟩, ⟨20, 8, netMsgInfo.sentTime.toUInt64.toNat⟩,
    ⟨12, 2, netMsgInfo.messageType.toNat⟩, ⟨28, 4, netMsgInfo.senderThreadId.toNat⟩,
    ⟨14, 2, len.toNat⟩, ⟨10, 2, checkSum.toNat⟩]

variable {topicId : UInt32} {data : Memory UInt8} {len : Nat} {netMsgInfo : NetMsgInfo}

theorem preparedFields_apart (length checkSum : UInt16) :
    (preparedFields topicId length netMsgInfo checkSum).Pairwise Memory.Field.Apart := by
  simp [preparedFields, Memory.Field.Apart]

theorem toNat_ofNat_len (hlen : len ≤ MAX_NETWORK_MESSAGE_LENGTH) :
    (UInt16.ofNat len).toNat = len := by
  have hmax : MAX_NETWORK_MESSAGE_LENGTH = 1300 := rfl
  rw [UInt16.toNat_ofNat']
  omega

theorem setUserData_len_of_le (hlen : len ≤ MAX_NETWORK_MESSAGE_LENGTH) :
    min (UInt16.ofNat (if len > 65535 then 65535 else len))
      (UInt16.ofNat MAX_NETWORK_MESSAGE_LENGTH) = UInt16.ofNat len := by
  have hmax : MAX_NETWORK_MESSAGE_LENGTH = 1300 := rfl
  rw [if_neg (by omega)]
  apply if_pos
  rw [UInt16.le_iff_toNat_le, UInt16.toNat_ofNat', UInt16.toNat_ofNat', hmax]
  omega

theorem header_prepareNetworkMessage (hlen : len ≤ MAX_NETWORK_MESSAGE_LENGTH) :
    ∃ checkSum, (prepareNetworkMessage self topicId data len netMsgInfo).header =
      self.header.storeFields (preparedFields topicId (UInt16.ofNat len) netMsgInfo checkSum) := by
  rw [← setUserData_len_of_le hlen]
  exact ⟨_, rfl⟩

theorem headerIs_prepareNetworkMessage (hlen : len ≤ MAX_NETWORK_MESSAGE_LENGTH) :
    (prepareNetworkMessage self topicId data len netMsgInfo).HeaderIs topicId (UInt16.ofNat len)
      netMsgInfo := by
  obtain ⟨checkSum, hheader⟩ :=
    @header_prepareNetworkMessage self topicId data len netMsgInfo hlen
  have hload : ∀ field ∈ preparedFields topicId (UInt16.ofNat len) netMsgInfo checkSum,
      (prepareNetworkMessage self topicId data len netMsgInfo).header.loadBigEndian field.offset
        field.width = field.value % 256 ^ field.width := by
    intro field hfield
    rw [hheader]
    exact Memory.loadBigEndian_storeFields _ (preparedFields_apart _ _) hfield
  simp only [preparedFields, List.forall_mem_cons] at hload
  obtain ⟨hreceiver, hbitMap, -, hsender, htopic, htime, htype, hthread, hlength, -⟩ := hload
  exact .of_loads hreceiver hbitMap htype hlength hsender htime hthread htopic

theorem userData_prepareNetworkMessage (hlen : len ≤ MAX_NETWORK_MESSAGE_LENGTH) :
    (prepareNetworkMessage self topicId data len netMsgInfo).userData = data.front len := by
  have hlength := toNat_ofNat_len hlen
  have hcopied : (prepareNetworkMessage self topicId data len netMsgInfo).userDataC =
      Memory.copy self.userDataC data 0 0 len := by
    conv_rhs => rw [← hlength, ← setUserData_len_of_le hlen]
    rfl
  rw [userData, (headerIs_prepareNetworkMessage hlen).len, hlength, hcopied]
  apply Memory.front_congr
  intro index hindex
  rw [Memory.copy_start, if_pos hindex]

theorem isCheckSumOk_prepareNetworkMessage :
    (prepareNetworkMessage self topicId data len netMsgInfo).isCheckSumOk :=
  isCheckSumOk_setCheckSum _

/-! ### On the way -/

theorem header_applyHopWrites (writes : List HopWrite) {index : Nat} (hindex : 10 ≤ index) :
    (self.applyHopWrites writes).header index = self.header index := by
  induction writes generalizing self with
  | nil => rfl
  | cons write rest ih =>
    refine (@ih (self.applyHopWrite write)).trans ?_
    cases write with
    | receiverNode x => exact Memory.storeBigEndian_other _ _ (by omega)
    | receiverNodesBitMap x => exact Memory.storeBigEndian_other _ _ (by omega)
    | maxStepsToForward x => exact Memory.storeBigEndian_other _ _ (by omega)

theorem userDataC_applyHopWrites (writes : List HopWrite) :
    (self.applyHopWrites writes).userDataC = self.userDataC := by
  induction writes generalizing self with
  | nil => rfl
  | cons write rest ih =>
    refine (@ih (self.applyHopWrite write)).trans ?_
    cases write <;> rfl

/-- Neither the checksum nor what it covers lies in front of cell 10. -/
theorem isCheckSumOk_applyHopWrites (writes : List HopWrite) :
    (self.applyHopWrites writes).isCheckSumOk = self.isCheckSumOk := by
  have hcells : ∀ index, 10 ≤ index →
      (self.applyHopWrites writes).header index = self.header index :=
    fun index hindex => header_applyHopWrites writes hindex
  have hlen : (self.applyHopWrites writes).getLen = self.getLen :=
    getLen_of_cells fun index _ _ => hcells index (by omega)
  have hchecksum : (self.applyHopWrites writes).getChecksum = self.getChecksum :=
    getChecksum_of_cells fun index hlow _ => hcells index hlow
  have hcalculated : (self.applyHopWrites writes).calculateCheckSum = self.calculateCheckSum := by
    apply calculateCheckSum_congr
    · exact fun index hlow _ => hcells index (by omega)
    · unfold userData
      rw [hlen, userDataC_applyHopWrites]
  unfold isCheckSumOk
  rw [hcalculated, hchecksum]

end NetworkMessage

open NetworkMessage

/-- The receiving gateway reads what the sender was given, and the checksum holds, also after
writes to the fields that routers change. -/
theorem prepareNetworkMessage_read_back (self : NetworkMessage) (topicId : UInt32)
    (data : Memory UInt8) (len : Nat) (netMsgInfo : NetMsgInfo) (gateway : Gateway)
    (writes : List HopWrite) (hlen : len ≤ MAX_NETWORK_MESSAGE_LENGTH) :
    let message := prepareNetworkMessage self topicId data len netMsgInfo
    message.HeaderIs topicId (UInt16.ofNat len) netMsgInfo ∧
      ({ gateway with networkInMessage := message } : Gateway).msgInfo =
        { netMsgInfo with linkId := gateway.linkIdentifier } ∧
      message.getLen.toNat = len ∧ message.userData = data.front len ∧ message.isCheckSumOk ∧
      (message.applyHopWrites writes).isCheckSumOk := by
  intro message
  have hheader : message.HeaderIs topicId (UInt16.ofNat len) netMsgInfo :=
    headerIs_prepareNetworkMessage hlen
  refine ⟨hheader, hheader.msgInfo gateway, ?_, userData_prepareNetworkMessage hlen,
    isCheckSumOk_prepareNetworkMessage, ?_⟩
  · rw [hheader.len]
    exact toNat_ofNat_len hlen
  · rw [isCheckSumOk_applyHopWrites]
    exact isCheckSumOk_prepareNetworkMessage

theorem prepareNetworkMessage_read_back_three :
    let message := prepareNetworkMessage ⟨fun _ => 0, fun _ => 0⟩ 1000 (fun _ => 7) 3
      ⟨2, 3, 4, -1, 5, 0, 0⟩
    let gateway : Gateway :=
      ⟨⟨fun _ => 0, fun _ => 0⟩, ⟨0, fun _ => 0⟩, false, 9, true, true⟩
    message.HeaderIs 1000 3 ⟨2, 3, 4, -1, 5, 0, 0⟩ ∧
      ({ gateway with networkInMessage := message } : Gateway).msgInfo =
        ⟨2, 3, 4, -1, 5, 9, 0⟩ ∧
      message.getLen.toNat = 3 ∧ message.userData = [7, 7, 7] ∧ message.isCheckSumOk ∧
      (message.applyHopWrites [.maxStepsToForward 9, .receiverNode 2]).isCheckSumOk :=
  prepareNetworkMessage_read_back _ 1000 _ 3 ⟨2, 3, 4, -1, 5, 0, 0⟩
    ⟨⟨fun _ => 0, fun _ => 0⟩, ⟨0, fun _ => 0⟩, false, 9, true, true⟩
    [.maxStepsToForward 9, .receiverNode 2] (by decide)

end Rodos.Gateway
