import Rodos.Library.BigEndian

/-! `NetworkMessage`: a serialised header followed by the user data, and the CAN id under which
the CAN link sends it. -/
namespace Rodos.Gateway
open Library

def MAX_NETWORK_MESSAGE_LENGTH : Nat := 1300
def HEADER_SIZE : Nat := 36
def CAN_LINK_NODE_BITS : UInt32 := 8
def CAN_LINK_TOPIC_BITS : UInt32 := 16
def CAN_LINK_ID : UInt32 := 0x1C <<< (CAN_LINK_NODE_BITS + CAN_LINK_TOPIC_BITS)

def uint32Ones (n : UInt32) : UInt32 := (1 <<< n) - 1

def rotateRight (c : UInt16) : UInt16 :=
  if c &&& 0x01 ≠ 0 then (c >>> 1) ||| 0x8000 else c >>> 1

def checkSum (data : List UInt8) : UInt16 :=
  data.foldl (fun checksum byte => rotateRight checksum + byte.toUInt16) 0

structure NetworkMessage where
  header : Memory UInt8
  userDataC : Memory UInt8

namespace NetworkMessage

def putReceiverNode (self : NetworkMessage) (x : Int32) : NetworkMessage :=
  { self with header := self.header.storeBigEndian 0 4 x.toUInt32.toNat }

def putReceiverNodesBitMap (self : NetworkMessage) (x : UInt32) : NetworkMessage :=
  { self with header := self.header.storeBigEndian 4 4 x.toNat }

def putMaxStepsToForward (self : NetworkMessage) (x : Int16) : NetworkMessage :=
  { self with header := self.header.storeBigEndian 8 2 x.toUInt16.toNat }

def putCheckSum (self : NetworkMessage) (x : UInt16) : NetworkMessage :=
  { self with header := self.header.storeBigEndian 10 2 x.toNat }

def putType (self : NetworkMessage) (x : UInt16) : NetworkMessage :=
  { self with header := self.header.storeBigEndian 12 2 x.toNat }

def putLen (self : NetworkMessage) (x : UInt16) : NetworkMessage :=
  { self with header := self.header.storeBigEndian 14 2 x.toNat }

def putSenderNode (self : NetworkMessage) (x : Int32) : NetworkMessage :=
  { self with header := self.header.storeBigEndian 16 4 x.toUInt32.toNat }

def putSentTime (self : NetworkMessage) (x : Int64) : NetworkMessage :=
  { self with header := self.header.storeBigEndian 20 8 x.toUInt64.toNat }

def putSenderThreadId (self : NetworkMessage) (x : UInt32) : NetworkMessage :=
  { self with header := self.header.storeBigEndian 28 4 x.toNat }

def putTopicId (self : NetworkMessage) (x : UInt32) : NetworkMessage :=
  { self with header := self.header.storeBigEndian 32 4 x.toNat }

def getReceiverNode (self : NetworkMessage) : Int32 :=
  (UInt32.ofNat (self.header.loadBigEndian 0 4)).toInt32

def getReceiverNodesBitMap (self : NetworkMessage) : UInt32 :=
  UInt32.ofNat (self.header.loadBigEndian 4 4)

def getMaxStepsToForward (self : NetworkMessage) : Int16 :=
  (UInt16.ofNat (self.header.loadBigEndian 8 2)).toInt16

def getChecksum (self : NetworkMessage) : UInt16 := UInt16.ofNat (self.header.loadBigEndian 10 2)

def getType (self : NetworkMessage) : UInt16 := UInt16.ofNat (self.header.loadBigEndian 12 2)

def getLen (self : NetworkMessage) : UInt16 := UInt16.ofNat (self.header.loadBigEndian 14 2)

def getSenderNode (self : NetworkMessage) : Int32 :=
  (UInt32.ofNat (self.header.loadBigEndian 16 4)).toInt32

def getSentTime (self : NetworkMessage) : Int64 :=
  (UInt64.ofNat (self.header.loadBigEndian 20 8)).toInt64

def getSenderThreadId (self : NetworkMessage) : UInt32 :=
  UInt32.ofNat (self.header.loadBigEndian 28 4)

def getTopicId (self : NetworkMessage) : UInt32 := UInt32.ofNat (self.header.loadBigEndian 32 4)

def decMaxStepsToForward (self : NetworkMessage) : NetworkMessage :=
  self.putMaxStepsToForward (self.getMaxStepsToForward - 1)

/-- Over the header from `type` on and the user data behind it. -/
def calculateCheckSum (self : NetworkMessage) : UInt16 :=
  checkSum ((self.header.front HEADER_SIZE).drop 12 ++ self.userDataC.front self.getLen.toNat)

def setCheckSum (self : NetworkMessage) : NetworkMessage :=
  self.putCheckSum self.calculateCheckSum

def isCheckSumOk (self : NetworkMessage) : Bool := self.calculateCheckSum == self.getChecksum

def numberOfBytesToSend (self : NetworkMessage) : UInt16 := UInt16.ofNat HEADER_SIZE + self.getLen

def setUserData (self : NetworkMessage) (data : Memory UInt8) (len : UInt16) : NetworkMessage :=
  let len := min len (UInt16.ofNat MAX_NETWORK_MESSAGE_LENGTH)
  { self with userDataC := Memory.copy self.userDataC data 0 0 len.toNat }.putLen len

/-- The first `count` bytes of the object, header first, are copied from another one. -/
def overwrite (self source : NetworkMessage) (count : Nat) : NetworkMessage where
  header := Memory.copy self.header source.header 0 0 (min count HEADER_SIZE)
  userDataC := Memory.copy self.userDataC source.userDataC 0 0 (count - HEADER_SIZE)

/-- `operator=` copies only the bytes to send. -/
def assign (self oldMsg : NetworkMessage) : NetworkMessage :=
  self.overwrite oldMsg oldMsg.numberOfBytesToSend.toNat

def userData (self : NetworkMessage) : List UInt8 := self.userDataC.front self.getLen.toNat

/-- `CAN_LINK_ID | (topicId << CAN_LINK_NODE_BITS) | senderNode` of `sendNetworkMsg`. -/
def canID (self : NetworkMessage) : UInt32 :=
  let senderNode := self.getSenderNode.toUInt32 &&& uint32Ones CAN_LINK_NODE_BITS
  let topicId := self.getTopicId &&& uint32Ones CAN_LINK_TOPIC_BITS
  CAN_LINK_ID ||| (topicId <<< CAN_LINK_NODE_BITS) ||| senderNode

theorem getLen_of_cells {left right : NetworkMessage}
    (hcells : ∀ index, 14 ≤ index → index < 16 → left.header index = right.header index) :
    left.getLen = right.getLen := by
  unfold getLen
  rw [Memory.loadBigEndian_congr hcells]

theorem getSenderNode_of_cells {left right : NetworkMessage}
    (hcells : ∀ index, 16 ≤ index → index < 20 → left.header index = right.header index) :
    left.getSenderNode = right.getSenderNode := by
  unfold getSenderNode
  rw [Memory.loadBigEndian_congr hcells]

theorem getTopicId_of_cells {left right : NetworkMessage}
    (hcells : ∀ index, 32 ≤ index → index < 36 → left.header index = right.header index) :
    left.getTopicId = right.getTopicId := by
  unfold getTopicId
  rw [Memory.loadBigEndian_congr hcells]

theorem getSentTime_of_cells {left right : NetworkMessage}
    (hcells : ∀ index, 20 ≤ index → index < 28 → left.header index = right.header index) :
    left.getSentTime = right.getSentTime := by
  unfold getSentTime
  rw [Memory.loadBigEndian_congr hcells]

theorem getMaxStepsToForward_of_cells {left right : NetworkMessage}
    (hcells : ∀ index, 8 ≤ index → index < 10 → left.header index = right.header index) :
    left.getMaxStepsToForward = right.getMaxStepsToForward := by
  unfold getMaxStepsToForward
  rw [Memory.loadBigEndian_congr hcells]

theorem getChecksum_of_cells {left right : NetworkMessage}
    (hcells : ∀ index, 10 ≤ index → index < 12 → left.header index = right.header index) :
    left.getChecksum = right.getChecksum := by
  unfold getChecksum
  rw [Memory.loadBigEndian_congr hcells]

@[simp] theorem getLen_putLen (self : NetworkMessage) (x : UInt16) :
    (self.putLen x).getLen = x := by
  have hsmall : x.toNat % 256 ^ 2 = x.toNat := Nat.mod_eq_of_lt x.toNat_lt
  rw [getLen, putLen, Memory.loadBigEndian_storeBigEndian, hsmall]
  exact UInt16.ofNat_toNat

@[simp] theorem getSenderNode_putSenderNode (self : NetworkMessage) (x : Int32) :
    (self.putSenderNode x).getSenderNode = x := by
  have hsmall : x.toUInt32.toNat % 256 ^ 4 = x.toUInt32.toNat :=
    Nat.mod_eq_of_lt x.toUInt32.toNat_lt
  rw [getSenderNode, putSenderNode, Memory.loadBigEndian_storeBigEndian, hsmall,
    UInt32.ofNat_toNat]
  exact Int32.toInt32_toUInt32 x

@[simp] theorem getTopicId_putTopicId (self : NetworkMessage) (x : UInt32) :
    (self.putTopicId x).getTopicId = x := by
  have hsmall : x.toNat % 256 ^ 4 = x.toNat := Nat.mod_eq_of_lt x.toNat_lt
  rw [getTopicId, putTopicId, Memory.loadBigEndian_storeBigEndian, hsmall]
  exact UInt32.ofNat_toNat

@[simp] theorem getSentTime_putSentTime (self : NetworkMessage) (x : Int64) :
    (self.putSentTime x).getSentTime = x := by
  have hsmall : x.toUInt64.toNat % 256 ^ 8 = x.toUInt64.toNat :=
    Nat.mod_eq_of_lt x.toUInt64.toNat_lt
  rw [getSentTime, putSentTime, Memory.loadBigEndian_storeBigEndian, hsmall, UInt64.ofNat_toNat]
  exact Int64.toInt64_toUInt64 x

@[simp] theorem getMaxStepsToForward_putMaxStepsToForward (self : NetworkMessage) (x : Int16) :
    (self.putMaxStepsToForward x).getMaxStepsToForward = x := by
  have hsmall : x.toUInt16.toNat % 256 ^ 2 = x.toUInt16.toNat :=
    Nat.mod_eq_of_lt x.toUInt16.toNat_lt
  rw [getMaxStepsToForward, putMaxStepsToForward, Memory.loadBigEndian_storeBigEndian, hsmall,
    UInt16.ofNat_toNat]
  exact Int16.toInt16_toUInt16 x

@[simp] theorem getChecksum_putCheckSum (self : NetworkMessage) (x : UInt16) :
    (self.putCheckSum x).getChecksum = x := by
  have hsmall : x.toNat % 256 ^ 2 = x.toNat := Nat.mod_eq_of_lt x.toNat_lt
  rw [getChecksum, putCheckSum, Memory.loadBigEndian_storeBigEndian, hsmall]
  exact UInt16.ofNat_toNat

@[simp] theorem getLen_putTopicId (self : NetworkMessage) (x : UInt32) :
    (self.putTopicId x).getLen = self.getLen :=
  getLen_of_cells fun _ _ _ => Memory.storeBigEndian_other _ _ (by omega)

@[simp] theorem getTopicId_putLen (self : NetworkMessage) (x : UInt16) :
    (self.putLen x).getTopicId = self.getTopicId :=
  getTopicId_of_cells fun _ _ _ => Memory.storeBigEndian_other _ _ (by omega)

@[simp] theorem getSenderNode_putLen (self : NetworkMessage) (x : UInt16) :
    (self.putLen x).getSenderNode = self.getSenderNode :=
  getSenderNode_of_cells fun _ _ _ => Memory.storeBigEndian_other _ _ (by omega)

@[simp] theorem getSenderNode_putTopicId (self : NetworkMessage) (x : UInt32) :
    (self.putTopicId x).getSenderNode = self.getSenderNode :=
  getSenderNode_of_cells fun _ _ _ => Memory.storeBigEndian_other _ _ (by omega)

@[simp] theorem getSenderNode_putSentTime (self : NetworkMessage) (x : Int64) :
    (self.putSentTime x).getSenderNode = self.getSenderNode :=
  getSenderNode_of_cells fun _ _ _ => Memory.storeBigEndian_other _ _ (by omega)

@[simp] theorem getSenderNode_putSenderThreadId (self : NetworkMessage) (x : UInt32) :
    (self.putSenderThreadId x).getSenderNode = self.getSenderNode :=
  getSenderNode_of_cells fun _ _ _ => Memory.storeBigEndian_other _ _ (by omega)

@[simp] theorem getLen_setCheckSum (self : NetworkMessage) :
    self.setCheckSum.getLen = self.getLen :=
  getLen_of_cells fun _ _ _ => Memory.storeBigEndian_other _ _ (by omega)

@[simp] theorem getSenderNode_setCheckSum (self : NetworkMessage) :
    self.setCheckSum.getSenderNode = self.getSenderNode :=
  getSenderNode_of_cells fun _ _ _ => Memory.storeBigEndian_other _ _ (by omega)

@[simp] theorem getTopicId_setCheckSum (self : NetworkMessage) :
    self.setCheckSum.getTopicId = self.getTopicId :=
  getTopicId_of_cells fun _ _ _ => Memory.storeBigEndian_other _ _ (by omega)

@[simp] theorem getSentTime_setCheckSum (self : NetworkMessage) :
    self.setCheckSum.getSentTime = self.getSentTime :=
  getSentTime_of_cells fun _ _ _ => Memory.storeBigEndian_other _ _ (by omega)

@[simp] theorem getMaxStepsToForward_setCheckSum (self : NetworkMessage) :
    self.setCheckSum.getMaxStepsToForward = self.getMaxStepsToForward :=
  getMaxStepsToForward_of_cells fun _ _ _ => Memory.storeBigEndian_other _ _ (by omega)

@[simp] theorem userDataC_setCheckSum (self : NetworkMessage) :
    self.setCheckSum.userDataC = self.userDataC := rfl

/-- The checksum covers the header from cell 12 on and the user data. -/
theorem calculateCheckSum_congr {left right : NetworkMessage}
    (hheader : ∀ index, 12 ≤ index → index < HEADER_SIZE → left.header index = right.header index)
    (huserData : left.userData = right.userData) :
    left.calculateCheckSum = right.calculateCheckSum := by
  have hheads : (left.header.front HEADER_SIZE).drop 12 =
      (right.header.front HEADER_SIZE).drop 12 := by
    apply List.ext_getElem?
    intro index
    rw [List.getElem?_drop, List.getElem?_drop, Memory.getElem?_front, Memory.getElem?_front]
    split
    · next hindex => rw [hheader (12 + index) (by omega) hindex]
    · rfl
  unfold calculateCheckSum
  rw [hheads]
  exact congrArg (fun data => checkSum (_ ++ data)) huserData

theorem calculateCheckSum_setCheckSum (self : NetworkMessage) :
    self.setCheckSum.calculateCheckSum = self.calculateCheckSum := by
  apply calculateCheckSum_congr
  · exact fun index hlow _ => Memory.storeBigEndian_other _ _ (by omega)
  · rw [userData, getLen_setCheckSum]
    rfl

theorem isCheckSumOk_setCheckSum (self : NetworkMessage) : self.setCheckSum.isCheckSumOk := by
  rw [isCheckSumOk, calculateCheckSum_setCheckSum, setCheckSum, getChecksum_putCheckSum]
  exact beq_self_eq_true _

end NetworkMessage

theorem uint32Ones_node_bit {bit : Nat} (hbit : bit < 32) :
    (uint32Ones CAN_LINK_NODE_BITS).toBitVec.getLsbD bit = decide (bit < 8) := by
  revert bit
  decide

theorem uint32Ones_topic_bit {bit : Nat} (hbit : bit < 32) :
    (uint32Ones CAN_LINK_TOPIC_BITS).toBitVec.getLsbD bit = decide (bit < 16) := by
  revert bit
  decide

theorem CAN_LINK_ID_bit {bit : Nat} (hbit : bit < 24) :
    CAN_LINK_ID.toBitVec.getLsbD bit = false := by
  revert bit
  decide

theorem NetworkMessage.canID_bit (m : NetworkMessage) {bit : Nat} (hbit : bit < 32) :
    m.canID.toBitVec.getLsbD bit =
      (CAN_LINK_ID.toBitVec.getLsbD bit ||
        !decide (bit < 8) && (m.getTopicId.toBitVec.getLsbD (bit - 8) && decide (bit - 8 < 16)) ||
        m.getSenderNode.toUInt32.toBitVec.getLsbD bit && decide (bit < 8)) := by
  have hshift : (CAN_LINK_NODE_BITS.toBitVec % 32).toNat = 8 := by decide
  have hbound : decide (bit < 32) = true := decide_eq_true hbit
  simp only [canID, UInt32.toBitVec_or, UInt32.toBitVec_and, UInt32.toBitVec_shiftLeft,
    BitVec.getLsbD_or, BitVec.getLsbD_and, BitVec.shiftLeft_eq', hshift, BitVec.getLsbD_shiftLeft,
    uint32Ones_node_bit hbit, uint32Ones_topic_bit (show bit - 8 < 32 by omega), hbound,
    Bool.true_and]

/-- The fields that a message's CAN id carries can be read off the id. -/
theorem NetworkMessage.canID_node (m : NetworkMessage) :
    m.canID &&& uint32Ones CAN_LINK_NODE_BITS =
      m.getSenderNode.toUInt32 &&& uint32Ones CAN_LINK_NODE_BITS := by
  apply UInt32.toBitVec_inj.mp
  apply BitVec.eq_of_getLsbD_eq
  intro bit hbit
  rw [UInt32.toBitVec_and, UInt32.toBitVec_and, BitVec.getLsbD_and, BitVec.getLsbD_and,
    uint32Ones_node_bit hbit, m.canID_bit hbit]
  by_cases hlow : bit < 8
  · simp [hlow, CAN_LINK_ID_bit (show bit < 24 by omega)]
  · simp [hlow]

theorem NetworkMessage.canID_topic (m : NetworkMessage) :
    (m.canID >>> CAN_LINK_NODE_BITS) &&& uint32Ones CAN_LINK_TOPIC_BITS =
      m.getTopicId &&& uint32Ones CAN_LINK_TOPIC_BITS := by
  apply UInt32.toBitVec_inj.mp
  apply BitVec.eq_of_getLsbD_eq
  intro bit hbit
  have hshift : (CAN_LINK_NODE_BITS.toBitVec % 32).toNat = 8 := by decide
  rw [UInt32.toBitVec_and, UInt32.toBitVec_and, BitVec.getLsbD_and, BitVec.getLsbD_and,
    uint32Ones_topic_bit hbit, UInt32.toBitVec_shiftRight, BitVec.ushiftRight_eq',
    BitVec.getLsbD_ushiftRight, hshift]
  by_cases hlow : bit < 16
  · rw [m.canID_bit (show 8 + bit < 32 by omega), CAN_LINK_ID_bit (show 8 + bit < 24 by omega)]
    simp [hlow]
  · simp [hlow]

theorem NetworkMessage.canID_ne_zero (m : NetworkMessage) : m.canID ≠ 0 := by
  intro hzero
  have hlink : CAN_LINK_ID.toBitVec.getLsbD 26 = true := by decide
  have hbit := m.canID_bit (show 26 < 32 by decide)
  rw [hzero, hlink] at hbit
  simp at hbit

theorem toNat_and_topicOnes (topicId : UInt32) :
    (topicId &&& uint32Ones CAN_LINK_TOPIC_BITS).toNat = topicId.toNat % 2 ^ 16 := by
  have hones : (uint32Ones CAN_LINK_TOPIC_BITS).toNat = 2 ^ 16 - 1 := by decide
  rw [UInt32.toNat_and, hones, Nat.and_two_pow_sub_one_eq_mod]

theorem toNat_and_nodeOnes (node : UInt32) :
    (node &&& uint32Ones CAN_LINK_NODE_BITS).toNat = node.toNat % 2 ^ 8 := by
  have hones : (uint32Ones CAN_LINK_NODE_BITS).toNat = 2 ^ 8 - 1 := by decide
  rw [UInt32.toNat_and, hones, Nat.and_two_pow_sub_one_eq_mod]

theorem toInt_eq_toNat_toUInt32 (node : Int32) :
    node.toInt = if 2 * node.toUInt32.toNat < 2 ^ 32 then (node.toUInt32.toNat : Int)
      else node.toUInt32.toNat - 2 ^ 32 :=
  BitVec.toInt_eq_toNat_cond _

theorem NetworkMessage.toNat_topic_of_canID (m : NetworkMessage) :
    ((m.canID >>> CAN_LINK_NODE_BITS) &&& uint32Ones CAN_LINK_TOPIC_BITS).toNat =
      m.getTopicId.toNat % 2 ^ 16 := by
  rw [m.canID_topic, toNat_and_topicOnes]

theorem NetworkMessage.toInt_node_of_canID (m : NetworkMessage) :
    (m.canID &&& uint32Ones CAN_LINK_NODE_BITS).toInt32.toInt = m.getSenderNode.toInt % 2 ^ 8 := by
  have hmask : (m.canID &&& uint32Ones CAN_LINK_NODE_BITS).toInt32.toUInt32.toNat =
      m.getSenderNode.toUInt32.toNat % 2 ^ 8 := by
    rw [UInt32.toUInt32_toInt32, m.canID_node, toNat_and_nodeOnes]
  rw [toInt_eq_toNat_toUInt32, toInt_eq_toNat_toUInt32, hmask]
  split <;> split <;> omega

end Rodos.Gateway
