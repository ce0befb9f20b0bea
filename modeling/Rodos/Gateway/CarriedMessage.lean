import Rodos.Gateway.Links
import Rodos.Gateway.Gateway

/-! What can be read off a message when it has crossed a link: which fields are the sender's, and
which cells are still those of the buffer it was received into. -/
namespace Rodos.Gateway
open Library

namespace LinkType

/-- The most user data that the link writes to the buffer of a message. -/
def longestUserData (link : LinkType) : Nat :=
  match link with
  | .uart => MAX_UART_MESSAGE_LENGTH - HEADER_SIZE
  | .can | .udp | .sharedMemory => MAX_NETWORK_MESSAGE_LENGTH

def senderNode (link : LinkType) (outMsg : NetworkMessage) : Int32 :=
  match link with
  | .can => (outMsg.canID &&& uint32Ones CAN_LINK_NODE_BITS).toInt32
  | .uart | .udp | .sharedMemory => outMsg.getSenderNode

def sentTime (link : LinkType) (NOW : Int64) (outMsg : NetworkMessage) : Int64 :=
  match link with
  | .can => NOW
  | .uart | .udp | .sharedMemory => outMsg.getSentTime

def topicId (link : LinkType) (outMsg : NetworkMessage) : UInt32 :=
  match link with
  | .can => (outMsg.canID >>> CAN_LINK_NODE_BITS) &&& uint32Ones CAN_LINK_TOPIC_BITS
  | .uart | .udp | .sharedMemory => outMsg.getTopicId

def maxStepsToForward (link : LinkType) (outMsg : NetworkMessage) : Int16 :=
  match link with
  | .can => 5
  | .uart | .udp | .sharedMemory => outMsg.getMaxStepsToForward

def isCheckSumOk (link : LinkType) (outMsg : NetworkMessage) : Bool :=
  match link with
  | .can => true
  | .uart | .udp | .sharedMemory => outMsg.isCheckSumOk

/-- A message that a node can send: `setUserData` admits no more user data, and the CAN link sends
no telegram for a message without any. -/
def Crosses (link : LinkType) (outMsg : NetworkMessage) : Prop :=
  outMsg.getLen.toNat ≤ MAX_NETWORK_MESSAGE_LENGTH ∧ (link = .can → 0 < outMsg.getLen.toNat)

instance (link : LinkType) (outMsg : NetworkMessage) : Decidable (link.Crosses outMsg) :=
  inferInstanceAs (Decidable (_ ∧ _))

end LinkType

/-- `message` is `outMsg` received over the link into a buffer that held `inMsg`. -/
structure Carried (link : LinkType) (NOW : Int64) (inMsg outMsg message : NetworkMessage) :
    Prop where
  senderNode : message.getSenderNode = link.senderNode outMsg
  sentTime : message.getSentTime = link.sentTime NOW outMsg
  topicId : message.getTopicId = link.topicId outMsg
  maxStepsToForward : message.getMaxStepsToForward = link.maxStepsToForward outMsg
  len : message.getLen = outMsg.getLen
  isCheckSumOk : message.isCheckSumOk = link.isCheckSumOk outMsg
  received : ∀ index < outMsg.getLen.toNat, message.userDataC index = outMsg.userDataC index
  left : ∀ index, outMsg.getLen.toNat ≤ index → message.userDataC index = inMsg.userDataC index

namespace NetworkMessage

variable {self source : NetworkMessage} {count : Nat}

theorem overwrite_header {index : Nat} (hcount : HEADER_SIZE ≤ count)
    (hindex : index < HEADER_SIZE) :
    (self.overwrite source count).header index = source.header index := by
  exact (Memory.copy_start _ _ _ _).trans (if_pos (by omega))

theorem overwrite_userDataC (index : Nat) :
    (self.overwrite source count).userDataC index =
      if index < count - HEADER_SIZE then source.userDataC index else self.userDataC index := by
  exact Memory.copy_start _ _ _ _

theorem toNat_numberOfBytesToSend_of_le
    (hlen : self.getLen.toNat ≤ MAX_NETWORK_MESSAGE_LENGTH) :
    self.numberOfBytesToSend.toNat = HEADER_SIZE + self.getLen.toNat := by
  rw [Gateway.toNat_numberOfBytesToSend, Nat.mod_eq_of_lt]
  · rfl
  · unfold MAX_NETWORK_MESSAGE_LENGTH at hlen
    omega

end NetworkMessage

namespace Carried
open NetworkMessage

variable {link : LinkType} {NOW : Int64} {slot inMsg outMsg message : NetworkMessage}

/-- A link that copies the header and the user data as they are. -/
theorem of_cells (hlink : link ≠ .can)
    (hheader : ∀ index < HEADER_SIZE, message.header index = outMsg.header index)
    (huserData : ∀ index, message.userDataC index =
      if index < outMsg.getLen.toNat then outMsg.userDataC index else inMsg.userDataC index) :
    Carried link NOW inMsg outMsg message := by
  have hsize : HEADER_SIZE = 36 := rfl
  have hlen : message.getLen = outMsg.getLen :=
    getLen_of_cells fun index _ hindex => hheader index (by omega)
  have hsender : message.getSenderNode = outMsg.getSenderNode :=
    getSenderNode_of_cells fun index _ hindex => hheader index (by omega)
  have htime : message.getSentTime = outMsg.getSentTime :=
    getSentTime_of_cells fun index _ hindex => hheader index (by omega)
  have htopic : message.getTopicId = outMsg.getTopicId :=
    getTopicId_of_cells fun index _ hindex => hheader index (by omega)
  have hsteps : message.getMaxStepsToForward = outMsg.getMaxStepsToForward :=
    getMaxStepsToForward_of_cells fun index _ hindex => hheader index (by omega)
  have hreceived : ∀ index < outMsg.getLen.toNat,
      message.userDataC index = outMsg.userDataC index := by
    intro index hindex
    rw [huserData, if_pos hindex]
  have hchecked : message.isCheckSumOk = outMsg.isCheckSumOk := by
    have hsum : message.calculateCheckSum = outMsg.calculateCheckSum := by
      apply calculateCheckSum_congr
      · exact fun index _ hindex => hheader index hindex
      · unfold userData
        rw [hlen]
        exact Memory.front_congr hreceived
    have hstored : message.getChecksum = outMsg.getChecksum :=
      getChecksum_of_cells fun index _ hindex => hheader index (by omega)
    unfold NetworkMessage.isCheckSumOk
    rw [hsum, hstored]
  have hleft : ∀ index, outMsg.getLen.toNat ≤ index →
      message.userDataC index = inMsg.userDataC index := by
    intro index hindex
    rw [huserData, if_neg (Nat.not_lt_of_le hindex)]
  cases link with
  | can => exact absurd rfl hlink
  | uart => exact ⟨hsender, htime, htopic, hsteps, hlen, hchecked, hreceived, hleft⟩
  | udp => exact ⟨hsender, htime, htopic, hsteps, hlen, hchecked, hreceived, hleft⟩
  | sharedMemory => exact ⟨hsender, htime, htopic, hsteps, hlen, hchecked, hreceived, hleft⟩

theorem preparedByCan_fields (inMsg : NetworkMessage) (id : UInt32) (len : UInt16) (NOW : Int64) :
    (inMsg.preparedByCan id len NOW).getMaxStepsToForward = 5 ∧
      (inMsg.preparedByCan id len NOW).getSentTime = NOW := by
  constructor
  · refine (getMaxStepsToForward_of_cells fun index _ hindex => ?_).trans
      (getMaxStepsToForward_putMaxStepsToForward inMsg 5)
    simp only [preparedByCan, putLen, putTopicId, putSentTime, putSenderThreadId, putSenderNode]
    rw [Memory.storeBigEndian_other _ _ (by omega), Memory.storeBigEndian_other _ _ (by omega),
      Memory.storeBigEndian_other _ _ (by omega), Memory.storeBigEndian_other _ _ (by omega),
      Memory.storeBigEndian_other _ _ (by omega)]
  · refine (getSentTime_of_cells fun index _ hindex => ?_).trans
      (getSentTime_putSentTime (((inMsg.putMaxStepsToForward 5).putSenderNode
        (id &&& uint32Ones CAN_LINK_NODE_BITS).toInt32).putSenderThreadId 0) NOW)
    simp only [preparedByCan, putLen, putTopicId]
    rw [Memory.storeBigEndian_other _ _ (by omega), Memory.storeBigEndian_other _ _ (by omega)]

theorem carriedByCan : Carried .can NOW inMsg outMsg (inMsg.carriedByCan outMsg NOW) := by
  obtain ⟨hsteps, htime⟩ := preparedByCan_fields inMsg outMsg.canID outMsg.getLen NOW
  constructor
  case senderNode =>
    rw [NetworkMessage.carriedByCan, getSenderNode_setCheckSum]
    show (inMsg.preparedByCan outMsg.canID outMsg.getLen NOW).getSenderNode = _
    simp [preparedByCan, LinkType.senderNode]
  case sentTime =>
    rw [NetworkMessage.carriedByCan, getSentTime_setCheckSum]
    exact htime
  case topicId =>
    rw [NetworkMessage.carriedByCan, getTopicId_setCheckSum]
    show (inMsg.preparedByCan outMsg.canID outMsg.getLen NOW).getTopicId = _
    simp [preparedByCan, LinkType.topicId]
  case maxStepsToForward =>
    rw [NetworkMessage.carriedByCan, getMaxStepsToForward_setCheckSum]
    exact hsteps
  case len =>
    rw [NetworkMessage.carriedByCan, getLen_setCheckSum]
    exact getLen_putLen _ _
  case isCheckSumOk => exact isCheckSumOk_setCheckSum _
  case received =>
    intro index hindex
    exact (Memory.copy_start _ _ _ _).trans (if_pos hindex)
  case left =>
    intro index hindex
    exact (Memory.copy_start _ _ _ _).trans (if_neg (Nat.not_lt_of_le hindex))

theorem assign_assign (hlink : link ≠ .can)
    (hlen : outMsg.getLen.toNat ≤ MAX_NETWORK_MESSAGE_LENGTH) :
    Carried link NOW inMsg outMsg (inMsg.assign (slot.assign outMsg)) := by
  have hcount := toNat_numberOfBytesToSend_of_le hlen
  have hslot : (slot.assign outMsg).getLen = outMsg.getLen := by
    apply getLen_of_cells
    intro index _ hindex
    rw [assign, overwrite_header (by omega) (by unfold HEADER_SIZE; omega)]
  have hslotCount := toNat_numberOfBytesToSend_of_le (hslot.symm ▸ hlen)
  rw [hslot] at hslotCount
  apply of_cells hlink
  · intro index hindex
    rw [assign, overwrite_header (by omega) hindex, assign, overwrite_header (by omega) hindex]
  · intro index
    rw [assign, overwrite_userDataC, hslotCount, Nat.add_sub_cancel_left, assign,
      overwrite_userDataC, hcount, Nat.add_sub_cancel_left]
    split <;> rfl

end Carried

/-- Unless the UART link has cut it off. -/
theorem LinkType.carried (link : LinkType) (NOW : Int64) (slot inMsg : NetworkMessage)
    {outMsg : NetworkMessage} (hlen : outMsg.getLen.toNat ≤ link.longestUserData) :
    Carried link NOW inMsg outMsg (link.carry NOW slot inMsg outMsg) := by
  cases link with
  | can => exact Carried.carriedByCan
  | uart =>
    have hfits : HEADER_SIZE + outMsg.getLen.toNat ≤ MAX_UART_MESSAGE_LENGTH := by
      unfold longestUserData HEADER_SIZE at hlen
      unfold HEADER_SIZE
      have hmax : MAX_UART_MESSAGE_LENGTH = 1300 := rfl
      dsimp only at hlen
      omega
    have hcount := NetworkMessage.toNat_numberOfBytesToSend_of_le
      (show outMsg.getLen.toNat ≤ MAX_NETWORK_MESSAGE_LENGTH from
        (Nat.le_add_left _ _).trans hfits)
    apply Carried.of_cells (by decide)
    · intro index hindex
      rw [carry, NetworkMessage.overwrite_header (by omega) hindex]
    · intro index
      rw [carry, NetworkMessage.overwrite_userDataC, hcount, Nat.min_eq_right hfits,
        Nat.add_sub_cancel_left]
  | udp => exact Carried.assign_assign (by decide) hlen
  | sharedMemory => exact Carried.assign_assign (by decide) hlen

end Rodos.Gateway
