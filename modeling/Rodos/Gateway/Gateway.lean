import Rodos.Gateway.SeenNodes
import Rodos.Gateway.TopicListReport

/-! The receiving part of `Gateway`: which messages `run` goes on with, and what it does with
them. -/
set_option linter.dupNamespace false

namespace Rodos.Gateway
open Library

structure NetMsgInfo where
  senderNode : Int32
  senderThreadId : UInt32
  sentTime : Int64
  receiverNode : Int32
  receiverNodesBitMap : UInt32
  linkId : UInt32
  messageType : UInt16

/-- A topic with `isEnabled` of each of its subscribers. -/
structure TopicInterface where
  topicId : UInt32
  msgLen : Nat
  mySubscribers : List Bool

/-- What one call of `put` hands to a subscriber: a pointer, here the bytes it points to, and how
many of them there are. -/
structure Publication where
  topicId : UInt32
  len : Nat
  data : List UInt8
  netMsgInfo : NetMsgInfo

/-- Only to the subscribers of the topic, as for messages from the network. -/
def TopicInterface.publishMsgPart (self : TopicInterface) (data : Memory UInt8) (lenToSend : Nat)
    (netMsgInfo : NetMsgInfo) : List Publication :=
  (self.mySubscribers.filter fun isEnabled => isEnabled).map fun _ =>
    ⟨self.topicId, lenToSend, data.front lenToSend, netMsgInfo⟩

def TopicInterface.publish (self : TopicInterface) (data : Memory UInt8)
    (netMsgInfo : NetMsgInfo) : List Publication :=
  self.publishMsgPart data self.msgLen netMsgInfo

/-- What the gateways of a node share and do not change. -/
structure Node where
  myNodeNr : Int32
  topicList : List TopicInterface

structure Gateway where
  networkInMessage : NetworkMessage
  externalsubscribers : TopicListReport
  forwardAll : Bool
  linkIdentifier : UInt32
  isBroadcastLink : Bool
  getTopicsToForwardFromOutside : Bool

/-- What a received message causes: `handed` goes to local subscribers, `routed` to the routers, and
`touched` are the accesses to topic lists. -/
structure Distribution where
  gateway : Gateway
  table : SeenNodes
  handed : List Publication := []
  routed : Option NetworkMessage := none
  touched : List Nat := []

namespace Gateway

def msgInfo (self : Gateway) : NetMsgInfo where
  linkId := self.linkIdentifier
  sentTime := self.networkInMessage.getSentTime
  senderNode := self.networkInMessage.getSenderNode
  senderThreadId := self.networkInMessage.getSenderThreadId
  receiverNode := self.networkInMessage.getReceiverNode
  receiverNodesBitMap := self.networkInMessage.getReceiverNodesBitMap
  messageType := self.networkInMessage.getType

/-- The list of topics expected outside, in a message of topic 0. -/
def takeTopicReport (self : Gateway) (table : SeenNodes) : Distribution :=
  let topicList := TopicListReport.ofUserData self.networkInMessage.userDataC
  let reported :=
    if self.isBroadcastLink then self.externalsubscribers.addTopicsToForward topicList
    else self.externalsubscribers.setTopicsToForward topicList
  { gateway := { self with
      externalsubscribers := reported.result
      getTopicsToForwardFromOutside := true }
    table := table
    touched := reported.touched }

def publishLocally (node : Node) (self : Gateway) (table : SeenNodes) : Distribution :=
  { gateway := self
    table := table
    handed := node.topicList.flatMap fun iter =>
      if iter.topicId = self.networkInMessage.getTopicId then
        iter.publish self.networkInMessage.userDataC self.msgInfo
      else []
    routed := some self.networkInMessage }

def analyseAndDistributeMessagesFromNetwork (node : Node) (table : SeenNodes) (self : Gateway) :
    Distribution :=
  if self.networkInMessage.getSenderNode = node.myNodeNr then { gateway := self, table := table }
  else if !self.networkInMessage.isCheckSumOk then { gateway := self, table := table }
  else
    let seen := table.messageSeen self.networkInMessage
    if seen.returned then { gateway := self, table := seen.table }
    else
      let self := { self with networkInMessage := self.networkInMessage.decMaxStepsToForward }
      let topicId := self.networkInMessage.getTopicId
      if topicId = 0 ∧ self.getTopicsToForwardFromOutside then self.takeTopicReport seen.table
      else if topicId > 0 then self.publishLocally node seen.table
      else { gateway := self, table := seen.table }

/-- The tests of `run` on the size that the link reports, -1 meaning that it does not know. -/
def sizeAccepted (msg : NetworkMessage) (realMsgSize : Int) : Bool :=
  if realMsgSize < 0 then true
  else if realMsgSize ≥ (HEADER_SIZE + MAX_NETWORK_MESSAGE_LENGTH) - MAX_NETWORK_MESSAGE_LENGTH then
    realMsgSize == msg.numberOfBytesToSend.toNat
  else false

/-- The body of `run` behind a `getNetworkMsg` that returned true and stored the message. -/
def received (node : Node) (table : SeenNodes) (self : Gateway) (networkInMessage : NetworkMessage)
    (realMsgSize : Int) : Distribution :=
  let self := { self with networkInMessage := networkInMessage }
  if sizeAccepted networkInMessage realMsgSize then
    self.analyseAndDistributeMessagesFromNetwork node table
  else { gateway := self, table := table }

/-- `run` gets as far as the checksum, the first step that reads user data. -/
def GoesOn (node : Node) (msg : NetworkMessage) (realMsgSize : Int) : Prop :=
  sizeAccepted msg realMsgSize ∧ msg.getSenderNode ≠ node.myNodeNr

instance (node : Node) (msg : NetworkMessage) (realMsgSize : Int) :
    Decidable (GoesOn node msg realMsgSize) := inferInstanceAs (Decidable (_ ∧ _))

/-- Otherwise the message is dropped without a look at its user data. -/
theorem received_of_not_goesOn {node : Node} {msg : NetworkMessage} {realMsgSize : Int}
    (table : SeenNodes) (self : Gateway) (hdropped : ¬ GoesOn node msg realMsgSize) :
    self.received node table msg realMsgSize =
      { gateway := { self with networkInMessage := msg }, table := table } := by
  unfold received
  by_cases hsize : sizeAccepted msg realMsgSize = true
  · have hself : msg.getSenderNode = node.myNodeNr := by
      by_contra hother
      exact hdropped ⟨hsize, hother⟩
    simp only [if_pos hsize, analyseAndDistributeMessagesFromNetwork, if_pos hself]
  · simp only [if_neg hsize]

theorem toNat_numberOfBytesToSend (msg : NetworkMessage) :
    msg.numberOfBytesToSend.toNat = (36 + msg.getLen.toNat) % 2 ^ 16 := by
  rw [NetworkMessage.numberOfBytesToSend, UInt16.toNat_add]
  rfl

theorem sizeAccepted_iff (msg : NetworkMessage) (realMsgSize : Int) :
    sizeAccepted msg realMsgSize ↔ realMsgSize < 0 ∨ realMsgSize = 36 + msg.getLen.toNat ∧
      realMsgSize < 2 ^ 16 := by
  have hlen := msg.getLen.toNat_lt
  have hheader : (HEADER_SIZE + MAX_NETWORK_MESSAGE_LENGTH : Int) - MAX_NETWORK_MESSAGE_LENGTH =
      36 := by decide
  unfold sizeAccepted
  rw [hheader, toNat_numberOfBytesToSend]
  split
  · simp_all
  · split
    · rw [beq_iff_eq]
      omega
    · simp only [Bool.false_eq_true, false_iff]
      omega

/-- Exactly for which messages and reported sizes the length is bounded before it is used, and for
which reported sizes whatever the message is. -/
theorem received_length_bounded_iff (node : Node) (realMsgSize : Int) :
    (∀ msg, (GoesOn node msg realMsgSize → msg.getLen.toNat ≤ MAX_NETWORK_MESSAGE_LENGTH) ↔
        msg.getSenderNode = node.myNodeNr ∨
        0 ≤ realMsgSize ∧ (realMsgSize ≤ HEADER_SIZE + MAX_NETWORK_MESSAGE_LENGTH ∨
          realMsgSize ≠ HEADER_SIZE + msg.getLen.toNat ∨ 2 ^ 16 ≤ realMsgSize) ∨
        realMsgSize < 0 ∧ msg.getLen.toNat ≤ MAX_NETWORK_MESSAGE_LENGTH) ∧
      ((∀ msg, GoesOn node msg realMsgSize → msg.getLen.toNat ≤ MAX_NETWORK_MESSAGE_LENGTH) ↔
        0 ≤ realMsgSize ∧ (realMsgSize ≤ HEADER_SIZE + MAX_NETWORK_MESSAGE_LENGTH ∨
          2 ^ 16 ≤ realMsgSize)) := by
  have hheader : HEADER_SIZE = 36 := rfl
  have hmax : MAX_NETWORK_MESSAGE_LENGTH = 1300 := rfl
  have heach : ∀ msg, (GoesOn node msg realMsgSize →
      msg.getLen.toNat ≤ MAX_NETWORK_MESSAGE_LENGTH) ↔
        msg.getSenderNode = node.myNodeNr ∨
        0 ≤ realMsgSize ∧ (realMsgSize ≤ HEADER_SIZE + MAX_NETWORK_MESSAGE_LENGTH ∨
          realMsgSize ≠ HEADER_SIZE + msg.getLen.toNat ∨ 2 ^ 16 ≤ realMsgSize) ∨
        realMsgSize < 0 ∧ msg.getLen.toNat ≤ MAX_NETWORK_MESSAGE_LENGTH := by
    intro msg
    rw [GoesOn, sizeAccepted_iff]
    by_cases hself : msg.getSenderNode = node.myNodeNr
    · simp [hself]
    · simp only [hself, ne_eq, not_false_eq_true, and_true, false_or]
      omega
  refine ⟨heach, fun hall => ?_, fun hsize msg => ?_⟩
  · by_contra hsize
    let blank : NetworkMessage := ⟨fun _ => 0, fun _ => 0⟩
    -- A message of another node, as long as the link reports or of the greatest length.
    let len := if realMsgSize < 0 then 2 ^ 16 - 1 else realMsgSize.toNat - 36
    let msg := (blank.putSenderNode (node.myNodeNr + 1)).putLen (UInt16.ofNat len)
    have hsender : msg.getSenderNode ≠ node.myNodeNr := by
      rw [NetworkMessage.getSenderNode_putLen, NetworkMessage.getSenderNode_putSenderNode]
      intro hsame
      have hone : (node.myNodeNr + 1 - node.myNodeNr : Int32) = 0 := by rw [hsame, Int32.sub_self]
      rw [Int32.add_comm, Int32.add_sub_cancel] at hone
      cases hone
    have hlen : msg.getLen.toNat = len := by
      rw [NetworkMessage.getLen_putLen, UInt16.toNat_ofNat', Nat.mod_eq_of_lt]
      show (if realMsgSize < 0 then 2 ^ 16 - 1 else realMsgSize.toNat - 36) < 2 ^ 16
      split <;> omega
    have hbound := hall msg
    rw [heach msg, hlen] at hbound
    simp only [hsender, false_or] at hbound
    revert hbound
    show ¬ (0 ≤ realMsgSize ∧ (_ ∨ _ ≠ (HEADER_SIZE : Int) +
      (if realMsgSize < 0 then 2 ^ 16 - 1 else realMsgSize.toNat - 36 : Nat) ∨ _) ∨
      realMsgSize < 0 ∧ (if realMsgSize < 0 then 2 ^ 16 - 1 else realMsgSize.toNat - 36) ≤ _)
    by_cases hnegative : realMsgSize < 0
    · rw [if_pos hnegative]
      omega
    · rw [if_neg hnegative]
      omega
  · rw [heach msg]
    omega

/-- A message of 2000 bytes, which the CAN, UDP and shared memory links hand over with size -1. -/
theorem received_length_unbounded :
    let msg := (NetworkMessage.mk (fun _ => 0) (fun _ => 0)).putLen 2000
    GoesOn ⟨1, []⟩ msg (-1) ∧ ¬ msg.getLen.toNat ≤ MAX_NETWORK_MESSAGE_LENGTH := by
  decide

end Gateway

end Rodos.Gateway
