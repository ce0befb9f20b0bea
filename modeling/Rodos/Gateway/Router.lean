import Rodos.Gateway.SubscriberData

/-! `Router`: over which gateways of its node a message is sent on, and the messages that are made
of local topics. -/
set_option linter.dupNamespace false

namespace Rodos.Gateway
open Library

def LINK_ID_RODOS_LOCAL_BROADCAST : UInt32 := 0

/-- `netMsg` as it is filled for a topic. -/
def prepareNetworkMessage (netMsg : NetworkMessage) (topicId : UInt32) (data : Memory UInt8)
    (len : Nat) (netMsgInfo : NetMsgInfo) : NetworkMessage :=
  netMsg
    |>.putReceiverNode netMsgInfo.receiverNode
    |>.putReceiverNodesBitMap netMsgInfo.receiverNodesBitMap
    |>.putMaxStepsToForward 10
    |>.putSenderNode netMsgInfo.senderNode
    |>.putTopicId topicId
    |>.putSentTime netMsgInfo.sentTime
    |>.putType netMsgInfo.messageType
    |>.putSenderThreadId netMsgInfo.senderThreadId
    |>.setUserData data (UInt16.ofNat (if len > 65535 then 65535 else len))
    |>.setCheckSum

namespace Gateway

def shouldTopicForwarded (self : Gateway) (topicId : UInt32) : Bool :=
  if self.forwardAll then true else (self.externalsubscribers.find topicId).result

/-- The test in `put` for the messages of local topics. -/
def shouldTopicBePut (self : Gateway) (topicId : UInt32) : Bool :=
  if !self.forwardAll then
    if topicId ≠ 0 ∧ !(self.externalsubscribers.find topicId).result then false else true
  else true

end Gateway

/-- The gateways of the router, by their numbers in the node. -/
structure Router where
  gateways : List Nat
  forwardTopicReports : Bool

/-- The message as the router leaves it, and the gateways over which it is sent. -/
structure Routing where
  msg : NetworkMessage
  sentOver : List Nat

namespace Router

def shouldRouteThisMsg (self : Router) (msg : NetworkMessage) : Bool :=
  if msg.getMaxStepsToForward ≤ 0 then false
  else if msg.getTopicId = 0 ∧ !self.forwardTopicReports then false
  else true

def shouldRouteThisMsgToGateway (msg : NetworkMessage) (linkid : UInt32) (gateway : Gateway) :
    Bool :=
  if gateway.linkIdentifier = linkid then false
  else gateway.shouldTopicForwarded msg.getTopicId

def routeMsg (self : Router) (gateways : Nat → Gateway) (msg : NetworkMessage) (linkid : UInt32) :
    Routing :=
  if self.shouldRouteThisMsg msg then
    let msg := msg.setCheckSum
    ⟨msg, self.gateways.filter fun i => shouldRouteThisMsgToGateway msg linkid (gateways i)⟩
  else ⟨msg, []⟩

variable {self : Router} {gateways : Nat → Gateway} {msg : NetworkMessage} {linkid : UInt32}

theorem routeMsg_sublist : (self.routeMsg gateways msg linkid).sentOver.Sublist self.gateways := by
  unfold routeMsg
  split
  · exact List.filter_sublist
  · exact List.nil_sublist _

theorem routeMsg_maxStepsToForward :
    (self.routeMsg gateways msg linkid).msg.getMaxStepsToForward = msg.getMaxStepsToForward := by
  unfold routeMsg
  split
  · exact NetworkMessage.getMaxStepsToForward_setCheckSum msg
  · rfl

theorem routeMsg_len : (self.routeMsg gateways msg linkid).msg.getLen = msg.getLen := by
  unfold routeMsg
  split
  · exact NetworkMessage.getLen_setCheckSum msg
  · rfl

/-- Only messages with steps left are sent on. -/
theorem maxStepsToForward_pos
    (hsent : (self.routeMsg gateways msg linkid).sentOver ≠ []) :
    0 < msg.getMaxStepsToForward.toInt := by
  have hroutes : self.shouldRouteThisMsg msg = true := by
    by_contra hstays
    rw [routeMsg, if_neg hstays] at hsent
    exact hsent rfl
  by_contra hspent
  have hle : msg.getMaxStepsToForward ≤ 0 := by
    rw [Int16.le_iff_toInt_le]
    exact Int.not_lt.mp hspent
  rw [shouldRouteThisMsg, if_pos hle] at hroutes
  cases hroutes

end Router

@[simp] theorem getMaxStepsToForward_decMaxStepsToForward (msg : NetworkMessage) :
    msg.decMaxStepsToForward.getMaxStepsToForward = msg.getMaxStepsToForward - 1 :=
  NetworkMessage.getMaxStepsToForward_putMaxStepsToForward _ _

@[simp] theorem getLen_decMaxStepsToForward (msg : NetworkMessage) :
    msg.decMaxStepsToForward.getLen = msg.getLen :=
  NetworkMessage.getLen_of_cells fun _ _ _ => Memory.storeBigEndian_other _ _ (by omega)

/-- A message starts with ten steps, whatever the buffer held. -/
theorem getMaxStepsToForward_prepareNetworkMessage (netMsg : NetworkMessage) (topicId : UInt32)
    (data : Memory UInt8) (len : Nat) (netMsgInfo : NetMsgInfo) :
    (prepareNetworkMessage netMsg topicId data len netMsgInfo).getMaxStepsToForward = 10 := by
  rw [prepareNetworkMessage, NetworkMessage.getMaxStepsToForward_setCheckSum]
  refine (NetworkMessage.getMaxStepsToForward_of_cells fun index hlow hhigh => ?_).trans
    (NetworkMessage.getMaxStepsToForward_putMaxStepsToForward ((netMsg.putReceiverNode
      netMsgInfo.receiverNode).putReceiverNodesBitMap netMsgInfo.receiverNodesBitMap) 10)
  simp only [NetworkMessage.setUserData, NetworkMessage.putLen, NetworkMessage.putSenderThreadId,
    NetworkMessage.putType, NetworkMessage.putSentTime, NetworkMessage.putTopicId,
    NetworkMessage.putSenderNode]
  rw [Memory.storeBigEndian_other _ _ (by omega), Memory.storeBigEndian_other _ _ (by omega),
    Memory.storeBigEndian_other _ _ (by omega), Memory.storeBigEndian_other _ _ (by omega),
    Memory.storeBigEndian_other _ _ (by omega), Memory.storeBigEndian_other _ _ (by omega)]

theorem getLen_prepareNetworkMessage_le (netMsg : NetworkMessage) (topicId : UInt32)
    (data : Memory UInt8) (len : Nat) (netMsgInfo : NetMsgInfo) :
    (prepareNetworkMessage netMsg topicId data len netMsgInfo).getLen.toNat ≤
      MAX_NETWORK_MESSAGE_LENGTH := by
  have hlimited : ∀ x : UInt16, (min x (UInt16.ofNat MAX_NETWORK_MESSAGE_LENGTH)).toNat ≤
      MAX_NETWORK_MESSAGE_LENGTH := by
    intro x
    show (if x ≤ UInt16.ofNat MAX_NETWORK_MESSAGE_LENGTH then x
      else UInt16.ofNat MAX_NETWORK_MESSAGE_LENGTH).toNat ≤ _
    split
    · next hle => exact UInt16.le_iff_toNat_le.mp hle
    · exact Nat.le_refl _
  rw [prepareNetworkMessage, NetworkMessage.getLen_setCheckSum, NetworkMessage.setUserData,
    NetworkMessage.getLen_putLen]
  exact hlimited _

end Rodos.Gateway
