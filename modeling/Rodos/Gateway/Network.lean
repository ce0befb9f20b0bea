import Rodos.Gateway.Router

/-! Nodes that each run gateways and a router, and what is under way between them. A message that is
sent over a link is one packet for every gateway that it arrives at, and packets are delivered in
any order. -/
namespace Rodos.Gateway
open Library

/-- A gateway of a node, both by their numbers. -/
structure Place where
  node : Nat
  gateway : Nat
  deriving DecidableEq

structure Network where
  node : Nat → Node
  router : Nat → Router
  /-- The gateways of a node that send the messages of local topics themselves. -/
  enabled : Nat → List Nat
  link : Place → LinkType
  /-- The gateways at which arrives what this one sends. -/
  receivers : Place → List Place

/-- How often it has been forwarded, and how many CAN links it has crossed, is counted for the
statements only. -/
structure Packet where
  link : LinkType
  outMsg : NetworkMessage
  crosses : link.Crosses outMsg
  receiver : Place
  forwards : Nat
  cans : Nat

/-- The CAN links crossed when this one has been. -/
def Packet.cansCrossed (self : Packet) : Nat :=
  self.cans + if self.link = .can then 1 else 0

/-- `sent` counts the calls of `sendNetworkMsg`. -/
structure NetworkState where
  gateways : Place → Gateway
  tables : Nat → SeenNodes
  inFlight : List Packet
  sent : Nat

/-- A packet by its position, with the time at which its message is complete and the entry of the
fifo that it takes. -/
structure Delivery where
  index : Nat
  NOW : Int64
  slot : NetworkMessage

/-- The messages that the routers are given are no longer than what has arrived. -/
theorem len_of_routed {node : Node} {state : Gateway × SeenNodes} {link : LinkType}
    {arrival : Arrival link} {msg : NetworkMessage}
    (hrouted : (Gateway.arrive node state arrival).routed = some msg) :
    msg = (Gateway.arrived state arrival).decMaxStepsToForward ∧
      Gateway.Accepted node state arrival ∧
      msg.getLen.toNat ≤ MAX_NETWORK_MESSAGE_LENGTH := by
  have haccepted : Gateway.Accepted node state arrival := by
    rw [Gateway.Accepted, hrouted]
    rfl
  have hmsg : msg = (Gateway.arrived state arrival).decMaxStepsToForward := by
    have hdistribution : Gateway.arrive node state arrival = _ :=
      Gateway.received_of_passes haccepted.passes
    rw [hdistribution] at hrouted
    exact (Option.some.inj hrouted).symm
  refine ⟨hmsg, haccepted, ?_⟩
  rw [hmsg, getLen_decMaxStepsToForward, haccepted.carried.len]
  exact arrival.crosses.1

namespace Network

/-- One call of `sendNetworkMsg`; the CAN link sends nothing for a message without user data. -/
def transmit (network : Network) (msg : NetworkMessage)
    (hlen : msg.getLen.toNat ≤ MAX_NETWORK_MESSAGE_LENGTH) (forwards cans : Nat)
    (sender : Place) : List Packet :=
  if hnonempty : network.link sender = .can → 0 < msg.getLen.toNat then
    (network.receivers sender).map fun receiver =>
      ⟨network.link sender, msg, ⟨hlen, hnonempty⟩, receiver, forwards, cans⟩
  else []

/-- What a node sends over the gateways that its router has chosen. -/
def sendOver (network : Network) (routing : Routing)
    (hlen : routing.msg.getLen.toNat ≤ MAX_NETWORK_MESSAGE_LENGTH) (forwards cans node : Nat) :
    List Packet :=
  routing.sentOver.flatMap fun i => network.transmit routing.msg hlen forwards cans ⟨node, i⟩

/-- A packet arrives, and its message is distributed and routed. -/
def deliver (network : Network) (state : NetworkState) (packet : Packet) (others : List Packet)
    (NOW : Int64) (slot : NetworkMessage) : NetworkState :=
  let place := packet.receiver
  let distribution := Gateway.arrive (network.node place.node)
    (state.gateways place, state.tables place.node)
    (⟨NOW, slot, packet.outMsg, packet.crosses⟩ : Arrival packet.link)
  let tables := Function.update state.tables place.node distribution.table
  let gateways := Function.update state.gateways place distribution.gateway
  match hrouted : distribution.routed with
  | none => ⟨gateways, tables, others, state.sent⟩
  | some msg =>
    let routing := (network.router place.node).routeMsg (fun i => gateways ⟨place.node, i⟩) msg
      distribution.gateway.linkIdentifier
    { gateways := Function.update gateways place
        { distribution.gateway with networkInMessage := routing.msg }
      tables := tables
      inFlight :=
        network.sendOver routing (Router.routeMsg_len.symm ▸ (len_of_routed hrouted).2.2)
          (packet.forwards + 1) packet.cansCrossed place.node ++ others
      sent := state.sent + routing.sentOver.length }

def step (network : Network) (state : NetworkState) (delivery : Delivery) : Option NetworkState :=
  match state.inFlight[delivery.index]? with
  | none => none
  | some packet => some (network.deliver state packet (state.inFlight.eraseIdx delivery.index)
      delivery.NOW delivery.slot)

/-- A local topic is published at a node while nothing is under way: its enabled gateways put it
into their own buffers and send it, and so does its router over its gateways. -/
def publish (network : Network) (gateways : Place → Gateway) (tables : Nat → SeenNodes)
    (networkOutMessage : Nat → NetworkMessage) (localMessage : NetworkMessage) (origin : Nat)
    (topicId : UInt32) (data : Memory UInt8) (len : Nat) (netMsgInfo : NetMsgInfo) :
    NetworkState :=
  let own := (network.enabled origin).filter fun i =>
    (gateways ⟨origin, i⟩).shouldTopicBePut topicId
  let routing := (network.router origin).routeMsg (fun i => gateways ⟨origin, i⟩)
    (prepareNetworkMessage localMessage topicId data len netMsgInfo) LINK_ID_RODOS_LOCAL_BROADCAST
  { gateways := gateways
    tables := tables
    inFlight :=
      own.flatMap (fun i =>
        network.transmit (prepareNetworkMessage (networkOutMessage i) topicId data len netMsgInfo)
          (getLen_prepareNetworkMessage_le _ _ _ _ _) 0 0 ⟨origin, i⟩) ++
      network.sendOver routing
        (Router.routeMsg_len.symm ▸ getLen_prepareNetworkMessage_le _ _ _ _ _) 0 0 origin
    sent := own.length + routing.sentOver.length }

end Network

end Rodos.Gateway
