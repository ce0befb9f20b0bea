import Rodos.Gateway.Network
import Rodos.Library.Runs
import Mathlib.Algebra.Order.BigOperators.Group.List

/-! How often a message is forwarded on its way, and how many transmissions it causes at most. The
CAN link does not carry the steps that a message has left, and gives it five. -/
namespace Rodos.Gateway
open Library

/-- A packet has steps left, and has gained at most four with each CAN link it has crossed. -/
def Packet.WithinSteps (self : Packet) : Prop :=
  0 < self.outMsg.getMaxStepsToForward.toInt ∧
    self.outMsg.getMaxStepsToForward.toInt + self.forwards ≤ 10 + 4 * self.cans

theorem Packet.WithinSteps.forwards_le {packet : Packet} (h : packet.WithinSteps) :
    packet.forwards ≤ 9 + 4 * packet.cans := by
  have hpositive := h.1
  have hsum := h.2
  omega

theorem toInt_sub_one_of_pos {steps : Int16} (hsteps : 0 < steps.toInt) :
    (steps - 1).toInt = steps.toInt - 1 := by
  have hhigh := steps.toInt_lt
  have hone : (1 : Int16).toInt = 1 := by decide
  rw [Int16.toInt_sub, hone]
  exact Int.bmod_eq_of_le (by omega) (by omega)

/-- The steps left when the message has been received. -/
theorem steps_of_routed {node : Node} {state : Gateway × SeenNodes} {link : LinkType}
    {arrival : Arrival link} {msg : NetworkMessage}
    (hrouted : (Gateway.arrive node state arrival).routed = some msg) :
    msg.getMaxStepsToForward = link.maxStepsToForward arrival.outMsg - 1 := by
  obtain ⟨hmsg, haccepted, _⟩ := len_of_routed hrouted
  rw [hmsg, getMaxStepsToForward_decMaxStepsToForward, haccepted.carried.maxStepsToForward]

/-- With the steps a message has left when it has been received, it may be forwarded once more. -/
theorem Packet.WithinSteps.next {packet : Packet} (h : packet.WithinSteps) {steps : Int16}
    (hsteps : steps = packet.link.maxStepsToForward packet.outMsg - 1) :
    steps.toInt + (packet.forwards + 1) ≤ 10 + 4 * packet.cansCrossed := by
  obtain ⟨hleft, hsum⟩ := h
  rw [hsteps, Packet.cansCrossed]
  by_cases hcan : packet.link = .can
  · have hfour : ((5 : Int16) - 1).toInt = 4 := by decide
    rw [hcan, LinkType.maxStepsToForward, hfour, if_pos rfl]
    push_cast
    omega
  · have hkept : packet.link.maxStepsToForward packet.outMsg =
        packet.outMsg.getMaxStepsToForward := by
      cases hlink : packet.link with
      | can => exact absurd hlink hcan
      | uart => rfl
      | udp => rfl
      | sharedMemory => rfl
    rw [hkept, toInt_sub_one_of_pos hleft, if_neg hcan]
    push_cast
    omega

namespace Network

variable {network : Network} {state next : NetworkState}

/-! ### What a delivery puts under way -/

theorem mem_transmit {msg : NetworkMessage} {hlen : msg.getLen.toNat ≤ MAX_NETWORK_MESSAGE_LENGTH}
    {forwards cans : Nat} {sender : Place} {packet : Packet}
    (hpacket : packet ∈ network.transmit msg hlen forwards cans sender) :
    packet.link = network.link sender ∧ packet.outMsg = msg ∧ packet.forwards = forwards ∧
      packet.cans = cans := by
  unfold transmit at hpacket
  split at hpacket
  · obtain ⟨receiver, _, hequal⟩ := List.mem_map.mp hpacket
    rw [← hequal]
    exact ⟨rfl, rfl, rfl, rfl⟩
  · cases hpacket

/-- A delivery keeps the other packets, and what it adds is the delivered message, sent on over
gateways of the router as long as it has steps left. -/
theorem deliver_cases (network : Network) (state : NetworkState) (packet : Packet)
    (others : List Packet) (NOW : Int64) (slot : NetworkMessage) :
    ((network.deliver state packet others NOW slot).inFlight = others ∧
        (network.deliver state packet others NOW slot).sent = state.sent) ∨
      ∃ (routing : Routing) (hlen : routing.msg.getLen.toNat ≤ MAX_NETWORK_MESSAGE_LENGTH),
        routing.msg.getMaxStepsToForward = packet.link.maxStepsToForward packet.outMsg - 1 ∧
        (routing.sentOver ≠ [] → 0 < routing.msg.getMaxStepsToForward.toInt) ∧
        routing.sentOver.Sublist (network.router packet.receiver.node).gateways ∧
        (network.deliver state packet others NOW slot).inFlight =
          network.sendOver routing hlen (packet.forwards + 1) packet.cansCrossed
            packet.receiver.node ++ others ∧
        (network.deliver state packet others NOW slot).sent =
          state.sent + routing.sentOver.length := by
  unfold deliver
  dsimp only
  split
  · exact Or.inl ⟨rfl, rfl⟩
  · next msg hrouted =>
    right
    refine ⟨(network.router packet.receiver.node).routeMsg _ msg _, ?_, ?_, ?_,
      Router.routeMsg_sublist, rfl, rfl⟩
    · rw [Router.routeMsg_len]
      exact (len_of_routed hrouted).2.2
    · rw [Router.routeMsg_maxStepsToForward, steps_of_routed hrouted]
    · rw [Router.routeMsg_maxStepsToForward]
      exact Router.maxStepsToForward_pos

theorem mem_sendOver {routing : Routing}
    {hlen : routing.msg.getLen.toNat ≤ MAX_NETWORK_MESSAGE_LENGTH} {forwards cans node : Nat}
    {packet : Packet} (hpacket : packet ∈ network.sendOver routing hlen forwards cans node) :
    routing.sentOver ≠ [] ∧ (∃ i, packet.link = network.link ⟨node, i⟩) ∧
      packet.outMsg = routing.msg ∧ packet.forwards = forwards ∧ packet.cans = cans := by
  obtain ⟨i, hi, htransmit⟩ := List.mem_flatMap.mp hpacket
  obtain ⟨hlink, hmsg, hforwards, hcans⟩ := mem_transmit htransmit
  exact ⟨List.ne_nil_of_mem hi, ⟨i, hlink⟩, hmsg, hforwards, hcans⟩

theorem deliver_withinSteps {packet : Packet} {others : List Packet} {NOW : Int64}
    {slot : NetworkMessage} (hpacket : packet.WithinSteps)
    (hothers : ∀ other ∈ others, other.WithinSteps) :
    ∀ other ∈ (network.deliver state packet others NOW slot).inFlight, other.WithinSteps := by
  cases network.deliver_cases state packet others NOW slot with
  | inl hnone =>
    rw [hnone.1]
    exact hothers
  | inr hrouted =>
    obtain ⟨routing, hlen, hsteps, hpositive, _, hinFlight, _⟩ := hrouted
    rw [hinFlight]
    intro other hother
    cases List.mem_append.mp hother with
    | inl hnew =>
      obtain ⟨hsent, _, hmsg, hforwards, hcans⟩ := mem_sendOver hnew
      rw [Packet.WithinSteps, hmsg, hforwards, hcans]
      exact ⟨hpositive hsent, hpacket.next hsteps⟩
    | inr hold => exact hothers other hold

/-! ### What a packet can still cause -/

/-- The calls of `sendNetworkMsg` that a message causes at most from a node on, if it is forwarded
no more than `depth` times. -/
def spread (network : Network) : (depth node : Nat) → Nat
  | 0, _ => 0
  | depth + 1, node =>
    ((network.router node).gateways.map fun i =>
      1 + ((network.receivers ⟨node, i⟩).map fun receiver =>
        network.spread depth receiver.node).sum).sum

/-- What a packet can still cause, if no message crosses more than `crossings` CAN links. -/
def weight (network : Network) (crossings : Nat) (packet : Packet) : Nat :=
  network.spread (9 + 4 * crossings - packet.forwards) packet.receiver.node

def potential (network : Network) (crossings : Nat) (state : NetworkState) : Nat :=
  state.sent + (state.inFlight.map (network.weight crossings)).sum

theorem transmit_weight_le (crossings : Nat) (msg : NetworkMessage)
    (hlen : msg.getLen.toNat ≤ MAX_NETWORK_MESSAGE_LENGTH) (forwards cans : Nat)
    (sender : Place) :
    ((network.transmit msg hlen forwards cans sender).map (network.weight crossings)).sum ≤
      ((network.receivers sender).map fun receiver =>
        network.spread (9 + 4 * crossings - forwards) receiver.node).sum := by
  unfold transmit
  split
  · rw [List.map_map]
    exact Nat.le_refl _
  · exact Nat.zero_le _

/-- One message for each of some gateways, with the calls that send them. -/
theorem flatMap_transmit_weight_le (crossings : Nat) (sentOver : List Nat)
    (message : Nat → NetworkMessage)
    (hlen : ∀ i, (message i).getLen.toNat ≤ MAX_NETWORK_MESSAGE_LENGTH)
    (forwards cans node : Nat) :
    sentOver.length + ((sentOver.flatMap fun i =>
        network.transmit (message i) (hlen i) forwards cans ⟨node, i⟩).map
          (network.weight crossings)).sum ≤
      (sentOver.map fun i => 1 + ((network.receivers ⟨node, i⟩).map fun receiver =>
        network.spread (9 + 4 * crossings - forwards) receiver.node).sum).sum := by
  induction sentOver with
  | nil => exact Nat.le_refl _
  | cons i sentOver ih =>
    have hfirst := network.transmit_weight_le crossings (message i) (hlen i) forwards cans ⟨node, i⟩
    rw [List.flatMap_cons, List.map_append, List.sum_append, List.map_cons, List.sum_cons,
      List.length_cons]
    omega

/-- Delivering a message that has crossed no more CAN links does not raise the potential. -/
theorem deliver_potential_le {crossings : Nat} {packet : Packet} (others : List Packet)
    (NOW : Int64) (slot : NetworkMessage) (hpacket : packet.WithinSteps)
    (hcrossings : packet.cansCrossed ≤ crossings) :
    network.potential crossings (network.deliver state packet others NOW slot) ≤
      state.sent + network.weight crossings packet +
        (others.map (network.weight crossings)).sum := by
  unfold potential
  cases network.deliver_cases state packet others NOW slot with
  | inl hnone =>
    rw [hnone.1, hnone.2]
    omega
  | inr hrouted =>
    obtain ⟨routing, hlen, hsteps, hpositive, hsublist, hinFlight, hsent⟩ := hrouted
    have hnew : routing.sentOver.length + ((network.sendOver routing hlen (packet.forwards + 1)
        packet.cansCrossed packet.receiver.node).map (network.weight crossings)).sum ≤ _ :=
      network.flatMap_transmit_weight_le crossings routing.sentOver (fun _ => routing.msg)
        (fun _ => hlen) (packet.forwards + 1) packet.cansCrossed packet.receiver.node
    have hspread : (routing.sentOver.map fun i => 1 +
        ((network.receivers ⟨packet.receiver.node, i⟩).map fun receiver =>
          network.spread (9 + 4 * crossings - (packet.forwards + 1)) receiver.node).sum).sum ≤
        network.weight crossings packet := by
      by_cases hnothing : routing.sentOver = []
      · rw [hnothing]
        exact Nat.zero_le _
      · have hsum := hpacket.next hsteps
        have hleft := hpositive hnothing
        have hdepth : 9 + 4 * crossings - packet.forwards =
            9 + 4 * crossings - (packet.forwards + 1) + 1 := by omega
        rw [weight, hdepth, spread]
        exact (hsublist.map _).sum_le_sum fun _ _ => Nat.zero_le _
    rw [hinFlight, hsent, List.map_append, List.sum_append]
    omega

/-! ### Runs -/

/-- Every packet is within its steps, and no more than that will ever have been sent. -/
structure Contained (network : Network) (crossings bound : Nat) (state : NetworkState) : Prop where
  withinSteps : ∀ packet ∈ state.inFlight, packet.WithinSteps
  potential : network.potential crossings state ≤ bound

/-- The message that is delivered has crossed no more than so many CAN links. -/
def CrossesAtMost (crossings : Nat) (state : NetworkState) (delivery : Delivery) : Prop :=
  ∀ packet ∈ state.inFlight[delivery.index]?, packet.cansCrossed ≤ crossings

instance (crossings : Nat) (state : NetworkState) (delivery : Delivery) :
    Decidable (CrossesAtMost crossings state delivery) :=
  inferInstanceAs (Decidable (∀ packet ∈ state.inFlight[delivery.index]?, _))

theorem step_some {delivery : Delivery} (hstep : network.step state delivery = some next) :
    ∃ packet, state.inFlight[delivery.index]? = some packet ∧
      (packet :: state.inFlight.eraseIdx delivery.index).Perm state.inFlight ∧
      next = network.deliver state packet (state.inFlight.eraseIdx delivery.index) delivery.NOW
        delivery.slot := by
  unfold step at hstep
  split at hstep
  · cases hstep
  · next packet hpacket =>
    obtain ⟨hindex, hequal⟩ := List.getElem?_eq_some_iff.mp hpacket
    refine ⟨packet, hpacket, ?_, (Option.some.inj hstep).symm⟩
    rw [← hequal]
    exact List.getElem_cons_eraseIdx_perm hindex

theorem step_withinSteps {delivery : Delivery}
    (hwithin : ∀ packet ∈ state.inFlight, packet.WithinSteps)
    (hstep : network.step state delivery = some next) :
    ∀ packet ∈ next.inFlight, packet.WithinSteps := by
  obtain ⟨packet, _, hperm, hnext⟩ := step_some hstep
  rw [hnext]
  apply deliver_withinSteps
  · exact hwithin packet (hperm.subset List.mem_cons_self)
  · exact fun other hother => hwithin other (hperm.subset (List.mem_cons_of_mem _ hother))

theorem Contained.step {crossings bound : Nat} {delivery : Delivery}
    (h : Contained network crossings bound state)
    (hcrosses : CrossesAtMost crossings state delivery)
    (hstep : network.step state delivery = some next) :
    Contained network crossings bound next := by
  refine ⟨step_withinSteps h.withinSteps hstep, ?_⟩
  obtain ⟨packet, hpacket, hperm, hnext⟩ := step_some hstep
  have hdelivered : network.potential crossings (network.deliver state packet _ _ _) ≤ _ :=
    deliver_potential_le (state.inFlight.eraseIdx delivery.index) delivery.NOW delivery.slot
      (h.withinSteps packet (hperm.subset List.mem_cons_self)) (hcrosses packet hpacket)
  have hbefore := h.potential
  rw [Network.potential, ← (hperm.map (network.weight crossings)).sum_eq, List.map_cons,
    List.sum_cons] at hbefore
  rw [hnext]
  exact hdelivered.trans (by omega)

/-! ### One message published -/

/-- The calls of `sendNetworkMsg` that publishing at a node causes at most. -/
def publishSpread (network : Network) (crossings origin : Nat) : Nat :=
  ((network.enabled origin ++ (network.router origin).gateways).map fun i =>
    1 + ((network.receivers ⟨origin, i⟩).map fun receiver =>
      network.spread (9 + 4 * crossings) receiver.node).sum).sum

variable {gateways : Place → Gateway} {tables : Nat → SeenNodes}
  {networkOutMessage : Nat → NetworkMessage} {localMessage : NetworkMessage} {origin : Nat}
  {topicId : UInt32} {data : Memory UInt8} {len : Nat} {netMsgInfo : NetMsgInfo}

/-- A published message has its ten steps and has gone nowhere. -/
theorem mem_publish {packet : Packet}
    (hpacket : packet ∈ (network.publish gateways tables networkOutMessage localMessage origin
      topicId data len netMsgInfo).inFlight) :
    (∃ i, packet.link = network.link ⟨origin, i⟩) ∧
      packet.outMsg.getMaxStepsToForward = 10 ∧ packet.forwards = 0 ∧ packet.cans = 0 := by
  cases List.mem_append.mp hpacket with
  | inl hown =>
    obtain ⟨i, _, htransmit⟩ := List.mem_flatMap.mp hown
    obtain ⟨hlink, hmsg, hforwards, hcans⟩ := mem_transmit htransmit
    refine ⟨⟨i, hlink⟩, ?_, hforwards, hcans⟩
    rw [hmsg]
    exact getMaxStepsToForward_prepareNetworkMessage _ _ _ _ _
  | inr hrouted =>
    obtain ⟨_, hlink, hmsg, hforwards, hcans⟩ := mem_sendOver hrouted
    refine ⟨hlink, ?_, hforwards, hcans⟩
    rw [hmsg, Router.routeMsg_maxStepsToForward]
    exact getMaxStepsToForward_prepareNetworkMessage _ _ _ _ _

theorem publish_withinSteps :
    ∀ packet ∈ (network.publish gateways tables networkOutMessage localMessage origin topicId data
      len netMsgInfo).inFlight, packet.WithinSteps := by
  intro packet hpacket
  obtain ⟨_, hsteps, hforwards, hcans⟩ := mem_publish hpacket
  have hten : (10 : Int16).toInt = 10 := by decide
  rw [Packet.WithinSteps, hsteps, hforwards, hcans, hten]
  decide

theorem publish_contained (crossings : Nat) :
    Contained network crossings (network.publishSpread crossings origin)
      (network.publish gateways tables networkOutMessage localMessage origin topicId data len
        netMsgInfo) := by
  refine ⟨publish_withinSteps, ?_⟩
  let message : Nat → NetworkMessage := fun i =>
    prepareNetworkMessage (networkOutMessage i) topicId data len netMsgInfo
  let own := (network.enabled origin).filter fun i =>
    (gateways ⟨origin, i⟩).shouldTopicBePut topicId
  let routing := (network.router origin).routeMsg (fun i => gateways ⟨origin, i⟩)
    (prepareNetworkMessage localMessage topicId data len netMsgInfo) LINK_ID_RODOS_LOCAL_BROADCAST
  have hlen : routing.msg.getLen.toNat ≤ MAX_NETWORK_MESSAGE_LENGTH := by
    rw [Router.routeMsg_len]
    exact getLen_prepareNetworkMessage_le _ _ _ _ _
  have hown := network.flatMap_transmit_weight_le crossings own message
    (fun i => getLen_prepareNetworkMessage_le (networkOutMessage i) topicId data len netMsgInfo)
    0 0 origin
  have hrouted := network.flatMap_transmit_weight_le crossings routing.sentOver
    (fun _ => routing.msg) (fun _ => hlen) 0 0 origin
  have hsublist : (own ++ routing.sentOver).Sublist
      (network.enabled origin ++ (network.router origin).gateways) :=
    List.filter_sublist.append Router.routeMsg_sublist
  have hall := (hsublist.map fun i => 1 + ((network.receivers ⟨origin, i⟩).map fun receiver =>
    network.spread (9 + 4 * crossings) receiver.node).sum).sum_le_sum fun _ _ => Nat.zero_le _
  rw [List.map_append, List.sum_append] at hall
  show own.length + routing.sentOver.length + (List.map _ (_ ++ _)).sum ≤ _
  rw [List.map_append, List.sum_append]
  refine le_trans ?_ hall
  rw [Nat.sub_zero] at hown hrouted
  exact (Nat.add_add_add_comm _ _ _ _).trans_le (Nat.add_le_add hown hrouted)

/-- Without CAN links no packet has crossed any. -/
def CanFree (state : NetworkState) : Prop :=
  ∀ packet ∈ state.inFlight, packet.link ≠ .can ∧ packet.cans = 0

theorem step_canFree {delivery : Delivery} (hlinks : ∀ place, network.link place ≠ .can)
    (hfree : CanFree state) (hstep : network.step state delivery = some next) : CanFree next := by
  obtain ⟨packet, _, hperm, hnext⟩ := step_some hstep
  have hpacket := hfree packet (hperm.subset List.mem_cons_self)
  have hothers : ∀ other ∈ state.inFlight.eraseIdx delivery.index,
      other.link ≠ .can ∧ other.cans = 0 :=
    fun other hother => hfree other (hperm.subset (List.mem_cons_of_mem _ hother))
  rw [hnext]
  cases network.deliver_cases state packet (state.inFlight.eraseIdx delivery.index) delivery.NOW
    delivery.slot with
  | inl hnone =>
    rw [CanFree, hnone.1]
    exact hothers
  | inr hrouted =>
    obtain ⟨routing, hlen, _, _, _, hinFlight, _⟩ := hrouted
    rw [CanFree, hinFlight]
    intro other hother
    cases List.mem_append.mp hother with
    | inl hnew =>
      obtain ⟨_, ⟨i, hlink⟩, _, _, hcans⟩ := mem_sendOver hnew
      refine ⟨hlink ▸ hlinks _, ?_⟩
      rw [hcans, Packet.cansCrossed, if_neg hpacket.1, hpacket.2]
    | inr hold => exact hothers other hold

theorem CanFree.crossesAtMost (h : CanFree state) (delivery : Delivery) :
    CrossesAtMost 0 state delivery := by
  intro packet hpacket
  obtain ⟨hlink, hcans⟩ := h packet (List.mem_of_getElem? hpacket)
  rw [Packet.cansCrossed, if_neg hlink, hcans]

/-- However the packets are delivered, a message is forwarded at most nine times, and four more
times for every CAN link it has crossed. As long as no copy crosses more than some number of CAN
links, the transmissions it causes are bounded, in a network without CAN links in any case. -/
theorem forwards_bounded (network : Network) (gateways : Place → Gateway)
    (tables : Nat → SeenNodes) (networkOutMessage : Nat → NetworkMessage)
    (localMessage : NetworkMessage) (origin : Nat) (topicId : UInt32) (data : Memory UInt8)
    (len : Nat) (netMsgInfo : NetMsgInfo) :
    let start := network.publish gateways tables networkOutMessage localMessage origin topicId data
      len netMsgInfo
    (∀ deliveries state, run network.step start deliveries = some state →
      ∀ packet ∈ state.inFlight, packet.forwards ≤ 9 + 4 * packet.cans) ∧
    (∀ crossings deliveries state,
      Along network.step (CrossesAtMost crossings) start deliveries →
      run network.step start deliveries = some state →
      state.sent ≤ network.publishSpread crossings origin) ∧
    ((∀ place, network.link place ≠ .can) →
      ∀ deliveries state, run network.step start deliveries = some state →
      (∀ packet ∈ state.inFlight, packet.forwards ≤ 9) ∧
        state.sent ≤ network.publishSpread 0 origin) := by
  intro start
  have hforwards : ∀ deliveries state, run network.step start deliveries = some state →
      ∀ packet ∈ state.inFlight, packet.forwards ≤ 9 + 4 * packet.cans := by
    intro deliveries state hrun packet hpacket
    have hwithin : ∀ packet ∈ state.inFlight, packet.WithinSteps :=
      run_invariant (fun _ _ _ => step_withinSteps) publish_withinSteps hrun
    exact (hwithin packet hpacket).forwards_le
  have hsent : ∀ crossings deliveries state,
      Along network.step (CrossesAtMost crossings) start deliveries →
      run network.step start deliveries = some state →
      state.sent ≤ network.publishSpread crossings origin := by
    intro crossings deliveries state halong hrun
    have hcontained : Contained network crossings (network.publishSpread crossings origin) state :=
      run_invariant_along (fun _ _ _ => Contained.step) (publish_contained crossings) halong hrun
    exact (Nat.le_add_right _ _).trans hcontained.potential
  refine ⟨hforwards, hsent, fun hlinks deliveries state hrun => ?_⟩
  have hstart : CanFree start := by
    intro packet hpacket
    obtain ⟨⟨i, hlink⟩, _, _, hcans⟩ := mem_publish hpacket
    exact ⟨hlink ▸ hlinks _, hcans⟩
  have hkeeps : ∀ state delivery next, CanFree state →
      network.step state delivery = some next → CanFree next :=
    fun _ _ _ => step_canFree hlinks
  have halong := along_of_invariant hkeeps (fun _ delivery h => h.crossesAtMost delivery) hstart
    deliveries
  refine ⟨fun packet hpacket => ?_, hsent 0 deliveries state halong hrun⟩
  have hfree : CanFree state := run_invariant hkeeps hstart hrun
  have hbound := hforwards deliveries state hrun packet hpacket
  rw [(hfree packet hpacket).2] at hbound
  exact hbound

/-- Node 0 on one CAN bus with node 1, and two more buses between nodes 1 and 2. -/
def busCycle : Network where
  node i := ⟨Int32.ofNat (i + 1), []⟩
  router i := ⟨if i = 0 then [0] else if i = 1 then [1, 2, 0] else [1, 2], false⟩
  enabled _ := []
  link _ := .can
  receivers place :=
    if place.gateway = 0 then
      if place.node = 0 then [⟨1, 0⟩] else [⟨0, 0⟩]
    else if place.node = 1 then [⟨2, place.gateway⟩] else [⟨1, place.gateway⟩]

/-- One byte published under topic 7 at node 0, with gateways that forward everything. -/
def busCycleStart : NetworkState :=
  let blank : NetworkMessage := ⟨fun _ => 0, fun _ => 0⟩
  busCycle.publish
    (fun place => { Gateway.silent with
      forwardAll := true
      linkIdentifier := UInt32.ofNat (10000 + place.gateway) })
    (fun _ => .start fun _ => ⟨0, 0⟩) (fun _ => blank) blank 0 7 (fun _ => 1) 1
    ⟨1, 0, 5, -1, 0, 0, 0⟩

set_option maxRecDepth 8000 in
/-- Between nodes 1 and 2 the message goes round and is new each time, as it is given the time at
which it is received. -/
theorem forwards_exceed_steps :
    (run busCycle.step busCycleStart ((List.range 12).map fun k =>
      ⟨0, Int64.ofNat (10 + k), ⟨fun _ => 0, fun _ => 0⟩⟩)).any fun state =>
        state.inFlight.any fun packet => packet.forwards = 12 := by
  decide

end Network

end Rodos.Gateway
