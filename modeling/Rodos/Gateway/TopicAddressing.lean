import Rodos.Gateway.DistributedTopicRegister
import Rodos.Gateway.MessageHeader

/-! Which nodes the messages of a topic are addressed to: the nodes that have reported subscribers
for it and still report. -/
set_option linter.dupNamespace false

namespace Rodos.Gateway
open Library Time

/-! ### The address -/

theorem toNat_shift_lt {bitmap : UInt32} (h : bitmap ≠ 0) :
    (bitmap >>> 1).toNat < bitmap.toNat := by
  have hpos : bitmap.toNat ≠ 0 := fun hzero => h (UInt32.toNat_inj.mp hzero)
  rw [UInt32.toNat_shiftRight]
  exact Nat.div_lt_self (Nat.pos_of_ne_zero hpos) (by decide)

/-- The loop of `receiverNodesBitMap2Index`. -/
def scanBitmap (bitmap : UInt32) (index indexFound : Int32) : Int32 :=
  if hrest : bitmap ≠ 0 then
    if bitmap &&& 0x01 ≠ 0 then
      if indexFound ≠ -2 then -1 -- more than one: broadcast
      else scanBitmap (bitmap >>> 1) (index + 1) index
    else scanBitmap (bitmap >>> 1) (index + 1) indexFound
  else indexFound
termination_by bitmap.toNat
decreasing_by all_goals exact toNat_shift_lt hrest

namespace RegisteredTopic

/-- The index, and the topic as the call leaves it. -/
def receiverNodesBitMap2Index (self : RegisteredTopic) : Int32 × RegisteredTopic :=
  if self.topicId < ALL_TOPICS_BELOW_THIS_ARE_BROADCAST then
    (-1, { self with receiverNodesBitMap := ~~~0 })
  else (scanBitmap self.receiverNodesBitMap 0 (-2), self)

/-- The message info with which `publishMsgPart` calls the gateways. -/
def networkInfo (self : RegisteredTopic) (netMsgInfo : NetMsgInfo) : NetMsgInfo :=
  let (receiverNode, self) := self.receiverNodesBitMap2Index
  { netMsgInfo with
    receiverNode := receiverNode
    receiverNodesBitMap := self.receiverNodesBitMap }

end RegisteredTopic

/-- What a receiver node stands for. -/
inductive Designates : Int32 → Set Nat → Prop
  | nobody : Designates (-2) ∅
  | only {index : Nat} (hindex : index < MAX_NUM_OF_NODES) : Designates (Int32.ofNat index) {index}
  | several {nodes : Set Nat} (hnodes : nodes.Nontrivial) : Designates (-1) nodes

/-- The positions of the bits, the lowest one at the start. -/
def positions (bitmap : UInt32) (start : Nat) : Set Nat :=
  { position | start ≤ position ∧ bitmap.toBitVec.getLsbD (position - start) }

section scan

variable {bitmap : UInt32} {start : Nat}

@[simp] theorem positions_zero : positions 0 start = ∅ := by
  ext position
  simp [positions]

theorem getLsbD_shift (position : Nat) :
    (bitmap >>> 1).toBitVec.getLsbD position = bitmap.toBitVec.getLsbD (position + 1) := by
  rw [UInt32.toBitVec_shiftRight, BitVec.ushiftRight_eq', BitVec.getLsbD_ushiftRight,
    Nat.add_comm]
  rfl

theorem and_one_iff : bitmap &&& 0x01 ≠ 0 ↔ bitmap.toBitVec.getLsbD 0 := by
  rw [BitVec.getLsbD, Nat.testBit_zero, decide_eq_true_eq, ne_eq, ← UInt32.toNat_inj,
    UInt32.toNat_and]
  have hone : bitmap.toNat &&& 1 = bitmap.toNat % 2 := Nat.and_one_is_mod _
  show ¬ bitmap.toNat &&& 1 = 0 ↔ bitmap.toNat % 2 = 1
  omega

theorem positions_shift : positions (bitmap >>> 1) (start + 1) =
    { position ∈ positions bitmap start | position ≠ start } := by
  ext position
  simp only [positions, Set.mem_ofPred_eq, getLsbD_shift]
  constructor
  · rintro ⟨hlow, hbit⟩
    rw [show position - (start + 1) + 1 = position - start by omega] at hbit
    exact ⟨⟨by omega, hbit⟩, by omega⟩
  · rintro ⟨⟨hlow, hbit⟩, hne⟩
    rw [show position - (start + 1) + 1 = position - start by omega]
    exact ⟨by omega, hbit⟩

theorem positions_of_bit (hbit : bitmap &&& 0x01 ≠ 0) :
    positions bitmap start = insert start (positions (bitmap >>> 1) (start + 1)) := by
  rw [positions_shift]
  ext position
  have hstart : start ∈ positions bitmap start := by
    refine ⟨Nat.le_refl start, ?_⟩
    rw [Nat.sub_self]
    exact and_one_iff.mp hbit
  by_cases hsame : position = start
  · simp [hsame, hstart]
  · simp [hsame]

theorem positions_of_no_bit (hbit : ¬ bitmap &&& 0x01 ≠ 0) :
    positions bitmap start = positions (bitmap >>> 1) (start + 1) := by
  rw [positions_shift]
  ext position
  have hstart : start ∉ positions bitmap start := by
    rintro ⟨-, hset⟩
    rw [Nat.sub_self] at hset
    exact hbit (and_one_iff.mpr hset)
  by_cases hsame : position = start
  · simp [hsame, hstart]
  · simp [hsame]

theorem ofNat_nonneg {index : Nat} (hindex : index < MAX_NUM_OF_NODES) :
    0 ≤ Int32.ofNat index := by
  have hwidth : MAX_NUM_OF_NODES = 32 := rfl
  rw [Int32.le_iff_toInt_le, Int32.toInt_ofNat_of_lt (by omega)]
  exact Int.natCast_nonneg index

theorem Designates.eq_empty {nodes : Set Nat} (h : Designates (-2) nodes) : nodes = ∅ := by
  generalize haddress : (-2 : Int32) = address at h
  cases h with
  | nobody => rfl
  | only hindex => exact absurd (ofNat_nonneg hindex) (by rw [← haddress]; decide)
  | several => exact absurd haddress (by decide)

/-- The loop goes on from what it has found so far, which is nothing or one node behind the
current one. -/
theorem scanBitmap_designates {index indexFound : Int32} {found : Set Nat}
    (hindex : index = Int32.ofNat start) (hfound : Designates indexFound found)
    (hone : indexFound ≠ -1) (hbehind : ∀ position ∈ found, position < start)
    (hfits : ∀ position ∈ positions bitmap start, position < MAX_NUM_OF_NODES) :
    Designates (scanBitmap bitmap index indexFound) (found ∪ positions bitmap start) := by
  induction bitmap, index, indexFound using scanBitmap.induct generalizing start found with
  | case1 bitmap index indexFound hrest hbit hsecond =>
    rw [scanBitmap, dif_pos hrest, if_pos hbit, if_pos hsecond, positions_of_bit hbit]
    cases hfound with
    | nobody => exact absurd rfl hsecond
    | several => exact absurd rfl hone
    | @only first hfirst =>
      refine .several ⟨first, .inl rfl, start, .inr (.inl rfl), ?_⟩
      exact Nat.ne_of_lt (hbehind first rfl)
  | case2 bitmap index indexFound hrest hbit hfirst ih =>
    obtain rfl := Decidable.not_not.mp hfirst
    rw [scanBitmap, dif_pos hrest, if_pos hbit, if_neg hfirst]
    rw [positions_of_bit hbit] at hfits ⊢
    have hstart := hfits start (.inl rfl)
    have hnobody := hfound.eq_empty
    subst hnobody hindex
    rw [Set.empty_union, Set.insert_eq]
    refine @ih (start + 1) _ ?_ ?_ ?_ ?_ ?_
    · exact (Int32.ofNat_add start 1).symm
    · exact .only hstart
    · exact fun hnone => absurd (ofNat_nonneg hstart) (by rw [hnone]; decide)
    · rintro position rfl
      exact Nat.lt_succ_self _
    · exact fun position hposition => hfits position (.inr hposition)
  | case3 bitmap index indexFound hrest hbit ih =>
    rw [scanBitmap, dif_pos hrest, if_neg hbit]
    rw [positions_of_no_bit hbit] at hfits ⊢
    subst hindex
    apply ih (Int32.ofNat_add start 1).symm hfound hone _ hfits
    exact fun position hposition => Nat.lt_succ_of_lt (hbehind position hposition)
  | case4 bitmap index indexFound hrest =>
    obtain rfl := Decidable.not_not.mp hrest
    rw [scanBitmap, dif_neg hrest, positions_zero, Set.union_empty]
    exact hfound

theorem scanBitmap_designates_positions :
    Designates (scanBitmap bitmap 0 (-2)) (positions bitmap 0) := by
  rw [← Set.empty_union (positions bitmap 0)]
  refine scanBitmap_designates rfl .nobody (by decide) nofun fun position hposition => ?_
  exact BitVec.lt_of_getLsbD hposition.2

end scan

/-! ### The nodes that report -/

/-- The bit of the node is taken away. -/
def RegisteredTopic.withoutNode (self : RegisteredTopic) (node : Nat) : RegisteredTopic :=
  { self with
    receiverNodesBitMap := self.receiverNodesBitMap &&& ~~~(0x01 <<< UInt32.ofNat node) }

theorem hasReceiver_withoutNode (topic : RegisteredTopic) {node other : Nat}
    (hnode : node < MAX_NUM_OF_NODES) (hother : other < MAX_NUM_OF_NODES) :
    (topic.withoutNode node).hasReceiver other ↔ topic.hasReceiver other ∧ other ≠ node := by
  have hwidth : MAX_NUM_OF_NODES = 32 := rfl
  have hindex : (UInt32.ofNat node).toNat = node := by
    rw [UInt32.toNat_ofNat']
    omega
  have hshift := @DistributedTopicRegister.getLsbD_or_shift 0 (UInt32.ofNat node) other (by omega)
    hother
  rw [UInt32.zero_or, hindex] at hshift
  rw [RegisteredTopic.hasReceiver, RegisteredTopic.withoutNode, UInt32.toBitVec_and,
    UInt32.toBitVec_not, BitVec.getLsbD_and, BitVec.getLsbD_not, hshift]
  have hbit : other < 32 := hother
  simp [hbit, RegisteredTopic.hasReceiver]

namespace DistributedTopicRegister

theorem topicId_foldl_withoutNode (dead : Nat → Prop) [DecidablePred dead] (nodes : List Nat)
    (topic : RegisteredTopic) :
    (nodes.foldl (fun topic node => if dead node then topic.withoutNode node else topic)
      topic).topicId = topic.topicId := by
  induction nodes generalizing topic with
  | nil => rfl
  | cons node nodes ih =>
    rw [List.foldl_cons, ih]
    split <;> rfl

theorem hasReceiver_foldl_withoutNode (dead : Nat → Prop) [DecidablePred dead] {nodes : List Nat}
    (hnodes : ∀ node ∈ nodes, node < MAX_NUM_OF_NODES) (topic : RegisteredTopic) {other : Nat}
    (hother : other < MAX_NUM_OF_NODES) :
    (nodes.foldl (fun topic node => if dead node then topic.withoutNode node else topic)
      topic).hasReceiver other ↔ topic.hasReceiver other ∧ ¬ (other ∈ nodes ∧ dead other) := by
  induction nodes generalizing topic with
  | nil => simp
  | cons node nodes ih =>
    obtain ⟨hnode, hnodes⟩ := List.forall_mem_cons.mp hnodes
    rw [List.foldl_cons, ih hnodes]
    by_cases hdead : dead node
    · rw [if_pos hdead, hasReceiver_withoutNode topic hnode hother]
      grind
    · rw [if_neg hdead]
      grind

/-- The loop over the nodes around the loop over the topics does the same for each topic. -/
theorem topicList_removeDeadNodes (self : DistributedTopicRegister) (NOW : Int64) :
    (self.removeDeadNodes NOW).topicList = self.topicList.map fun topic =>
      (List.range MAX_NUM_OF_NODES).foldl (fun topic node =>
        if self.lastReportTimeOfNode node < NOW - 10 * SECONDS then topic.withoutNode node
        else topic) topic := by
  unfold removeDeadNodes
  dsimp only
  generalize List.range MAX_NUM_OF_NODES = nodes
  generalize self.topicList = topicList
  induction nodes generalizing topicList with
  | nil => simp
  | cons node nodes ih =>
    rw [List.foldl_cons, ih]
    split
    · next hdead => simp [hdead, RegisteredTopic.withoutNode, Function.comp_def]
    · next halive => simp [halive]

/-- The time of the last report of a node, of the events up to now, the last one first. -/
def lastReportTime (nodeNumber : UInt32) (node : Nat) : List Event → Int64
  | [] => END_OF_TIME
  | .report hisTopics NOW :: past =>
    if hisTopics.nodeNr ≠ nodeNumber ∧ hisTopics.nodeIndex.toNat = node then NOW
    else lastReportTime nodeNumber node past
  | .timeLoop _ :: past => lastReportTime nodeNumber node past

/-- The node has reported subscribers for the topic, and no time loop since then has found it
silent for too long. -/
inductive Reporting (nodeNumber topicId : UInt32) (node : Nat) : List Event → Prop
  | reported {hisTopics : TopicListPerNode} {NOW : Int64} {past : List Event}
      (hother : hisTopics.nodeNr ≠ nodeNumber) (hnode : hisTopics.nodeIndex.toNat = node)
      (hcontains : hisTopics.topicListReport.Contains topicId) :
      Reporting nodeNumber topicId node (.report hisTopics NOW :: past)
  | before {hisTopics : TopicListPerNode} {NOW : Int64} {past : List Event}
      (h : Reporting nodeNumber topicId node past) :
      Reporting nodeNumber topicId node (.report hisTopics NOW :: past)
  | alive {NOW : Int64} {past : List Event} (h : Reporting nodeNumber topicId node past)
      (halive : ¬ lastReportTime nodeNumber node past < NOW - 10 * SECONDS) :
      Reporting nodeNumber topicId node (.timeLoop NOW :: past)

/-- What the register has kept of the events. -/
structure Tracks (nodeNumber : UInt32) (past : List Event) (register : DistributedTopicRegister) :
    Prop where
  nodeNumber_eq : register.nodeNumber = nodeNumber
  lastReport : ∀ node < MAX_NUM_OF_NODES,
    register.lastReportTimeOfNode node = lastReportTime nodeNumber node past
  receivers : ∀ topic ∈ register.topicList, ALL_TOPICS_BELOW_THIS_ARE_BROADCAST ≤ topic.topicId →
    ∀ node < MAX_NUM_OF_NODES,
      topic.hasReceiver node ↔ Reporting nodeNumber topic.topicId node past

/-- The node index of a report is one. -/
def IndexFits : DistributedTopicRegister → Event → Prop
  | _, .report hisTopics _ => hisTopics.nodeIndex.toNat < MAX_NUM_OF_NODES
  | _, .timeLoop _ => True

section tracks

variable {nodeNumber : UInt32} {past : List Event} {self : DistributedTopicRegister}

theorem tracks_start (nodeNumber : UInt32) (topics : List (UInt32 × Bool)) :
    Tracks nodeNumber [] (start nodeNumber topics) where
  nodeNumber_eq := rfl
  lastReport _ _ := rfl
  receivers := by
    intro topic htopic hlocal node _
    obtain ⟨⟨topicId, hasSubscribers⟩, -, rfl⟩ := List.mem_map.mp htopic
    have hclear : ¬ topicId < ALL_TOPICS_BELOW_THIS_ARE_BROADCAST := UInt32.not_lt.mpr hlocal
    constructor
    · simp [RegisteredTopic.hasReceiver, hclear]
    · intro hreporting
      cases hreporting

theorem reporting_report_iff {topicId : UInt32} {node : Nat} {hisTopics : TopicListPerNode}
    {NOW : Int64} (hother : hisTopics.nodeNr ≠ nodeNumber) :
    Reporting nodeNumber topicId node (.report hisTopics NOW :: past) ↔
      Reporting nodeNumber topicId node past ∨
        node = hisTopics.nodeIndex.toNat ∧ hisTopics.topicListReport.Contains topicId := by
  constructor
  · intro h
    cases h with
    | reported _ hnode hcontains => exact .inr ⟨hnode.symm, hcontains⟩
    | before h => exact .inl h
  · rintro (h | ⟨hnode, hcontains⟩)
    · exact .before h
    · exact .reported hother hnode.symm hcontains

theorem reporting_own_report_iff {topicId : UInt32} {node : Nat} {hisTopics : TopicListPerNode}
    {NOW : Int64} (hown : hisTopics.nodeNr = nodeNumber) :
    Reporting nodeNumber topicId node (.report hisTopics NOW :: past) ↔
      Reporting nodeNumber topicId node past := by
  constructor
  · intro h
    cases h with
    | reported hother => exact absurd hown hother
    | before h => exact h
  · exact .before

theorem reporting_timeLoop_iff {topicId : UInt32} {node : Nat} {NOW : Int64} :
    Reporting nodeNumber topicId node (.timeLoop NOW :: past) ↔
      Reporting nodeNumber topicId node past ∧
        ¬ lastReportTime nodeNumber node past < NOW - 10 * SECONDS := by
  constructor
  · intro h
    cases h with
    | alive h halive => exact ⟨h, halive⟩
  · exact fun h => .alive h.1 h.2

theorem Tracks.report {hisTopics : TopicListPerNode} {NOW : Int64}
    (h : Tracks nodeNumber past self) (hindex : hisTopics.nodeIndex.toNat < MAX_NUM_OF_NODES) :
    Tracks nodeNumber (.report hisTopics NOW :: past) (self.put NOW hisTopics).register := by
  by_cases hown : hisTopics.nodeNr = self.nodeNumber
  · rw [put, if_pos hown]
    rw [h.nodeNumber_eq] at hown
    exact {
      nodeNumber_eq := h.nodeNumber_eq
      lastReport := fun node hnode => by
        rw [lastReportTime, if_neg (fun hother => hother.1 hown)]
        exact h.lastReport node hnode
      receivers := fun topic htopic hlocal node hnode => by
        rw [reporting_own_report_iff hown]
        exact h.receivers topic htopic hlocal node hnode }
  · rw [put, if_neg hown]
    rw [h.nodeNumber_eq] at hown
    exact {
      nodeNumber_eq := h.nodeNumber_eq
      lastReport := fun node hnode => by
        by_cases hsame : hisTopics.nodeIndex.toNat = node
        · rw [lastReportTime, if_pos ⟨hown, hsame⟩, ← hsame]
          exact Memory.store_same ..
        · rw [lastReportTime, if_neg (fun hreporter => hsame hreporter.2),
            ← h.lastReport node hnode]
          exact Memory.store_other _ _ (Ne.symm hsame)
      receivers := by
        intro topic htopic hlocal node hnode
        obtain ⟨topic, hbefore, rfl⟩ := List.mem_map.mp htopic
        have hid : (if (hisTopics.topicListReport.find topic.topicId).result then
            { topic with receiverNodesBitMap :=
              topic.receiverNodesBitMap ||| 0x01 <<< hisTopics.nodeIndex.toUInt32 }
            else topic).topicId = topic.topicId := by
          split <;> rfl
        rw [hid] at hlocal ⊢
        rw [hasReceiver_put topic hindex hnode, h.receivers topic hbefore hlocal node hnode,
          reporting_report_iff hown] }

theorem Tracks.timeLoop {NOW : Int64} (h : Tracks nodeNumber past self) :
    Tracks nodeNumber (.timeLoop NOW :: past) (self.removeDeadNodes NOW) where
  nodeNumber_eq := h.nodeNumber_eq
  lastReport := h.lastReport
  receivers := by
    intro topic htopic hlocal node hnode
    rw [topicList_removeDeadNodes] at htopic
    obtain ⟨topic, hbefore, rfl⟩ := List.mem_map.mp htopic
    rw [topicId_foldl_withoutNode] at hlocal ⊢
    rw [hasReceiver_foldl_withoutNode _ (fun node => List.mem_range.mp) topic hnode,
      h.receivers topic hbefore hlocal node hnode, h.lastReport node hnode, reporting_timeLoop_iff,
      List.mem_range]
    simp only [hnode, true_and]

theorem Tracks.run {final : DistributedTopicRegister} {events : List Event}
    (h : Tracks nodeNumber past self) (hindices : Along step IndexFits self events)
    (hrun : run step self events = some final) :
    Tracks nodeNumber (events.reverse ++ past) final := by
  induction events generalizing self past with
  | nil =>
    cases hrun
    exact h
  | cons event events ih =>
    obtain ⟨next, hstep, hrest⟩ := exists_of_run_cons hrun
    obtain ⟨hindex, hindices⟩ := hindices.of_cons hstep
    rw [List.reverse_cons, List.append_assoc]
    refine ih ?_ hindices hrest
    cases event with
    | report hisTopics NOW => exact Option.some.inj hstep ▸ h.report hindex
    | timeLoop NOW => exact Option.some.inj hstep ▸ h.timeLoop

end tracks

/-- The nodes that the messages of a topic are meant for. -/
def receivers (nodeNumber topicId : UInt32) (events : List Event) : Set Nat :=
  { node | node < MAX_NUM_OF_NODES ∧
    (ALL_TOPICS_BELOW_THIS_ARE_BROADCAST ≤ topicId →
      Reporting nodeNumber topicId node events.reverse) }

theorem positions_receiverNodesBitMap {nodeNumber : UInt32} {events : List Event}
    {self : DistributedTopicRegister} (h : Tracks nodeNumber events.reverse self)
    {topic : RegisteredTopic} (htopic : topic ∈ self.topicList)
    (hlocal : ALL_TOPICS_BELOW_THIS_ARE_BROADCAST ≤ topic.topicId) :
    positions topic.receiverNodesBitMap 0 = receivers nodeNumber topic.topicId events := by
  ext node
  constructor
  · intro hbit
    have hnode : node < MAX_NUM_OF_NODES := BitVec.lt_of_getLsbD hbit.2
    exact ⟨hnode, fun _ => (h.receivers topic htopic hlocal node hnode).mp hbit.2⟩
  · intro hreceiver
    have hbit := (h.receivers topic htopic hlocal node hreceiver.1).mpr (hreceiver.2 hlocal)
    exact ⟨Nat.zero_le node, hbit⟩

theorem receivers_of_broadcast {nodeNumber topicId : UInt32} {events : List Event}
    (h : topicId < ALL_TOPICS_BELOW_THIS_ARE_BROADCAST) :
    receivers nodeNumber topicId events = { node | node < MAX_NUM_OF_NODES } := by
  ext node
  exact and_iff_left fun hlocal => absurd h (UInt32.not_lt.mpr hlocal)

theorem positions_not_zero : positions (~~~0) 0 = { node | node < MAX_NUM_OF_NODES } := by
  ext node
  have hbit : (~~~(0 : UInt32)).toBitVec.getLsbD node = decide (node < 32) := by
    rw [UInt32.toBitVec_not, BitVec.getLsbD_not]
    simp
  constructor
  · exact fun h => of_decide_eq_true (hbit.symm.trans h.2)
  · exact fun hnode => ⟨Nat.zero_le node, hbit.trans (decide_eq_true hnode)⟩

/-- The message that a gateway sends of a topic is addressed to the nodes that report subscribers
for it, and to all nodes when the topic is a broadcast one. -/
theorem addressed_to_receivers {nodeNumber : UInt32} {topics : List (UInt32 × Bool)}
    {events : List Event} {final : DistributedTopicRegister}
    (hindices : Along step IndexFits (start nodeNumber topics) events)
    (hrun : run step (start nodeNumber topics) events = some final)
    {topic : RegisteredTopic} (htopic : topic ∈ final.topicList)
    (netMsg : NetworkMessage) (data : Memory UInt8) {len : Nat}
    (hlen : len ≤ MAX_NETWORK_MESSAGE_LENGTH) (netMsgInfo : NetMsgInfo) :
    let message :=
      prepareNetworkMessage netMsg topic.topicId data len (topic.networkInfo netMsgInfo)
    Designates message.getReceiverNode (receivers nodeNumber topic.topicId events) ∧
      positions message.getReceiverNodesBitMap 0 = receivers nodeNumber topic.topicId events := by
  intro message
  have hheader := @NetworkMessage.headerIs_prepareNetworkMessage netMsg topic.topicId data len
    (topic.networkInfo netMsgInfo) hlen
  have htracks := (tracks_start nodeNumber topics).run hindices hrun
  rw [List.append_nil] at htracks
  rw [hheader.receiverNode, hheader.receiverNodesBitMap, RegisteredTopic.networkInfo,
    RegisteredTopic.receiverNodesBitMap2Index]
  by_cases hbroadcast : topic.topicId < ALL_TOPICS_BELOW_THIS_ARE_BROADCAST
  · rw [if_pos hbroadcast, receivers_of_broadcast hbroadcast]
    exact ⟨.several ⟨0, by decide, 1, by decide, by decide⟩, positions_not_zero⟩
  · rw [if_neg hbroadcast]
    have hpositions := positions_receiverNodesBitMap htracks htopic (UInt32.not_lt.mp hbroadcast)
    exact ⟨hpositions ▸ scanBitmap_designates_positions, hpositions⟩

def reportOfTopics (nodeNr : UInt32) (topicIds : List UInt32) : TopicListPerNode where
  nodeNr := nodeNr
  nodeIndex := nodeNr.toUInt8
  topicListReport := ⟨topicIds.length, fun i => topicIds.getD i 0⟩

/-- Nodes 2 and 5 report the topic, and node 5 then falls silent. -/
def twoReporters : List Event :=
  [.report (reportOfTopics 2 [100]) SECONDS, .report (reportOfTopics 5 [90, 100]) (2 * SECONDS),
    .timeLoop (3 * SECONDS), .report (reportOfTopics 2 [100]) (9 * SECONDS),
    .timeLoop (13 * SECONDS)]

theorem addressed_to_receivers_twoReporters :
    let message := prepareNetworkMessage ⟨fun _ => 0, fun _ => 0⟩ 100 (fun _ => 0) 8
      (RegisteredTopic.networkInfo ⟨100, true, 4⟩ ⟨1, 0, 0, 0, 0, 0, 0⟩)
    Designates message.getReceiverNode (receivers 1 100 twoReporters) ∧
      positions message.getReceiverNodesBitMap 0 = receivers 1 100 twoReporters :=
  @addressed_to_receivers 1 [(100, true)] twoReporters _
    ⟨show 2 < 32 by decide, show 5 < 32 by decide, trivial, show 2 < 32 by decide, trivial, trivial⟩
    rfl ⟨100, true, 4⟩ (by decide) ⟨fun _ => 0, fun _ => 0⟩ (fun _ => 0) 8 (by decide)
    ⟨1, 0, 0, 0, 0, 0, 0⟩

end DistributedTopicRegister

end Rodos.Gateway
