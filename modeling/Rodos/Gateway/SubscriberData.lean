import Rodos.Gateway.CarriedMessage
import Rodos.Gateway.TopicReports

/-! What the local subscribers of a topic are handed when a message has arrived over a link, and how
much of it depends on the messages before. -/
set_option linter.dupNamespace false

namespace Rodos.Gateway
open Library

/-- A message that a link hands over at some time, with the entry of the fifo of the link. -/
structure Arrival (link : LinkType) where
  NOW : Int64
  slot : NetworkMessage
  outMsg : NetworkMessage
  crosses : link.Crosses outMsg

namespace Gateway

/-- The gateway and the shared table, as a message has arrived and been dealt with. -/
def arrive (node : Node) (state : Gateway × SeenNodes) {link : LinkType} (arrival : Arrival link) :
    Distribution :=
  state.1.received node state.2
    (link.carry arrival.NOW arrival.slot state.1.networkInMessage arrival.outMsg)
    (link.reportedSize arrival.outMsg)

def afterArrivals (node : Node) (state : Gateway × SeenNodes) {link : LinkType}
    (history : List (Arrival link)) : Gateway × SeenNodes :=
  history.foldl (fun state arrival =>
    ((arrive node state arrival).gateway, (arrive node state arrival).table)) state

/-- The message goes to the subscribers of its topic and to the routers. -/
def Accepted (node : Node) (state : Gateway × SeenNodes) {link : LinkType}
    (arrival : Arrival link) : Prop :=
  (arrive node state arrival).routed.isSome

instance (node : Node) (state : Gateway × SeenNodes) {link : LinkType} (arrival : Arrival link) :
    Decidable (Accepted node state arrival) := inferInstanceAs (Decidable (_ = true))

/-- The bytes that the subscribers are handed, in the order of the calls. -/
def handedData (distribution : Distribution) : List (List UInt8) :=
  distribution.handed.map Publication.data

/-- The subscribers read no further than the buffer of the message reaches. -/
def ReadsInside (distribution : Distribution) : Prop :=
  ∀ publication ∈ distribution.handed, publication.len ≤ MAX_NETWORK_MESSAGE_LENGTH

/-! ### One message -/

/-- All tests of the receiving thread let the message pass. -/
def Passes (node : Node) (table : SeenNodes) (msg : NetworkMessage) (realMsgSize : Int) : Prop :=
  sizeAccepted msg realMsgSize ∧ msg.getSenderNode ≠ node.myNodeNr ∧ msg.isCheckSumOk ∧
    (table.messageSeen msg).returned = false ∧ msg.getTopicId ≠ 0

variable {node : Node} {table : SeenNodes} {self : Gateway} {msg : NetworkMessage}
  {realMsgSize : Int}

theorem received_of_passes (h : Passes node table msg realMsgSize) :
    self.received node table msg realMsgSize =
      ({ self with networkInMessage := msg.decMaxStepsToForward } : Gateway).publishLocally node
        (table.messageSeen msg).table := by
  obtain ⟨hsize, hother, hcheckSum, hunseen, htopic⟩ := h
  have hdecremented : msg.decMaxStepsToForward.getTopicId ≠ 0 := by
    rwa [getTopicId_decMaxStepsToForward]
  have hpositive : msg.decMaxStepsToForward.getTopicId > 0 := by
    rw [gt_iff_lt, UInt32.lt_iff_toNat_lt]
    apply Nat.pos_of_ne_zero
    intro hzero
    exact hdecremented (UInt32.toNat_inj.mp hzero)
  simp only [received, if_pos hsize, analyseAndDistributeMessagesFromNetwork, if_neg hother,
    hcheckSum, Bool.not_true, Bool.false_eq_true, if_false, hunseen, hdecremented, false_and,
    if_pos hpositive]

theorem received_routed_iff :
    (self.received node table msg realMsgSize).routed.isSome ↔
      Passes node table msg realMsgSize := by
  constructor
  · unfold received analyseAndDistributeMessagesFromNetwork
    dsimp only
    split_ifs with hsize hother hcheckSum hseen hreport htopic
    · exact fun hrouted => nomatch hrouted
    · exact fun hrouted => nomatch hrouted
    · exact fun hrouted => nomatch hrouted
    · exact fun hrouted => nomatch hrouted
    · rw [getTopicId_decMaxStepsToForward] at htopic
      refine fun _ => ⟨hsize, hother, by simpa using hcheckSum, by simpa using hseen, ?_⟩
      rintro hzero
      rw [hzero] at htopic
      exact absurd htopic (by decide)
    · exact fun hrouted => nomatch hrouted
    · exact fun hrouted => nomatch hrouted
  · intro hpasses
    rw [received_of_passes hpasses]
    rfl

/-- The message stays in the buffer, with its user data as they are. -/
theorem received_userDataC :
    (self.received node table msg realMsgSize).gateway.networkInMessage.userDataC =
      msg.userDataC := by
  unfold received
  split
  · unfold analyseAndDistributeMessagesFromNetwork
    dsimp only
    split_ifs <;> rfl
  · rfl

/-- At most this message is entered in the table. -/
theorem received_table :
    (self.received node table msg realMsgSize).table = table ∨
      (self.received node table msg realMsgSize).table = (table.messageSeen msg).table := by
  unfold received
  split
  · unfold analyseAndDistributeMessagesFromNetwork
    dsimp only
    split_ifs
    · exact Or.inl rfl
    · exact Or.inl rfl
    · exact Or.inr rfl
    · exact Or.inr rfl
    · exact Or.inr rfl
    · exact Or.inr rfl
  · exact Or.inl rfl

/-- What is handed over of the message, topic by topic. -/
def dataFor (node : Node) (topicId : UInt32) (userDataC : Memory UInt8) : List (List UInt8) :=
  node.topicList.flatMap fun topic =>
    if topic.topicId = topicId then
      (topic.mySubscribers.filter fun isEnabled => isEnabled).map fun _ =>
        userDataC.front topic.msgLen
    else []

theorem handedData_of_passes (h : Passes node table msg realMsgSize) :
    handedData (self.received node table msg realMsgSize) =
      dataFor node msg.getTopicId msg.userDataC := by
  rw [received_of_passes h, handedData, publishLocally, dataFor, List.map_flatMap]
  apply List.flatMap_congr
  intro topic _
  rw [getTopicId_decMaxStepsToForward]
  split
  · rw [TopicInterface.publish, TopicInterface.publishMsgPart, List.map_map]
    rfl
  · rfl

/-- Every enabled subscriber reads as many bytes as its topic has. -/
theorem readsInside_of_passes (h : Passes node table msg realMsgSize) :
    ReadsInside (self.received node table msg realMsgSize) ↔
      ∀ topic ∈ node.topicList, topic.topicId = msg.getTopicId → true ∈ topic.mySubscribers →
        topic.msgLen ≤ MAX_NETWORK_MESSAGE_LENGTH := by
  rw [received_of_passes h, ReadsInside, publishLocally]
  simp only [List.mem_flatMap, getTopicId_decMaxStepsToForward]
  constructor
  · intro hinside topic htopic hid henabled
    let published : Publication := ⟨topic.topicId, topic.msgLen,
      msg.decMaxStepsToForward.userDataC.front topic.msgLen,
      ({ self with networkInMessage := msg.decMaxStepsToForward } : Gateway).msgInfo⟩
    apply hinside published
    refine ⟨topic, htopic, ?_⟩
    rw [if_pos hid]
    exact List.mem_map.mpr ⟨true, List.mem_filter.mpr ⟨henabled, rfl⟩, rfl⟩
  · rintro htopics publication ⟨topic, htopic, hpublication⟩
    split at hpublication
    · next hid =>
      obtain ⟨isEnabled, henabled, hequal⟩ := List.mem_map.mp hpublication
      obtain ⟨hmem, htrue⟩ := List.mem_filter.mp henabled
      rw [← hequal]
      exact htopics topic htopic hid (htrue ▸ hmem)
    · cases hpublication

/-! ### The buffer and the table before the last message -/

variable {link : LinkType} {state : Gateway × SeenNodes}

/-- The message as the thread of the gateway sees it. -/
def arrived (state : Gateway × SeenNodes) (arrival : Arrival link) : NetworkMessage :=
  link.carry arrival.NOW arrival.slot state.1.networkInMessage arrival.outMsg

/-- No link writes to the cells behind its longest message. -/
theorem arrived_behind (state : Gateway × SeenNodes) (arrival : Arrival link) {index : Nat}
    (hindex : link.longestUserData ≤ index) :
    (arrived state arrival).userDataC index = state.1.networkInMessage.userDataC index := by
  by_cases hlen : arrival.outMsg.getLen.toNat ≤ link.longestUserData
  · exact (link.carried arrival.NOW arrival.slot _ hlen).left index (hlen.trans hindex)
  · have hcrosses := arrival.crosses.1
    cases link with
    | uart =>
      have hlongest : MAX_UART_MESSAGE_LENGTH - HEADER_SIZE ≤ index := hindex
      show (NetworkMessage.overwrite _ _ _).userDataC index = _
      rw [NetworkMessage.overwrite_userDataC, if_neg (by omega)]
    | can => exact absurd hcrosses hlen
    | udp => exact absurd hcrosses hlen
    | sharedMemory => exact absurd hcrosses hlen

theorem afterArrivals_behind (node : Node) (state : Gateway × SeenNodes)
    (history : List (Arrival link)) {index : Nat} (hindex : link.longestUserData ≤ index) :
    (afterArrivals node state history).1.networkInMessage.userDataC index =
      state.1.networkInMessage.userDataC index := by
  induction history generalizing state with
  | nil => rfl
  | cons arrival history ih =>
    apply (ih _).trans
    show (arrive node state arrival).gateway.networkInMessage.userDataC index = _
    rw [arrive, received_userDataC]
    exact arrived_behind state arrival hindex

theorem Accepted.passes {arrival : Arrival link} (h : Accepted node state arrival) :
    Passes node state.2 (arrived state arrival) (link.reportedSize arrival.outMsg) :=
  received_routed_iff.mp h

/-- The UART link reports a size that does not fit the message it has cut off. -/
theorem Accepted.len_le {arrival : Arrival link} (h : Accepted node state arrival) :
    arrival.outMsg.getLen.toNat ≤ link.longestUserData := by
  have hcrosses := arrival.crosses.1
  cases link with
  | uart =>
    have hmax : MAX_UART_MESSAGE_LENGTH = 1300 := rfl
    have hheader : HEADER_SIZE = 36 := rfl
    have hcount := NetworkMessage.toNat_numberOfBytesToSend_of_le hcrosses
    have hlen : (arrived state arrival).getLen = arrival.outMsg.getLen := by
      apply NetworkMessage.getLen_of_cells
      intro index _ hindex
      exact NetworkMessage.overwrite_header (by omega) (by omega)
    have hsize := (sizeAccepted_iff _ _).mp h.passes.1
    rw [hlen, LinkType.reportedSize, hcount] at hsize
    show arrival.outMsg.getLen.toNat ≤ MAX_UART_MESSAGE_LENGTH - HEADER_SIZE
    omega
  | can => exact hcrosses
  | udp => exact hcrosses
  | sharedMemory => exact hcrosses

theorem Accepted.carried {arrival : Arrival link} (h : Accepted node state arrival) :
    Carried link arrival.NOW state.1.networkInMessage arrival.outMsg (arrived state arrival) :=
  link.carried arrival.NOW arrival.slot _ h.len_le

/-- Only the table of seen nodes decides whether a message is accepted in one state and not in
another. -/
theorem Accepted.transfer {arrival : Arrival link} (h : Accepted node state arrival)
    (slot : NetworkMessage) {other : Gateway × SeenNodes}
    (hunseen : (other.2.messageSeen (arrived other { arrival with slot := slot })).returned =
      false) : Accepted node other { arrival with slot := slot } := by
  have hhere := h.carried
  have hthere := link.carried arrival.NOW slot other.1.networkInMessage h.len_le
  obtain ⟨hsize, hother, hcheckSum, _, htopic⟩ := h.passes
  refine received_routed_iff.mpr ⟨?_, ?_, ?_, hunseen, ?_⟩
  · rw [sizeAccepted_iff, hhere.len] at hsize
    rw [sizeAccepted_iff, hthere.len]
    exact hsize
  · rw [hthere.senderNode, ← hhere.senderNode]
    exact hother
  · rw [hthere.isCheckSumOk, ← hhere.isCheckSumOk]
    exact hcheckSum
  · rw [hthere.topicId, ← hhere.topicId]
    exact htopic

theorem Accepted.handedData {arrival : Arrival link} (h : Accepted node state arrival) :
    handedData (arrive node state arrival) =
      dataFor node (link.topicId arrival.outMsg) (arrived state arrival).userDataC := by
  rw [← h.carried.topicId]
  exact handedData_of_passes h.passes

theorem Accepted.readsInside_iff {arrival : Arrival link} (h : Accepted node state arrival) :
    ReadsInside (arrive node state arrival) ↔
      ∀ topic ∈ node.topicList, topic.topicId = link.topicId arrival.outMsg →
        true ∈ topic.mySubscribers → topic.msgLen ≤ MAX_NETWORK_MESSAGE_LENGTH := by
  rw [← h.carried.topicId]
  exact readsInside_of_passes h.passes

/-! ### Messages that fill the buffer -/

/-- The longest message that the link carries, all of its user data being one byte, with the topic
and the sender of another message. -/
def filledWith (link : LinkType) (outMsg : NetworkMessage) (byte : UInt8) (time : Int64) :
    NetworkMessage :=
  ({ outMsg with userDataC := fun _ => byte }.putLen
    (UInt16.ofNat link.longestUserData)).putSentTime time

theorem toNat_getLen_filledWith (outMsg : NetworkMessage) (byte : UInt8) (time : Int64) :
    (filledWith link outMsg byte time).getLen.toNat = link.longestUserData := by
  have hlen : (filledWith link outMsg byte time).getLen = UInt16.ofNat link.longestUserData := by
    refine (NetworkMessage.getLen_of_cells fun index _ _ => ?_).trans
      (NetworkMessage.getLen_putLen { outMsg with userDataC := fun _ => byte } _)
    exact Memory.storeBigEndian_other _ _ (by omega)
  rw [hlen]
  cases link <;> rfl

def filling (link : LinkType) (outMsg : NetworkMessage) (byte : UInt8) (time : Int64) :
    Arrival link where
  NOW := time
  slot := outMsg
  outMsg := filledWith link outMsg byte time
  crosses := by
    rw [LinkType.Crosses, toNat_getLen_filledWith]
    cases link <;> decide

theorem filling_carried (state : Gateway × SeenNodes) (outMsg : NetworkMessage) (byte : UInt8)
    (time : Int64) :
    Carried link time state.1.networkInMessage (filledWith link outMsg byte time)
      (arrived state (filling link outMsg byte time)) :=
  link.carried time outMsg _ (Nat.le_of_eq (toNat_getLen_filledWith outMsg byte time))

theorem filling_senderNode (outMsg : NetworkMessage) (byte : UInt8) (time : Int64) :
    link.senderNode (filledWith link outMsg byte time) = link.senderNode outMsg := by
  have hsender : (filledWith link outMsg byte time).getSenderNode = outMsg.getSenderNode := by
    rw [filledWith, NetworkMessage.getSenderNode_putSentTime, NetworkMessage.getSenderNode_putLen]
    rfl
  cases link with
  | can => rw [LinkType.senderNode, NetworkMessage.canID_node, hsender,
      ← NetworkMessage.canID_node, LinkType.senderNode]
  | uart => exact hsender
  | udp => exact hsender
  | sharedMemory => exact hsender

theorem filling_sentTime (outMsg : NetworkMessage) (byte : UInt8) (time : Int64) :
    link.sentTime time (filledWith link outMsg byte time) = time := by
  cases link with
  | can => rfl
  | uart => exact NetworkMessage.getSentTime_putSentTime _ _
  | udp => exact NetworkMessage.getSentTime_putSentTime _ _
  | sharedMemory => exact NetworkMessage.getSentTime_putSentTime _ _

/-- A message that is accepted is still accepted behind one that fills the buffer with any byte. -/
theorem Accepted.exists_filling {arrival : Arrival link} (h : Accepted node state arrival) :
    ∃ time, ∀ byte,
      Accepted node (afterArrivals node state [filling link arrival.outMsg byte time]) arrival ∧
        ∀ index, arrival.outMsg.getLen.toNat ≤ index → index < link.longestUserData →
          (arrived (afterArrivals node state [filling link arrival.outMsg byte time])
            arrival).userDataC index = byte := by
  obtain ⟨time, hearlier⟩ := SeenNodes.exists_earlier_time h.passes.2.2.2.1
  refine ⟨time, fun byte => ?_⟩
  let other := afterArrivals node state [filling link arrival.outMsg byte time]
  have hfilling : Carried link time state.1.networkInMessage _
      (arrived state (filling link arrival.outMsg byte time)) :=
    filling_carried state arrival.outMsg byte time
  have hlast := link.carried arrival.NOW arrival.slot other.1.networkInMessage h.len_le
  have hsame : ∀ table : SeenNodes, (table.messageSeen (arrived other arrival)).returned =
      (table.messageSeen (arrived state arrival)).returned := by
    intro table
    apply SeenNodes.messageSeen_returned_congr
    · exact hlast.senderNode.trans h.carried.senderNode.symm
    · exact hlast.sentTime.trans h.carried.sentTime.symm
  have hunseen : (other.2.messageSeen (arrived other arrival)).returned = false := by
    have htable : other.2 = state.2 ∨
        other.2 = (state.2.messageSeen
          (arrived state (filling link arrival.outMsg byte time))).table := received_table
    rw [hsame]
    cases htable with
    | inl hkept =>
      rw [hkept]
      exact h.passes.2.2.2.1
    | inr hentered =>
      rw [hentered]
      apply hearlier
      · rw [hfilling.senderNode, filling_senderNode, h.carried.senderNode]
      · rw [hfilling.sentTime, filling_sentTime]
  refine ⟨h.transfer arrival.slot hunseen, fun index hlow hhigh => ?_⟩
  have hbuffer : other.1.networkInMessage.userDataC =
      (arrived state (filling link arrival.outMsg byte time)).userDataC :=
    received_userDataC
  calc (arrived other arrival).userDataC index
      = other.1.networkInMessage.userDataC index := hlast.left index hlow
    _ = (arrived state (filling link arrival.outMsg byte time)).userDataC index :=
        congrFun hbuffer index
    _ = (filledWith link arrival.outMsg byte time).userDataC index :=
        hfilling.received index (by rwa [toNat_getLen_filledWith])
    _ = byte := rfl

/-! ### Two runs -/

/-- The message is long enough for the topic, or it fills all that the link writes to the buffer
and the topic fits into that. -/
def Covers (link : LinkType) (outMsg : NetworkMessage) (topic : TopicInterface) : Prop :=
  topic.msgLen ≤ outMsg.getLen.toNat ∨
    link.longestUserData ≤ outMsg.getLen.toNat ∧ topic.msgLen ≤ MAX_NETWORK_MESSAGE_LENGTH

instance (link : LinkType) (outMsg : NetworkMessage) (topic : TopicInterface) :
    Decidable (Covers link outMsg topic) := inferInstanceAs (Decidable (_ ∨ _ ∧ _))

/-- The buffers agree on what a covered topic is handed. -/
theorem front_arrived_eq {start left right : Gateway × SeenNodes} {arrival other : Arrival link}
    {topic : TopicInterface} (hcovers : Covers link arrival.outMsg topic)
    (hsame : other.outMsg = arrival.outMsg) (hleft : Accepted node left arrival)
    (hright : Accepted node right other)
    (hleftBehind : ∀ index, link.longestUserData ≤ index →
      left.1.networkInMessage.userDataC index = start.1.networkInMessage.userDataC index)
    (hrightBehind : ∀ index, link.longestUserData ≤ index →
      right.1.networkInMessage.userDataC index = start.1.networkInMessage.userDataC index) :
    (arrived left arrival).userDataC.front topic.msgLen =
      (arrived right other).userDataC.front topic.msgLen := by
  have hcarried := hright.carried
  rw [hsame] at hcarried
  apply Memory.front_congr
  intro index hindex
  by_cases hreceived : index < arrival.outMsg.getLen.toNat
  · rw [hleft.carried.received index hreceived, hcarried.received index hreceived]
  · have hbehind : link.longestUserData ≤ index := by
      cases hcovers with
      | inl hlong => omega
      | inr hlongest => exact Nat.le_trans hlongest.1 (Nat.le_of_not_lt hreceived)
    rw [hleft.carried.left index (by omega), hcarried.left index (by omega),
      hleftBehind index hbehind, hrightBehind index hbehind]

theorem mem_dataFor {topicId : UInt32} {userDataC : Memory UInt8} {data : List UInt8} :
    data ∈ dataFor node topicId userDataC ↔
      ∃ topic ∈ node.topicList, topic.topicId = topicId ∧ true ∈ topic.mySubscribers ∧
        data = userDataC.front topic.msgLen := by
  rw [dataFor, List.mem_flatMap]
  constructor
  · rintro ⟨topic, htopic, hdata⟩
    split at hdata
    · next hid =>
      obtain ⟨isEnabled, henabled, hequal⟩ := List.mem_map.mp hdata
      obtain ⟨hmem, htrue⟩ := List.mem_filter.mp henabled
      exact ⟨topic, htopic, hid, htrue ▸ hmem, hequal.symm⟩
    · cases hdata
  · rintro ⟨topic, htopic, hid, henabled, hequal⟩
    refine ⟨topic, htopic, ?_⟩
    rw [if_pos hid]
    exact List.mem_map.mpr ⟨true, List.mem_filter.mpr ⟨henabled, rfl⟩, hequal.symm⟩

theorem dataFor_congr {topicId : UInt32} {left right : Memory UInt8}
    (hsame : ∀ topic ∈ node.topicList, topic.topicId = topicId → true ∈ topic.mySubscribers →
      left.front topic.msgLen = right.front topic.msgLen) :
    dataFor node topicId left = dataFor node topicId right := by
  apply List.flatMap_congr
  intro topic htopic
  split
  · next hid =>
    apply List.map_congr_left
    intro isEnabled henabled
    obtain ⟨hmem, htrue⟩ := List.mem_filter.mp henabled
    exact hsame topic htopic hid (htrue ▸ hmem)
  · rfl

/-- Data with different bytes at some place are different, whatever the topics are. -/
theorem dataFor_ne {topicId : UInt32} {left right : Memory UInt8} {topic : TopicInterface}
    {index : Nat} (htopic : topic ∈ node.topicList) (hid : topic.topicId = topicId)
    (henabled : true ∈ topic.mySubscribers) (hindex : index < topic.msgLen)
    (hbytes : left index ≠ right index) :
    dataFor node topicId left ≠ dataFor node topicId right := by
  intro hsame
  have hmem : left.front topic.msgLen ∈ dataFor node topicId right := by
    rw [← hsame]
    exact mem_dataFor.mpr ⟨topic, htopic, hid, henabled, rfl⟩
  obtain ⟨other, _, _, _, hequal⟩ := mem_dataFor.mp hmem
  have hbyte := congrArg (fun bytes : List UInt8 => bytes[index]?) hequal
  simp only [Memory.getElem?_front, if_pos hindex] at hbyte
  split at hbyte
  · exact hbytes (Option.some.inj hbyte)
  · cases hbyte

/-- Of a message that some run accepts, the subscribers are handed bytes of the buffer that depend
on nothing before exactly if it covers every topic it is published under. -/
theorem handed_data_fresh_iff (node : Node) (start : Gateway × SeenNodes) (arrival : Arrival link)
    (haccepted : ∃ before : List (Arrival link),
      Accepted node (afterArrivals node start before) arrival) :
    (∀ (before before' : List (Arrival link)) (slot : NetworkMessage),
      Accepted node (afterArrivals node start before) arrival →
      Accepted node (afterArrivals node start before') { arrival with slot := slot } →
      ReadsInside (arrive node (afterArrivals node start before) arrival) ∧
        handedData (arrive node (afterArrivals node start before) arrival) =
          handedData
            (arrive node (afterArrivals node start before') { arrival with slot := slot })) ↔
    ∀ topic ∈ node.topicList, topic.topicId = link.topicId arrival.outMsg →
      true ∈ topic.mySubscribers → Covers link arrival.outMsg topic := by
  constructor
  · intro hfresh topic htopic hid henabled
    by_contra huncovered
    obtain ⟨before, hbefore⟩ := haccepted
    have hinside := hbefore.readsInside_iff.mp (hfresh _ _ arrival.slot hbefore hbefore).1 topic
      htopic hid henabled
    obtain ⟨time, hfilling⟩ := hbefore.exists_filling
    have hrun : ∀ byte, afterArrivals node start (before ++ [filling link arrival.outMsg byte time])
        = afterArrivals node (afterArrivals node start before)
          [filling link arrival.outMsg byte time] := fun byte => List.foldl_append
    obtain ⟨hzeros, hzero⟩ := hfilling 0
    obtain ⟨hones, hone⟩ := hfilling 1
    rw [← hrun] at hzeros hones
    have hsame := (hfresh _ _ arrival.slot hzeros hones).2
    rw [hzeros.handedData, hones.handedData] at hsame
    unfold Covers at huncovered
    have hbytes : (arrived (afterArrivals node start
          (before ++ [filling link arrival.outMsg 0 time])) arrival).userDataC
            arrival.outMsg.getLen.toNat ≠
        (arrived (afterArrivals node start
          (before ++ [filling link arrival.outMsg 1 time])) arrival).userDataC
            arrival.outMsg.getLen.toNat := by
      rw [hrun, hrun, hzero _ (Nat.le_refl _) (by omega), hone _ (Nat.le_refl _) (by omega)]
      decide
    exact dataFor_ne htopic hid henabled (by omega) hbytes hsame
  · intro hcovers before before' slot hleft hright
    constructor
    · rw [hleft.readsInside_iff]
      intro topic htopic hid henabled
      cases hcovers topic htopic hid henabled with
      | inl hlong => exact hlong.trans arrival.crosses.1
      | inr hlongest => exact hlongest.2
    · rw [hleft.handedData, hright.handedData]
      apply dataFor_congr
      intro topic htopic hid henabled
      exact front_arrived_eq (hcovers topic htopic hid henabled) rfl hleft hright
        (fun _ => afterArrivals_behind node start before)
        (fun _ => afterArrivals_behind node start before')

/-- These bytes from node 2, sent to topic 7 at some time. -/
def messageOf (bytes : List UInt8) (time : Int64) : NetworkMessage :=
  ((((NetworkMessage.mk (fun _ => 0) (fun _ => 0)).putSenderNode 2).putTopicId 7).putSentTime
    time).setUserData (fun index => bytes.getD index 0) (UInt16.ofNat bytes.length) |>.setCheckSum

/-- Over the UDP link. -/
def arrivalOf (bytes : List UInt8) (time : Int64)
    (hcrosses : LinkType.udp.Crosses (messageOf bytes time)) : Arrival .udp where
  NOW := time
  slot := ⟨fun _ => 0, fun _ => 0⟩
  outMsg := messageOf bytes time
  crosses := hcrosses

/-- Node 1, where the subscriber of topic 7 is handed messages of that length. -/
def subscribed (msgLen : Nat) : Node := ⟨1, [⟨7, msgLen, [true]⟩]⟩

set_option maxRecDepth 4000 in
theorem handed_data_fresh_iff_twoBytes :
    let start := (silent, SeenNodes.start fun _ => ⟨0, 0⟩)
    let handed (before : List (Arrival .udp)) :=
      handedData (arrive (subscribed 2) (afterArrivals (subscribed 2) start before)
        (arrivalOf [1, 2] 20 (by decide)))
    handed [] = handed [arrivalOf [3, 4, 5, 6] 10 (by decide)] :=
  ((handed_data_fresh_iff (subscribed 2) (silent, SeenNodes.start fun _ => ⟨0, 0⟩)
    (arrivalOf [1, 2] 20 (by decide)) ⟨[], by decide⟩).mpr (by decide) []
      [arrivalOf [3, 4, 5, 6] 10 (by decide)] ⟨fun _ => 0, fun _ => 0⟩ (by decide) (by decide)).2

set_option maxRecDepth 4000 in
/-- A message of two bytes, published under a topic of four. -/
theorem handed_data_stale :
    let start := (silent, SeenNodes.start fun _ => ⟨0, 0⟩)
    let handed (before : List (Arrival .udp)) :=
      arrive (subscribed 4) (afterArrivals (subscribed 4) start before)
        (arrivalOf [1, 2] 20 (by decide))
    let before := [arrivalOf [3, 4, 5, 6] 10 (by decide)]
    (handed []).routed.isSome ∧ (handed before).routed.isSome ∧
      handedData (handed []) = [[1, 2, 0, 0]] ∧ handedData (handed before) = [[1, 2, 5, 6]] := by
  decide

end Gateway

end Rodos.Gateway
