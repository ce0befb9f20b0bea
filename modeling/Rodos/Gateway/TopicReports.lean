import Rodos.Gateway.Gateway

/-! Topic reports from the network and the bounds of the topic lists. -/
set_option linter.dupNamespace false

namespace Rodos.Gateway.Gateway
open Library

/-- The received message is taken as a report of topics expected outside. -/
def TakesReport (node : Node) (table : SeenNodes) (self : Gateway) : Prop :=
  self.networkInMessage.getSenderNode ≠ node.myNodeNr ∧ self.networkInMessage.isCheckSumOk ∧
    (table.messageSeen self.networkInMessage).returned = false ∧
    self.networkInMessage.getTopicId = 0 ∧ self.getTopicsToForwardFromOutside

instance (node : Node) (table : SeenNodes) (self : Gateway) :
    Decidable (self.TakesReport node table) := inferInstanceAs (Decidable (_ ∧ _))

/-- The number of topics that a report claims to list. -/
def reportedTopics (msg : NetworkMessage) : Nat :=
  (TopicListReport.ofUserData msg.userDataC).numberOfTopics

/-- The table of external subscribers is within its bounds, and the message was handled, and later
searches are, without an access outside of a topic list. -/
structure TopicListsIntact (distribution : Distribution) : Prop where
  numberOfTopics : distribution.gateway.externalsubscribers.numberOfTopics ≤ MAX_SUBSCRIBERS
  touched : ∀ index ∈ distribution.touched, index < MAX_SUBSCRIBERS
  later : ∀ topicId,
    ∀ index ∈ (distribution.gateway.externalsubscribers.find topicId).touched,
      index < MAX_SUBSCRIBERS

variable {node : Node} {table : SeenNodes} {self : Gateway}

@[simp] theorem getTopicId_decMaxStepsToForward (msg : NetworkMessage) :
    msg.decMaxStepsToForward.getTopicId = msg.getTopicId :=
  NetworkMessage.getTopicId_of_cells fun _ _ _ => Memory.storeBigEndian_other _ _ (by omega)

theorem topicListsIntact_of_bound {distribution : Distribution}
    (hbound : distribution.gateway.externalsubscribers.numberOfTopics ≤ MAX_SUBSCRIBERS)
    (htouched : ∀ index ∈ distribution.touched, index < MAX_SUBSCRIBERS) :
    TopicListsIntact distribution := by
  refine ⟨hbound, htouched, fun topicId index hindex => ?_⟩
  exact (TopicListReport.find_touched topicId index hindex).trans_le hbound

/-- No other message touches a topic list. -/
theorem analyse_of_no_report (hnone : ¬ self.TakesReport node table) :
    let distribution := self.analyseAndDistributeMessagesFromNetwork node table
    distribution.gateway.externalsubscribers = self.externalsubscribers ∧
      distribution.touched = [] := by
  unfold analyseAndDistributeMessagesFromNetwork
  split
  · exact ⟨rfl, rfl⟩
  · next hother =>
    split
    · exact ⟨rfl, rfl⟩
    · next hcheckSum =>
      dsimp only
      split
      · exact ⟨rfl, rfl⟩
      · next hseen =>
        split
        · next hreport =>
          rw [getTopicId_decMaxStepsToForward] at hreport
          refine absurd ⟨hother, ?_, ?_, hreport⟩ hnone
          · simpa using hcheckSum
          · simpa using hseen
        · split <;> exact ⟨rfl, rfl⟩

theorem analyse_of_report (hreport : self.TakesReport node table) :
    self.analyseAndDistributeMessagesFromNetwork node table =
      ({ self with networkInMessage := self.networkInMessage.decMaxStepsToForward } :
        Gateway).takeTopicReport (table.messageSeen self.networkInMessage).table := by
  obtain ⟨hother, hcheckSum, hseen, htopic, houtside⟩ := hreport
  rw [analyseAndDistributeMessagesFromNetwork, if_neg hother, if_neg (by simp [hcheckSum])]
  simp only [hseen, Bool.false_eq_true, if_false]
  rw [if_pos]
  exact ⟨(getTopicId_decMaxStepsToForward _).trans htopic, houtside⟩

/-- Both ways of taking a report stay in bounds exactly when its count does. -/
theorem takeTopicReport_intact_iff
    (hbound : self.externalsubscribers.numberOfTopics ≤ MAX_SUBSCRIBERS) :
    TopicListsIntact (self.takeTopicReport table) ↔
      reportedTopics self.networkInMessage ≤ MAX_SUBSCRIBERS := by
  cases hlink : self.isBroadcastLink with
  | true =>
    obtain ⟨hadded, htouched⟩ := TopicListReport.addFrom_bounds
      (.ofUserData self.networkInMessage.userDataC) (reportedTopics self.networkInMessage) 0 hbound
    constructor
    · intro hintact
      have hindices := hintact.touched
      simp only [takeTopicReport, hlink, if_true] at hindices
      have hcount := htouched.mp hindices
      have hsize : MAX_SUBSCRIBERS = 60 := rfl
      omega
    · intro hcount
      apply topicListsIntact_of_bound
      · simp only [takeTopicReport, hlink, if_true]
        exact hadded
      · simp only [takeTopicReport, hlink, if_true]
        exact htouched.mpr (Or.inr (by omega))
  | false =>
    constructor
    · intro hintact
      have hcount := hintact.numberOfTopics
      simp only [takeTopicReport, hlink, Bool.false_eq_true, if_false] at hcount
      exact hcount
    · intro hcount
      apply topicListsIntact_of_bound
      · simp only [takeTopicReport, hlink, Bool.false_eq_true, if_false]
        exact hcount
      · simp only [takeTopicReport, hlink, Bool.false_eq_true, if_false]
        exact fun index hindex => List.mem_range.mp hindex

theorem analyse_intact_iff
    (hbound : self.externalsubscribers.numberOfTopics ≤ MAX_SUBSCRIBERS) :
    TopicListsIntact (self.analyseAndDistributeMessagesFromNetwork node table) ↔
      (self.TakesReport node table → reportedTopics self.networkInMessage ≤ MAX_SUBSCRIBERS) := by
  by_cases hreport : self.TakesReport node table
  · rw [analyse_of_report hreport]
    have hiff := @takeTopicReport_intact_iff (table.messageSeen self.networkInMessage).table
      { self with networkInMessage := self.networkInMessage.decMaxStepsToForward } hbound
    exact hiff.trans ⟨fun hcount _ => hcount, fun hcount => hcount hreport⟩
  · obtain ⟨hsame, hnothing⟩ := analyse_of_no_report hreport
    constructor
    · exact fun _ htaken => absurd htaken hreport
    · intro _
      apply topicListsIntact_of_bound
      · rw [hsame]
        exact hbound
      · rw [hnothing]
        exact fun index hindex => by cases hindex

/-- The gateway and the shared table, as a message has been stored and analysed. -/
def analyseNext (node : Node) (state : Gateway × SeenNodes) (msg : NetworkMessage) :
    Option (Gateway × SeenNodes) :=
  let distribution := ({ state.1 with networkInMessage := msg } :
    Gateway).analyseAndDistributeMessagesFromNetwork node state.2
  some (distribution.gateway, distribution.table)

/-- If the message is taken as a report, it lists no more topics than there is room for. -/
def ReportFits (node : Node) (state : Gateway × SeenNodes) (msg : NetworkMessage) : Prop :=
  ({ state.1 with networkInMessage := msg } : Gateway).TakesReport node state.2 →
    reportedTopics msg ≤ MAX_SUBSCRIBERS

instance (node : Node) (state : Gateway × SeenNodes) (msg : NetworkMessage) :
    Decidable (ReportFits node state msg) := inferInstanceAs (Decidable (_ → _))

theorem stored_intact_iff (hbound : self.externalsubscribers.numberOfTopics ≤ MAX_SUBSCRIBERS)
    (msg : NetworkMessage) :
    TopicListsIntact (({ self with networkInMessage := msg } :
        Gateway).analyseAndDistributeMessagesFromNetwork node table) ↔
      ReportFits node (self, table) msg :=
  analyse_intact_iff hbound

/-- A message leaves the topic lists intact exactly if it is no report that lists more topics than
there is room for, and so do any number of messages that are none. -/
theorem topic_lists_intact_iff (node : Node) (table : SeenNodes) (self : Gateway)
    (hbound : self.externalsubscribers.numberOfTopics ≤ MAX_SUBSCRIBERS) :
    (∀ msg, TopicListsIntact (({ self with networkInMessage := msg } :
        Gateway).analyseAndDistributeMessagesFromNetwork node table) ↔
      ReportFits node (self, table) msg) ∧
    ∀ messages msg,
      Along (analyseNext node) (ReportFits node) (self, table) (messages ++ [msg]) →
      ∃ state, run (analyseNext node) (self, table) messages = some state ∧
        TopicListsIntact (({ state.1 with networkInMessage := msg } :
          Gateway).analyseAndDistributeMessagesFromNetwork node state.2) := by
  refine ⟨stored_intact_iff hbound, fun messages => ?_⟩
  induction messages generalizing self table with
  | nil =>
    intro msg halong
    exact ⟨(self, table), rfl, (stored_intact_iff hbound msg).mpr (halong.of_cons rfl).1⟩
  | cons first messages ih =>
    intro msg halong
    rw [List.cons_append] at halong
    obtain ⟨hfits, hlater⟩ := halong.of_cons rfl
    have hintact := (stored_intact_iff hbound first).mpr hfits
    obtain ⟨state, hrun, hlast⟩ := ih _ _ hintact.numberOfTopics msg hlater
    exact ⟨state, run_cons rfl hrun, hlast⟩

/-- A gateway on a link that is no broadcast link, with an empty list of external subscribers. -/
def silent : Gateway where
  networkInMessage := ⟨fun _ => 0, fun _ => 0⟩
  externalsubscribers := ⟨0, fun _ => 0⟩
  forwardAll := false
  linkIdentifier := 1
  isBroadcastLink := false
  getTopicsToForwardFromOutside := true

/-- A report of that many topics from node 2, of topic 0 as all of its header is 0 otherwise. -/
def reportOf (count : UInt8) : NetworkMessage :=
  (((NetworkMessage.mk (fun _ => 0) (Memory.store (fun _ => 0) 0 count)).putSenderNode 2).putLen
    4).setCheckSum

set_option maxRecDepth 4000 in
theorem topic_lists_intact_iff_sixty :
    TopicListsIntact (({ silent with networkInMessage := reportOf 60 } :
      Gateway).analyseAndDistributeMessagesFromNetwork ⟨1, []⟩ (.start fun _ => ⟨0, 0⟩)) :=
  ((topic_lists_intact_iff ⟨1, []⟩ (.start fun _ => ⟨0, 0⟩) silent (by decide)).1
    (reportOf 60)).mpr (by decide)

set_option maxRecDepth 4000 in
/-- A report of 61 topics sets the count of the table to 61, and on a broadcast link reads the 61st
entry of a list. -/
theorem topic_lists_overrun :
    let distribution (isBroadcastLink : Bool) :=
      ({ silent with networkInMessage := reportOf 61, isBroadcastLink := isBroadcastLink } :
        Gateway).analyseAndDistributeMessagesFromNetwork ⟨1, []⟩ (.start fun _ => ⟨0, 0⟩)
    (distribution false).gateway.externalsubscribers.numberOfTopics = 61 ∧
      60 ∈ (distribution true).touched := by
  decide

end Rodos.Gateway.Gateway
