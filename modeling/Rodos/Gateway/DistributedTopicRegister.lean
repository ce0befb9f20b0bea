import Rodos.Gateway.TopicListReport
import Rodos.Gateway.SeenNodes
import Rodos.Library.Runs
import Rodos.Time.TimeModel
import Mathlib.Data.List.Forall2

/-! `DistributedTopicRegister`: which nodes have subscribers for the topics of a node, as far as
their reports tell. -/
set_option linter.dupNamespace false

namespace Rodos.Gateway
open Library Time

def MAX_NUM_OF_NODES : Nat := 32
def ALL_TOPICS_BELOW_THIS_ARE_BROADCAST : UInt32 := 10

structure TopicListPerNode where
  nodeNr : UInt32
  nodeIndex : UInt8
  topicListReport : TopicListReport

/-- A local topic, with what the register needs of it. -/
structure RegisteredTopic where
  topicId : UInt32
  hasSubscribers : Bool
  receiverNodesBitMap : UInt32
  deriving DecidableEq

def RegisteredTopic.hasReceiver (self : RegisteredTopic) (nodeIndex : Nat) : Bool :=
  self.receiverNodesBitMap.toBitVec.getLsbD nodeIndex

structure DistributedTopicRegister where
  nodeNumber : UInt32
  lastReportTimeOfNode : Memory Int64
  topicList : List RegisteredTopic

/-- A call of `put`: the register behind it, the shift amounts, the indices into
`lastReportTimeOfNode` and the indices at which the topic list of the report is read. -/
structure PutReport where
  register : DistributedTopicRegister
  shiftedBy : List Nat := []
  indexed : List Nat := []
  touched : List Nat := []

namespace DistributedTopicRegister

/-- The topics as their constructors leave them. -/
def start (nodeNumber : UInt32) (topics : List (UInt32 × Bool)) : DistributedTopicRegister where
  nodeNumber := nodeNumber
  lastReportTimeOfNode := fun _ => END_OF_TIME
  topicList := topics.map fun topic =>
    { topicId := topic.1
      hasSubscribers := topic.2
      receiverNodesBitMap :=
        if topic.1 < ALL_TOPICS_BELOW_THIS_ARE_BROADCAST then ~~~0 else 0 }

/-- The report that `run` publishes again and again. -/
def topicListFromMyNode (self : DistributedTopicRegister) : TopicListPerNode where
  nodeNr := self.nodeNumber
  nodeIndex := UInt8.ofNat (self.nodeNumber.toNat % MAX_NUM_OF_NODES)
  topicListReport := self.topicList.foldl (fun report iter =>
    if iter.hasSubscribers then (report.add iter.topicId).result else report) ⟨0, fun _ => 0⟩

/-- The end of the time loop of `run`. -/
def removeDeadNodes (self : DistributedTopicRegister) (NOW : Int64) : DistributedTopicRegister :=
  let definitionOfVeryOld := NOW - 10 * SECONDS
  { self with
    topicList := (List.range MAX_NUM_OF_NODES).foldl (fun topicList i =>
      if self.lastReportTimeOfNode i < definitionOfVeryOld then
        let zeroAtBitPos : UInt32 := ~~~(0x01 <<< UInt32.ofNat i)
        topicList.map fun iter =>
          { iter with receiverNodesBitMap := iter.receiverNodesBitMap &&& zeroAtBitPos }
      else topicList) self.topicList }

def put (self : DistributedTopicRegister) (NOW : Int64) (hisTopics : TopicListPerNode) :
    PutReport :=
  if hisTopics.nodeNr = self.nodeNumber then { register := self }
  else
    let oneAtBitPos : UInt32 := 0x01 <<< hisTopics.nodeIndex.toUInt32
    { register := { self with
        lastReportTimeOfNode := self.lastReportTimeOfNode.store hisTopics.nodeIndex.toNat NOW
        topicList := self.topicList.map fun iter =>
          if (hisTopics.topicListReport.find iter.topicId).result then
            { iter with receiverNodesBitMap := iter.receiverNodesBitMap ||| oneAtBitPos }
          else iter }
      shiftedBy := [hisTopics.nodeIndex.toNat]
      indexed := [hisTopics.nodeIndex.toNat]
      touched := self.topicList.flatMap fun iter =>
        (hisTopics.topicListReport.find iter.topicId).touched }

end DistributedTopicRegister

/-! ### Accesses -/

namespace TopicListReport

variable {self : TopicListReport}

def Contains (self : TopicListReport) (topicId : UInt32) : Prop :=
  ∃ i < self.numberOfTopics, self.topicList i = topicId

theorem findFrom_result_iff (topicId : UInt32) (remaining i : Nat) :
    (self.findFrom topicId remaining i).result ↔
      ∃ k, i ≤ k ∧ k < i + remaining ∧ self.topicList k = topicId := by
  induction remaining generalizing i with
  | zero =>
    constructor
    · exact fun h => nomatch h
    · rintro ⟨k, hlow, hhigh, -⟩
      omega
  | succ remaining ih =>
    unfold findFrom
    split
    · next hfound => exact ⟨fun _ => ⟨i, Nat.le_refl i, by omega, hfound.symm⟩, fun _ => rfl⟩
    · next hother =>
      refine (ih (i + 1)).trans ⟨?_, ?_⟩
      · rintro ⟨k, hlow, hhigh, hk⟩
        exact ⟨k, by omega, by omega, hk⟩
      · rintro ⟨k, hlow, hhigh, hk⟩
        refine ⟨k, ?_, by omega, hk⟩
        apply lt_of_le_of_ne hlow
        rintro rfl
        exact hother hk.symm

theorem find_result_iff (topicId : UInt32) :
    (self.find topicId).result ↔ self.Contains topicId := by
  rw [find, findFrom_result_iff, Contains]
  simp

/-- A search that ends at the topic goes no further. -/
theorem findFrom_touched_lt_iff (topicId : UInt32) (remaining i limit : Nat) :
    (∀ index ∈ (self.findFrom topicId remaining i).touched, index < limit) ↔
      remaining = 0 ∨ i + remaining ≤ limit ∨
        ∃ k, i ≤ k ∧ k < limit ∧ self.topicList k = topicId := by
  induction remaining generalizing i with
  | zero => simp [findFrom]
  | succ remaining ih =>
    unfold findFrom
    split
    · next hfound =>
      rw [List.forall_mem_singleton]
      constructor
      · exact fun hlt => .inr (.inr ⟨i, Nat.le_refl i, hlt, hfound.symm⟩)
      · rintro (hnone | hfits | ⟨k, hlow, hhigh, -⟩) <;> omega
    · next hother =>
      rw [List.forall_mem_cons, ih (i + 1)]
      constructor
      · rintro ⟨hfirst, hnone | hfits | ⟨k, hlow, hhigh, hk⟩⟩
        · exact .inr (.inl (by omega))
        · exact .inr (.inl (by omega))
        · exact .inr (.inr ⟨k, by omega, hhigh, hk⟩)
      · rintro (hnone | hfits | ⟨k, hlow, hhigh, hk⟩)
        · omega
        · exact ⟨by omega, .inr (.inl (by omega))⟩
        · have hne : i ≠ k := by
            rintro rfl
            exact hother hk.symm
          exact ⟨by omega, .inr (.inr ⟨k, by omega, hhigh, hk⟩)⟩

theorem find_touched_lt_iff (topicId : UInt32) (limit : Nat) :
    (∀ index ∈ (self.find topicId).touched, index < limit) ↔
      self.numberOfTopics ≤ limit ∨ ∃ k < limit, self.topicList k = topicId := by
  rw [find, findFrom_touched_lt_iff]
  simp only [Nat.zero_add, Nat.zero_le, true_and]
  constructor
  · rintro (hnone | hfits | hfound)
    · exact .inl (by omega)
    · exact .inl hfits
    · exact .inr hfound
  · exact .inr

theorem numberOfTopics_add_le (topicId : UInt32) (hbound : self.numberOfTopics < MAX_SUBSCRIBERS) :
    (self.add topicId).result.numberOfTopics < MAX_SUBSCRIBERS := by
  unfold add
  split
  · dsimp only
    split
    · exact hbound
    · dsimp only
      omega
  · exact hbound

end TopicListReport

namespace PutReport

/-- The node index is an index and a shift amount, and no search leaves the topic list. -/
def Safe (self : PutReport) : Prop :=
  (∀ index ∈ self.indexed, index < MAX_NUM_OF_NODES) ∧
    (∀ amount ∈ self.shiftedBy, amount < 32) ∧ ∀ index ∈ self.touched, index < MAX_SUBSCRIBERS

end PutReport

namespace DistributedTopicRegister

variable {self : DistributedTopicRegister}

/-- The node index is used unchecked, and every local topic is searched for. -/
theorem put_safe_iff_of_other {NOW : Int64} {hisTopics : TopicListPerNode}
    (hother : hisTopics.nodeNr ≠ self.nodeNumber) :
    (self.put NOW hisTopics).Safe ↔
      hisTopics.nodeIndex.toNat < MAX_NUM_OF_NODES ∧
        ∀ topic ∈ self.topicList,
          hisTopics.topicListReport.numberOfTopics ≤ MAX_SUBSCRIBERS ∨
            ∃ k < MAX_SUBSCRIBERS, hisTopics.topicListReport.topicList k = topic.topicId := by
  have hwidth : MAX_NUM_OF_NODES = 32 := rfl
  unfold put PutReport.Safe
  rw [if_neg hother, List.forall_mem_singleton, List.forall_mem_singleton]
  simp only [← TopicListReport.find_touched_lt_iff, List.mem_flatMap]
  constructor
  · rintro ⟨hindex, -, hsearches⟩
    exact ⟨hindex, fun topic htopic index htouched => hsearches index ⟨topic, htopic, htouched⟩⟩
  · rintro ⟨hindex, hsearches⟩
    refine ⟨hindex, hindex, ?_⟩
    rintro index ⟨topic, htopic, htouched⟩
    exact hsearches topic htopic index htouched

/-- A report is processed without a stray access if and only if it is the node's own, or its node
index is below 32 and no local topic is searched for behind the end of its list. -/
theorem put_safe_iff (self : DistributedTopicRegister) (NOW : Int64)
    (hisTopics : TopicListPerNode) :
    (self.put NOW hisTopics).Safe ↔
      hisTopics.nodeNr = self.nodeNumber ∨
        hisTopics.nodeIndex.toNat < MAX_NUM_OF_NODES ∧
          ∀ topic ∈ self.topicList,
            hisTopics.topicListReport.numberOfTopics ≤ MAX_SUBSCRIBERS ∨
              ∃ k < MAX_SUBSCRIBERS, hisTopics.topicListReport.topicList k = topic.topicId := by
  by_cases hown : hisTopics.nodeNr = self.nodeNumber
  · rw [put, if_pos hown]
    exact ⟨fun _ => .inl hown, fun _ => ⟨nofun, nofun, nofun⟩⟩
  · rw [put_safe_iff_of_other hown]
    exact (or_iff_right hown).symm

/-- Node 5 reports with index 200 and 1000 topics, none of them local. -/
theorem put_unsafe :
    ¬ ((start 1 [(100, true)]).put 0 ⟨5, 200, ⟨1000, fun _ => 0⟩⟩).Safe := by
  rw [put_safe_iff_of_other (by decide)]
  rintro ⟨hindex, -⟩
  exact absurd hindex (by decide)

/-- The reports that the nodes make of their own topics are safe everywhere. -/
theorem put_topicListFromMyNode_safe (other : DistributedTopicRegister) (NOW : Int64) :
    (self.put NOW other.topicListFromMyNode).Safe := by
  have hnumber : other.topicListFromMyNode.topicListReport.numberOfTopics < MAX_SUBSCRIBERS := by
    unfold topicListFromMyNode
    dsimp only
    refine List.foldlRecOn
      (motive := fun report : TopicListReport => report.numberOfTopics < MAX_SUBSCRIBERS) _ _ ?_ ?_
    · decide
    · intro report hbound topic _
      split
      · exact TopicListReport.numberOfTopics_add_le topic.topicId hbound
      · exact hbound
  have hindex : other.topicListFromMyNode.nodeIndex.toNat < MAX_NUM_OF_NODES := by
    have hlt := Nat.mod_lt other.nodeNumber.toNat (show 0 < MAX_NUM_OF_NODES by decide)
    have hwidth : MAX_NUM_OF_NODES = 32 := rfl
    show (UInt8.ofNat (other.nodeNumber.toNat % MAX_NUM_OF_NODES)).toNat < _
    rw [UInt8.toNat_ofNat']
    omega
  by_cases hown : other.topicListFromMyNode.nodeNr = self.nodeNumber
  · rw [put, if_pos hown]
    exact ⟨nofun, nofun, nofun⟩
  · rw [put_safe_iff_of_other hown]
    exact ⟨hindex, fun _ _ => .inl (Nat.le_of_lt hnumber)⟩

/-! ### Bits -/

/-- A report that is received, or the end of a round of the time loop. -/
inductive Event where
  | report (hisTopics : TopicListPerNode) (NOW : Int64)
  | timeLoop (NOW : Int64)

def step (self : DistributedTopicRegister) : Event → Option DistributedTopicRegister
  | .report hisTopics NOW => some (self.put NOW hisTopics).register
  | .timeLoop NOW => some (self.removeDeadNodes NOW)

/-- Reports come from other nodes, with indices that fit into the bitmaps. -/
def Regular (self : DistributedTopicRegister) : Event → Prop
  | .report hisTopics _ =>
    hisTopics.nodeNr ≠ self.nodeNumber ∧ hisTopics.nodeIndex.toNat < MAX_NUM_OF_NODES
  | .timeLoop _ => True

/-- Behind a report the bits of its node say what the report says, and no others have changed. -/
def Reflects (self : DistributedTopicRegister) : Event → Prop
  | .report hisTopics NOW =>
    List.Forall₂ (fun before after : RegisteredTopic =>
      after.topicId = before.topicId ∧
        (ALL_TOPICS_BELOW_THIS_ARE_BROADCAST ≤ before.topicId →
          (after.hasReceiver hisTopics.nodeIndex.toNat ↔
            hisTopics.topicListReport.Contains before.topicId)) ∧
        ∀ other < MAX_NUM_OF_NODES, other ≠ hisTopics.nodeIndex.toNat →
          after.hasReceiver other = before.hasReceiver other)
      self.topicList (self.put NOW hisTopics).register.topicList
  | .timeLoop _ => True

/-- The report withdraws no topic that the node has been entered for. -/
def Keeps (self : DistributedTopicRegister) : Event → Prop
  | .report hisTopics _ =>
    ∀ topic ∈ self.topicList, ALL_TOPICS_BELOW_THIS_ARE_BROADCAST ≤ topic.topicId →
      topic.hasReceiver hisTopics.nodeIndex.toNat →
      hisTopics.topicListReport.Contains topic.topicId
  | .timeLoop _ => True

theorem getLsbD_or_shift {bitMap index : UInt32} {other : Nat} (hindex : index.toNat < 32)
    (hother : other < 32) :
    (bitMap ||| 0x01 <<< index).toBitVec.getLsbD other =
      (bitMap.toBitVec.getLsbD other || decide (other = index.toNat)) := by
  have hshift : (index.toBitVec % 32).toNat = index.toNat := Nat.mod_eq_of_lt hindex
  have hone : (0x01 : UInt32).toBitVec.getLsbD (other - index.toNat) =
      decide (other - index.toNat = 0) := by
    simp
  rw [UInt32.toBitVec_or, UInt32.toBitVec_shiftLeft, BitVec.getLsbD_or, BitVec.shiftLeft_eq',
    hshift, BitVec.getLsbD_shiftLeft, hone]
  congr 1
  rw [Bool.eq_iff_iff]
  simp only [hother, decide_true, Bool.true_and, Bool.and_eq_true, Bool.not_eq_true',
    decide_eq_true_eq, decide_eq_false_iff_not]
  omega

/-- Bits are only ever set by a report. -/
theorem hasReceiver_put {hisTopics : TopicListPerNode} (topic : RegisteredTopic) {other : Nat}
    (hindex : hisTopics.nodeIndex.toNat < MAX_NUM_OF_NODES) (hother : other < MAX_NUM_OF_NODES) :
    (if (hisTopics.topicListReport.find topic.topicId).result then
        { topic with receiverNodesBitMap :=
          topic.receiverNodesBitMap ||| 0x01 <<< hisTopics.nodeIndex.toUInt32 }
      else topic).hasReceiver other ↔
      topic.hasReceiver other ∨
        other = hisTopics.nodeIndex.toNat ∧
          hisTopics.topicListReport.Contains topic.topicId := by
  have hshift : hisTopics.nodeIndex.toUInt32.toNat = hisTopics.nodeIndex.toNat :=
    UInt8.toNat_toUInt32 _
  rw [← TopicListReport.find_result_iff]
  split
  · next hfound =>
    have hbit := @getLsbD_or_shift topic.receiverNodesBitMap hisTopics.nodeIndex.toUInt32 other
      (by rw [hshift]; exact hindex) hother
    rw [RegisteredTopic.hasReceiver, hbit, hshift, hfound]
    simp [RegisteredTopic.hasReceiver]
  · next hmissing => simp [hmissing]

theorem reflects_iff_keeps {event : Event} (hregular : self.Regular event) :
    self.Reflects event ↔ self.Keeps event := by
  cases event with
  | timeLoop NOW => exact Iff.rfl
  | report hisTopics NOW =>
    obtain ⟨hother, hindex⟩ := hregular
    rw [Reflects, put, if_neg hother]
    dsimp only
    rw [List.forall₂_map_right_iff, List.forall₂_same, Keeps]
    apply forall₂_congr
    intro topic _
    have hown := hasReceiver_put topic hindex hindex
    constructor
    · rintro ⟨-, hbit, -⟩ hlocal hbefore
      exact (hbit hlocal).mp (hown.mpr (.inl hbefore))
    · intro hkeeps
      refine ⟨by split <;> rfl, fun hlocal => ?_, fun other hlt hne => ?_⟩
      · rw [hown]
        constructor
        · exact fun h => h.elim (hkeeps hlocal) fun hreported => hreported.2
        · exact fun hcontains => .inr ⟨rfl, hcontains⟩
      · rw [Bool.eq_iff_iff, hasReceiver_put topic hindex hlt]
        exact ⟨fun h => h.resolve_right fun hown => hne hown.1, .inl⟩

/-- In a run of reports from other nodes, every bitmap says after each report what the report says
if and only if no report withdraws a topic that its node has been entered for. -/
theorem reflects_iff (self : DistributedTopicRegister) (events : List Event)
    (hregular : Along step Regular self events) :
    Along step Reflects self events ↔ Along step Keeps self events :=
  along_congr (fun _ _ => reflects_iff_keeps) hregular

theorem reflects_iff_one :
    let register := start 1 [(100, true)]
    Along step Reflects register [.report ⟨2, 2, ⟨1, fun _ => 100⟩⟩ 5] ↔
      Along step Keeps register [.report ⟨2, 2, ⟨1, fun _ => 100⟩⟩ 5] :=
  reflects_iff _ _ ⟨⟨by decide, by decide⟩, trivial⟩

/-- Node 2 reports topic 100, and then that it has no topics left. -/
theorem withdrawn_topic_stays :
    let register := start 1 [(100, true)]
    let reports : List Event :=
      [.report ⟨2, 2, ⟨1, fun _ => 100⟩⟩ 5, .report ⟨2, 2, ⟨0, fun _ => 100⟩⟩ 6]
    Along step Regular register reports ∧ ¬ Along step Reflects register reports := by
  intro register reports
  have hregular : Along step Regular register reports :=
    ⟨⟨by decide, by decide⟩, ⟨by decide, by decide⟩, trivial⟩
  refine ⟨hregular, ?_⟩
  rintro ⟨-, hsecond, -⟩
  have hkeeps := (reflects_iff_keeps hregular.2.1).mp hsecond
  obtain ⟨i, hnone, -⟩ := hkeeps ⟨100, true, 4⟩ (by decide) (by decide) (by decide)
  exact Nat.not_lt_zero i hnone

end DistributedTopicRegister

end Rodos.Gateway
