import Rodos.Library.Keyed
import Rodos.Library.Runs
import Rodos.Gateway.NetworkMessage
import Mathlib.Data.Finset.Card
import Mathlib.Algebra.Order.Group.Unbundled.Int

/-! `Gateway::messageSeen`: the table of sender nodes that all gateways of a node share, with the
time of the latest message of each. -/
namespace Rodos.Gateway
open Library

def MAX_NUMBER_OF_NODES : Nat := 10
def SECONDS : Int64 := 1000 * 1000 * 1000

structure SeenNode where
  nodeID : Int32
  lastMsgTime : Int64

/-- The static members `seenNodes` and `numberOfNodes`. -/
structure SeenNodes where
  seenNodes : Memory SeenNode
  numberOfNodes : Nat

/-- A call on `seenNodesProtector`. -/
inductive ProtectorCall where
  | enter
  | leave
  deriving DecidableEq

/-- What one call of `messageSeen` returns, leaves behind and does with the protector. -/
structure MessageSeen where
  returned : Bool
  table : SeenNodes
  calls : List ProtectorCall

namespace SeenNodes

/-- The loop over the table up to the first entry of the node. -/
def find (self : SeenNodes) (nodeID : Int32) : Option Nat :=
  (List.range self.numberOfNodes).find? fun i => (self.seenNodes i).nodeID = nodeID

def record (self : SeenNodes) (node : Nat) (msgSentTime : Int64) : SeenNodes :=
  { self with
    seenNodes := self.seenNodes.store node
      { self.seenNodes node with lastMsgTime := msgSentTime } }

def insert (self : SeenNodes) (msg : NetworkMessage) : SeenNodes where
  seenNodes := self.seenNodes.store self.numberOfNodes
    { nodeID := msg.getSenderNode
      lastMsgTime := msg.getSentTime - 1 }
  numberOfNodes := self.numberOfNodes + 1

/-- From the end of the search on, `node` being the index of the entry. -/
def judge (self : SeenNodes) (node : Nat) (msgSentTime : Int64) : MessageSeen :=
  let lastMsgTime := (self.seenNodes node).lastMsgTime
  if lastMsgTime ≥ msgSentTime then
    if lastMsgTime - msgSentTime > 5 * SECONDS then
      ⟨false, self.record node msgSentTime, [.enter, .leave]⟩
    else ⟨true, self, [.enter, .leave]⟩
  else ⟨false, self.record node msgSentTime, [.enter, .leave]⟩

def messageSeen (self : SeenNodes) (msg : NetworkMessage) : MessageSeen :=
  match self.find msg.getSenderNode with
  | some node => self.judge node msg.getSentTime
  | none =>
    if self.numberOfNodes < MAX_NUMBER_OF_NODES then
      (self.insert msg).judge self.numberOfNodes msg.getSentTime
    else ⟨false, self, [.enter]⟩

/-- The table after these messages. -/
def after (self : SeenNodes) (messages : List NetworkMessage) : SeenNodes :=
  messages.foldl (fun table msg => (table.messageSeen msg).table) self

/-- The messages that are reported as not seen. -/
def fresh (self : SeenNodes) : List NetworkMessage → List NetworkMessage
  | [] => []
  | msg :: messages =>
    if (self.messageSeen msg).returned then fresh (self.messageSeen msg).table messages
    else msg :: fresh (self.messageSeen msg).table messages

/-- The sender has an entry, or there is room for one more. -/
def Admits (self : SeenNodes) (msg : NetworkMessage) : Prop :=
  (self.find msg.getSenderNode).isSome ∨ self.numberOfNodes < MAX_NUMBER_OF_NODES

instance (self : SeenNodes) (msg : NetworkMessage) : Decidable (self.Admits msg) :=
  inferInstanceAs (Decidable (_ ∨ _))

/-- The nodes in the table, in the order of their entries. -/
def nodes (self : SeenNodes) : List Int32 :=
  (self.seenNodes.front self.numberOfNodes).map SeenNode.nodeID

/-- The time recorded for a node. -/
def latest (self : SeenNodes) (nodeID : Int32) : Option Int64 :=
  (self.find nodeID).map fun i => (self.seenNodes i).lastMsgTime

/-! ### One node -/

/-- The verdict on a message and the time recorded afterwards, given the time recorded before. -/
def judgeNode (lastMsgTime : Option Int64) (msgSentTime : Int64) : Bool × Int64 :=
  match lastMsgTime with
  | none => (false, msgSentTime)
  | some lastMsgTime =>
    if lastMsgTime ≥ msgSentTime then
      if lastMsgTime - msgSentTime > 5 * SECONDS then (false, msgSentTime) else (true, lastMsgTime)
    else (false, msgSentTime)

variable {self : SeenNodes} {msg : NetworkMessage} {nodeID : Int32} {node : Nat}

theorem find_some (hfind : self.find nodeID = some node) :
    node < self.numberOfNodes ∧ (self.seenNodes node).nodeID = nodeID := by
  have hmem := List.mem_of_find?_eq_some hfind
  have hequal := List.find?_some hfind
  exact ⟨List.mem_range.mp hmem, of_decide_eq_true hequal⟩

theorem mem_nodes : nodeID ∈ self.nodes ↔ (self.find nodeID).isSome := by
  simp [nodes, find, Memory.front, List.find?_isSome]

theorem length_nodes (self : SeenNodes) : self.nodes.length = self.numberOfNodes := by
  rw [nodes, List.length_map, Memory.length_front]

theorem find_record (node : Nat) (time : Int64) (nodeID : Int32) :
    (self.record node time).find nodeID = self.find nodeID := by
  unfold find
  congr 1
  funext i
  by_cases hsame : i = node
  · subst hsame
    simp [record]
  · simp [record, Memory.store_other _ _ hsame]

theorem nodes_record (node : Nat) (time : Int64) : (self.record node time).nodes = self.nodes := by
  unfold nodes Memory.front
  rw [List.map_map, List.map_map]
  apply List.map_congr_left
  intro i _
  by_cases hsame : i = node
  · subst hsame
    simp [record]
  · simp [record, Memory.store_other _ _ hsame]

theorem nodes_insert (self : SeenNodes) (msg : NetworkMessage) :
    (self.insert msg).nodes = self.nodes ++ [msg.getSenderNode] := by
  simp only [nodes, insert, Memory.front_store_end, List.map_append, List.map_cons, List.map_nil]

theorem find_insert (self : SeenNodes) (msg : NetworkMessage) (nodeID : Int32) :
    (self.insert msg).find nodeID =
      (self.find nodeID).or
        (if msg.getSenderNode = nodeID then some self.numberOfNodes else none) := by
  have hfront : (List.range self.numberOfNodes).find?
      (fun i => ((self.insert msg).seenNodes i).nodeID = nodeID) = self.find nodeID := by
    unfold find
    rw [← List.head?_filter, ← List.head?_filter]
    congr 1
    apply List.filter_congr
    intro i hi
    have hne : i ≠ self.numberOfNodes := Nat.ne_of_lt (List.mem_range.mp hi)
    simp [insert, Memory.store_other _ _ hne]
  rw [find]
  simp only [insert, List.range_succ, List.find?_append]
  rw [← hfront]
  congr 1
  by_cases hsame : msg.getSenderNode = nodeID <;> simp [hsame]

/-- Recording a time for the node that was found. -/
theorem latest_record (hfind : self.find nodeID = some node) (time : Int64) :
    (self.record node time).latest = Function.update self.latest nodeID (some time) := by
  funext other
  by_cases hsame : other = nodeID
  · subst hsame
    rw [latest, find_record, hfind, Function.update_self]
    simp [record]
  · rw [latest, find_record, Function.update_of_ne hsame, latest]
    cases hother : self.find other with
    | none => rfl
    | some place =>
      have hdistinct : place ≠ node := by
        rintro rfl
        exact hsame ((find_some hother).2.symm.trans (find_some hfind).2)
      simp [record, Memory.store_other _ _ hdistinct]

theorem latest_insert (hfind : self.find msg.getSenderNode = none) :
    (self.insert msg).latest =
      Function.update self.latest msg.getSenderNode (some (msg.getSentTime - 1)) := by
  funext other
  by_cases hsame : other = msg.getSenderNode
  · subst hsame
    rw [latest, find_insert, hfind, Function.update_self]
    simp [insert]
  · rw [latest, find_insert, if_neg (Ne.symm hsame), Option.or_none,
      Function.update_of_ne hsame, latest]
    cases hother : self.find other with
    | none => rfl
    | some place =>
      have hdistinct : place ≠ self.numberOfNodes := Nat.ne_of_lt (find_some hother).1
      simp [insert, Memory.store_other _ _ hdistinct]

/-- With the entry found, the verdict and the new entry follow from the time recorded. -/
theorem judge_eq (hfind : self.find nodeID = some node) (time : Int64) :
    (self.judge node time).returned = (judgeNode (self.latest nodeID) time).1 ∧
      (self.judge node time).table.latest =
        Function.update self.latest nodeID (some (judgeNode (self.latest nodeID) time).2) ∧
      (self.judge node time).table.nodes = self.nodes := by
  have hlatest : self.latest nodeID = some (self.seenNodes node).lastMsgTime := by
    rw [latest, hfind, Option.map_some]
  rw [hlatest, judge, judgeNode]
  split
  · split
    · exact ⟨rfl, latest_record hfind time, nodes_record node time⟩
    · refine ⟨rfl, ?_, rfl⟩
      rw [← hlatest, Function.update_eq_self]
  · exact ⟨rfl, latest_record hfind time, nodes_record node time⟩

/-- Sent times that are compared and subtracted without overflow. -/
def InTime (time : Int64) : Prop := |time.toInt| < 2 ^ 62

instance (time : Int64) : Decidable (InTime time) := inferInstanceAs (Decidable (_ < _))

theorem toInt_sub_of_inTime {left right : Int64} (hleft : InTime left) (hright : InTime right) :
    (left - right).toInt = left.toInt - right.toInt := by
  unfold InTime at hleft hright
  rw [abs_lt] at hleft hright
  rw [Int64.toInt_sub]
  exact Int.bmod_eq_of_le (by omega) (by omega)

theorem sub_one_lt_of_inTime {time : Int64} (htime : InTime time) : ¬ time - 1 ≥ time := by
  have hone : InTime 1 := by decide
  have honeValue : (1 : Int64).toInt = 1 := by decide
  rw [ge_iff_le, Int64.le_iff_toInt_le, toInt_sub_of_inTime htime hone, honeValue]
  omega

/-- A message of a node that has an entry or still gets one. -/
theorem messageSeen_eq (hadmits : self.Admits msg) (htime : InTime msg.getSentTime) :
    let judged := judgeNode (self.latest msg.getSenderNode) msg.getSentTime
    (self.messageSeen msg).returned = judged.1 ∧
      (self.messageSeen msg).table.latest =
        Function.update self.latest msg.getSenderNode (some judged.2) ∧
      (self.messageSeen msg).table.nodes =
        if msg.getSenderNode ∈ self.nodes then self.nodes
        else self.nodes ++ [msg.getSenderNode] := by
  intro judged
  cases hfind : self.find msg.getSenderNode with
  | some node =>
    obtain ⟨hreturned, hlatest, hnodes⟩ := judge_eq hfind msg.getSentTime
    have hknown : msg.getSenderNode ∈ self.nodes := mem_nodes.mpr (by rw [hfind]; rfl)
    rw [messageSeen, hfind, if_pos hknown]
    exact ⟨hreturned, hlatest, hnodes⟩
  | none =>
    have hroom : self.numberOfNodes < MAX_NUMBER_OF_NODES := by
      cases hadmits with
      | inl hknown => rw [hfind] at hknown; cases hknown
      | inr hroom => exact hroom
    have hnew : msg.getSenderNode ∉ self.nodes := by
      rw [mem_nodes, hfind]
      exact Bool.false_ne_true
    have hentry : (self.insert msg).find msg.getSenderNode = some self.numberOfNodes := by
      rw [find_insert, hfind, if_pos rfl]
      rfl
    have hunseen : self.latest msg.getSenderNode = none := by rw [latest, hfind]; rfl
    have hjudged : judged = (false, msg.getSentTime) := by
      show judgeNode (self.latest msg.getSenderNode) msg.getSentTime = _
      rw [hunseen]
      rfl
    have hfirst : judgeNode (some (msg.getSentTime - 1)) msg.getSentTime =
        (false, msg.getSentTime) := by
      rw [judgeNode, if_neg (sub_one_lt_of_inTime htime)]
    obtain ⟨hreturned, hlatest, hnodes⟩ := judge_eq hentry msg.getSentTime
    rw [latest_insert hfind, Function.update_self, hfirst] at hreturned
    rw [latest_insert hfind, Function.update_self, hfirst, Function.update_idem] at hlatest
    rw [messageSeen, hfind, if_neg hnew, ← nodes_insert, hjudged]
    simp only [if_pos hroom]
    exact ⟨hreturned, hlatest, hnodes⟩

/-! ### Whole runs -/

/-- Every sender has one entry at most, and only these senders have one. -/
structure Sound (senders : Finset Int32) (table : SeenNodes) : Prop where
  unique : table.nodes.Nodup
  known : ∀ node ∈ table.nodes, node ∈ senders
  recorded : ∀ node, ∀ time ∈ table.latest node, InTime time

variable {senders : Finset Int32}

theorem Sound.numberOfNodes_le (h : Sound senders self) : self.numberOfNodes ≤ senders.card := by
  rw [← length_nodes, ← List.toFinset_card_of_nodup h.unique]
  apply Finset.card_le_card
  intro node hnode
  exact h.known node (List.mem_toFinset.mp hnode)

theorem Sound.admits (h : Sound senders self) (hcard : senders.card ≤ MAX_NUMBER_OF_NODES)
    (hsender : msg.getSenderNode ∈ senders) : self.Admits msg := by
  by_cases hknown : msg.getSenderNode ∈ self.nodes
  · exact Or.inl (mem_nodes.mp hknown)
  · have hmore : self.nodes.toFinset.card < senders.card := by
      apply Finset.card_lt_card
      refine Finset.ssubset_iff_of_subset ?_ |>.mpr ⟨msg.getSenderNode, hsender, ?_⟩
      · intro node hnode
        exact h.known node (List.mem_toFinset.mp hnode)
      · rwa [List.mem_toFinset]
    rw [List.toFinset_card_of_nodup h.unique, length_nodes] at hmore
    exact Or.inr (Nat.lt_of_lt_of_le hmore hcard)

theorem judgeNode_inTime {lastMsgTime : Option Int64} {time : Int64}
    (hlast : ∀ last ∈ lastMsgTime, InTime last) (htime : InTime time) :
    InTime (judgeNode lastMsgTime time).2 := by
  cases lastMsgTime with
  | none => exact htime
  | some last =>
    rw [judgeNode]
    split
    · split
      · exact htime
      · exact hlast last rfl
    · exact htime

theorem Sound.messageSeen (h : Sound senders self) (hcard : senders.card ≤ MAX_NUMBER_OF_NODES)
    (hsender : msg.getSenderNode ∈ senders) (htime : InTime msg.getSentTime) :
    Sound senders (self.messageSeen msg).table := by
  obtain ⟨_, hlatest, hnodes⟩ := messageSeen_eq (h.admits hcard hsender) htime
  refine ⟨?_, ?_, ?_⟩
  · rw [hnodes]
    split
    · exact h.unique
    · next hnew => exact List.nodup_append_comm.mp (List.nodup_cons.mpr ⟨hnew, h.unique⟩)
  · rw [hnodes]
    split
    · exact h.known
    · intro node hnode
      cases List.mem_append.mp hnode with
      | inl hold => exact h.known node hold
      | inr hnew => rw [List.mem_singleton.mp hnew]; exact hsender
  · rw [hlatest]
    intro node time hrecorded
    by_cases hsame : node = msg.getSenderNode
    · subst hsame
      rw [Function.update_self, Option.mem_some_iff] at hrecorded
      rw [← hrecorded]
      exact judgeNode_inTime (h.recorded _) htime
    · rw [Function.update_of_ne hsame] at hrecorded
      exact h.recorded node time hrecorded

/-- The table at the start of the program. -/
def start (memory : Memory SeenNode) : SeenNodes := ⟨memory, 0⟩

theorem start_sound (memory : Memory SeenNode) (senders : Finset Int32) :
    Sound senders (start memory) := by
  refine ⟨List.nodup_nil, fun node hnode => ?_, fun node time hrecorded => ?_⟩
  · cases hnode
  · cases hrecorded

/-- Messages of these senders that were sent at times of moderate size. -/
def From (senders : Finset Int32) (messages : List NetworkMessage) : Prop :=
  ∀ msg ∈ messages, msg.getSenderNode ∈ senders ∧ InTime msg.getSentTime

theorem Sound.after (h : Sound senders self) (hcard : senders.card ≤ MAX_NUMBER_OF_NODES)
    {messages : List NetworkMessage} (hfrom : From senders messages) :
    Sound senders (self.after messages) ∧
      (self.after messages).latest = messages.foldl (Keyed.act NetworkMessage.getSenderNode
        fun last msg => some (judgeNode last msg.getSentTime).2) self.latest := by
  induction messages generalizing self with
  | nil => exact ⟨h, rfl⟩
  | cons msg messages ih =>
    obtain ⟨hsender, htime⟩ := hfrom msg List.mem_cons_self
    have hlatest := (messageSeen_eq (h.admits hcard hsender) htime).2.1
    obtain ⟨hsound, hrest⟩ := ih (h.messageSeen hcard hsender htime)
      fun later hlater => hfrom later (List.mem_cons_of_mem msg hlater)
    refine ⟨hsound, hrest.trans ?_⟩
    rw [List.foldl_cons, hlatest]
    rfl

/-! ### A message before an unseen one -/

theorem messageSeen_returned_congr {left right : NetworkMessage}
    (hsender : left.getSenderNode = right.getSenderNode)
    (htime : left.getSentTime = right.getSentTime) :
    (self.messageSeen left).returned = (self.messageSeen right).returned := by
  unfold messageSeen insert
  rw [hsender, htime]

theorem find_new (hfind : self.find msg.getSenderNode = none) (earlier : NetworkMessage)
    (hsender : earlier.getSenderNode = msg.getSenderNode) :
    (self.insert earlier).find msg.getSenderNode = some self.numberOfNodes := by
  rw [find_insert, hfind, if_pos hsender]
  rfl

theorem toInt_sub_one (time : Int64) :
    (time - 1).toInt =
      if time.toInt = Int64.minValue.toInt then 2 ^ 63 - 1 else time.toInt - 1 := by
  have hlow := time.le_toInt
  have hhigh := time.toInt_lt
  have hone : (1 : Int64).toInt = 1 := by decide
  rw [Int64.toInt_sub, hone]
  split
  · next hminimum =>
    rw [hminimum]
    decide
  · next hother =>
    rw [Int64.toInt_minValue] at hother
    exact Int.bmod_eq_of_le (by omega) (by omega)

theorem sub_one_ge_iff (time : Int64) : time - 1 ≥ time ↔ time = Int64.minValue := by
  have hhigh := time.toInt_lt
  rw [ge_iff_le, Int64.le_iff_toInt_le, toInt_sub_one, ← Int64.toInt_inj]
  split
  · next hminimum =>
    constructor
    · exact fun _ => hminimum
    · omega
  · next hother =>
    constructor
    · omega
    · exact fun hminimum => absurd hminimum hother

theorem sub_one_sub (time : Int64) : time - 1 - time = -1 := by
  grind

/-- A first message of the time is entered, unless the time has no earlier one. -/
theorem judge_insert {earlier : NetworkMessage}
    (htime : ¬ earlier.getSentTime - 1 ≥ earlier.getSentTime) :
    (self.insert earlier).judge self.numberOfNodes earlier.getSentTime =
      ⟨false, (self.insert earlier).record self.numberOfNodes earlier.getSentTime,
        [.enter, .leave]⟩ := by
  have hlast : ((self.insert earlier).seenNodes self.numberOfNodes).lastMsgTime =
      earlier.getSentTime - 1 := by
    simp [insert]
  rw [judge, hlast, if_neg htime]

/-- An unseen first message of a node has a time that is not the least one. -/
theorem not_least_of_unseen (hunseen : (self.messageSeen msg).returned = false)
    (hfind : self.find msg.getSenderNode = none)
    (hroom : self.numberOfNodes < MAX_NUMBER_OF_NODES) :
    ¬ msg.getSentTime - 1 ≥ msg.getSentTime := by
  intro hwraps
  rw [messageSeen, hfind] at hunseen
  simp only [if_pos hroom] at hunseen
  have hlast : ((self.insert msg).seenNodes self.numberOfNodes).lastMsgTime =
      msg.getSentTime - 1 := by
    simp [insert]
  have hdifference : ¬ msg.getSentTime - 1 - msg.getSentTime > 5 * SECONDS := by
    rw [sub_one_sub]
    decide
  rw [judge, hlast, if_pos hwraps, if_neg hdifference] at hunseen
  cases hunseen

/-- The entry of a first message is the one that the next message of the node is compared with. -/
theorem messageSeen_behind_first {earlier : NetworkMessage}
    (hfind : self.find msg.getSenderNode = none)
    (hroom : self.numberOfNodes < MAX_NUMBER_OF_NODES)
    (hsender : earlier.getSenderNode = msg.getSenderNode)
    (hdistinct : ¬ earlier.getSentTime - 1 ≥ earlier.getSentTime)
    (hpasses : ¬ earlier.getSentTime ≥ msg.getSentTime ∨
      earlier.getSentTime - msg.getSentTime > 5 * SECONDS) :
    ((self.messageSeen earlier).table.messageSeen msg).returned = false := by
  have htable : (self.messageSeen earlier).table =
      (self.insert earlier).record self.numberOfNodes earlier.getSentTime := by
    rw [messageSeen, hsender, hfind]
    simp only [if_pos hroom, judge_insert hdistinct]
  have hlast : (((self.insert earlier).record self.numberOfNodes
      earlier.getSentTime).seenNodes self.numberOfNodes).lastMsgTime = earlier.getSentTime := by
    simp [record]
  rw [htable, messageSeen, find_record, find_new hfind earlier hsender]
  dsimp only
  rw [judge, hlast]
  split
  · next hnotAfter => rw [if_pos (hpasses.resolve_left fun h => h hnotAfter)]
  · rfl

theorem eq_second_least {time : Int64} (hfirst : ¬ time - 1 ≥ time)
    (hsecond : time - 1 - 1 ≥ time - 1) : time = Int64.minValue + 1 := by
  rw [sub_one_ge_iff] at hfirst hsecond
  have hvalue := congrArg Int64.toInt hsecond
  rw [toInt_sub_one, if_neg (fun hminimum => hfirst (Int64.toInt_inj.mp hminimum)),
    Int64.toInt_minValue] at hvalue
  apply Int64.toInt_inj.mp
  have hnext : (Int64.minValue + 1).toInt = -2 ^ 63 + 1 := by decide
  omega

/-- The sender of an unseen message can have sent another one before that is entered in the table
and leaves it unseen. -/
theorem exists_earlier_time (hunseen : (self.messageSeen msg).returned = false) :
    ∃ time, ∀ earlier : NetworkMessage, earlier.getSenderNode = msg.getSenderNode →
      earlier.getSentTime = time →
      ((self.messageSeen earlier).table.messageSeen msg).returned = false := by
  cases hfind : self.find msg.getSenderNode with
  | some node =>
    -- The time recorded for the sender is a time that it has been seen with.
    refine ⟨(self.seenNodes node).lastMsgTime, fun earlier hsender htime => ?_⟩
    have hsame : (self.messageSeen earlier).table = self := by
      have hrecent : ¬ earlier.getSentTime - earlier.getSentTime > 5 * SECONDS := by
        rw [Int64.sub_self]
        decide
      rw [messageSeen, hsender, hfind]
      simp only [judge, ← htime, ge_iff_le, Int64.le_refl, if_true, if_neg hrecent]
    rw [hsame]
    exact hunseen
  | none =>
    by_cases hroom : self.numberOfNodes < MAX_NUMBER_OF_NODES
    · have hfirst := not_least_of_unseen hunseen hfind hroom
      by_cases hsecond : msg.getSentTime - 1 - 1 ≥ msg.getSentTime - 1
      · -- Only one time is earlier, so the clock of the sender was far ahead before.
        refine ⟨Int64.minValue + 1 + 6 * SECONDS, fun earlier hsender htime => ?_⟩
        apply messageSeen_behind_first hfind hroom hsender
        · rw [htime]
          decide
        · rw [htime, eq_second_least hfirst hsecond]
          exact Or.inr (by decide)
      · refine ⟨msg.getSentTime - 1, fun earlier hsender htime => ?_⟩
        rw [← htime] at hfirst hsecond
        exact messageSeen_behind_first hfind hroom hsender hsecond (Or.inl hfirst)
    · refine ⟨msg.getSentTime, fun earlier hsender _ => ?_⟩
      have hsame : (self.messageSeen earlier).table = self := by
        rw [messageSeen, hsender, hfind]
        simp only [if_neg hroom]
      rw [hsame]
      exact hunseen

end SeenNodes

end Rodos.Gateway
