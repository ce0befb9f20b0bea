import Rodos.Gateway.NetworkMessage

/-! `TopicListReport`: a count and a list of topic ids of fixed size. Every access to a `topicList`
is listed with its index. -/
namespace Rodos.Gateway
open Library

def MAX_SUBSCRIBERS : Nat := 60

/-- `topicList[MAX_SUBSCRIBERS]` and the memory behind it. -/
structure TopicListReport where
  numberOfTopics : Nat
  topicList : Memory UInt32

/-- A result and the indices at which a `topicList` was read or written for it. -/
structure Touching (α : Type) where
  result : α
  touched : List Nat

namespace TopicListReport

/-- Least significant byte first. -/
def loadWord (data : Memory UInt8) (offset : Nat) : UInt32 :=
  UInt32.ofNat ((data offset).toNat + 256 * (data (offset + 1)).toNat +
    256 ^ 2 * (data (offset + 2)).toNat + 256 ^ 3 * (data (offset + 3)).toNat)

/-- `(TopicListReport*)userDataC`. -/
def ofUserData (data : Memory UInt8) : TopicListReport where
  numberOfTopics := (loadWord data 0).toNat
  topicList := fun i => loadWord data (4 + 4 * i)

def init (self : TopicListReport) : TopicListReport := { self with numberOfTopics := 0 }

/-- `for (uint32_t i = 0; i < numberOfTopics; i++)` from some `i` on. -/
def findFrom (self : TopicListReport) (topicId : UInt32) : (remaining i : Nat) → Touching Bool
  | 0, _ => ⟨false, []⟩
  | remaining + 1, i =>
    if topicId = self.topicList i then ⟨true, [i]⟩
    else
      let later := self.findFrom topicId remaining (i + 1)
      ⟨later.result, i :: later.touched⟩

def find (self : TopicListReport) (topicId : UInt32) : Touching Bool :=
  self.findFrom topicId self.numberOfTopics 0

def add (self : TopicListReport) (topicId : UInt32) : Touching TopicListReport :=
  if self.numberOfTopics < MAX_SUBSCRIBERS - 1 then
    let found := self.find topicId
    if found.result then ⟨self, found.touched⟩
    else
      ⟨{ topicList := self.topicList.store self.numberOfTopics topicId
         numberOfTopics := self.numberOfTopics + 1 },
        found.touched ++ [self.numberOfTopics]⟩
  else ⟨self, []⟩

/-- `externalsubscribers = *topicList`: the whole object is copied. -/
def setTopicsToForward (externalsubscribers topicList : TopicListReport) :
    Touching TopicListReport :=
  ⟨{ numberOfTopics := topicList.numberOfTopics
     topicList :=
       Memory.copy externalsubscribers.topicList topicList.topicList 0 0 MAX_SUBSCRIBERS },
    List.range MAX_SUBSCRIBERS⟩

/-- `for(uint32_t i = 0; i < topicsWanted->numberOfTopics; i++)` from some `i` on. -/
def addFrom (topicsWanted : TopicListReport) :
    (remaining i : Nat) → (externalsubscribers : TopicListReport) → Touching TopicListReport
  | 0, _, externalsubscribers => ⟨externalsubscribers, []⟩
  | remaining + 1, i, externalsubscribers =>
    let added := externalsubscribers.add (topicsWanted.topicList i)
    let later := topicsWanted.addFrom remaining (i + 1) added.result
    ⟨later.result, i :: added.touched ++ later.touched⟩

def addTopicsToForward (externalsubscribers topicsWanted : TopicListReport) :
    Touching TopicListReport :=
  topicsWanted.addFrom topicsWanted.numberOfTopics 0 externalsubscribers

variable {self : TopicListReport}

theorem findFrom_touched (topicId : UInt32) (remaining i : Nat) :
    ∀ index ∈ (self.findFrom topicId remaining i).touched, index < i + remaining := by
  induction remaining generalizing i with
  | zero => exact fun index hindex => by cases hindex
  | succ remaining ih =>
    unfold findFrom
    split
    · intro index hindex
      rw [List.mem_singleton.mp hindex]
      omega
    · intro index hindex
      cases List.mem_cons.mp hindex with
      | inl hfirst => omega
      | inr hlater =>
        have := ih (i + 1) index hlater
        omega

theorem find_touched (topicId : UInt32) :
    ∀ index ∈ (self.find topicId).touched, index < self.numberOfTopics := by
  intro index hindex
  have := findFrom_touched topicId self.numberOfTopics 0 index hindex
  omega

/-- The assertion of `add` leaves the last entry of the list unused. -/
theorem add_bounds (topicId : UInt32) (hbound : self.numberOfTopics ≤ MAX_SUBSCRIBERS) :
    (self.add topicId).result.numberOfTopics ≤ MAX_SUBSCRIBERS ∧
      ∀ index ∈ (self.add topicId).touched, index < MAX_SUBSCRIBERS := by
  unfold add
  have hsize : MAX_SUBSCRIBERS = 60 := rfl
  split
  · next hroom =>
    have hfound : ∀ index ∈ (self.find topicId).touched, index < MAX_SUBSCRIBERS :=
      fun index hindex => (find_touched topicId index hindex).trans (by omega)
    dsimp only
    split
    · exact ⟨hbound, hfound⟩
    · refine ⟨by dsimp only; omega, fun index hindex => ?_⟩
      cases List.mem_append.mp hindex with
      | inl hread => exact hfound index hread
      | inr hwritten =>
        rw [List.mem_singleton.mp hwritten]
        omega
  · exact ⟨hbound, fun index hindex => by cases hindex⟩

theorem addFrom_bounds (topicsWanted : TopicListReport) (remaining i : Nat)
    (hbound : self.numberOfTopics ≤ MAX_SUBSCRIBERS) :
    (topicsWanted.addFrom remaining i self).result.numberOfTopics ≤ MAX_SUBSCRIBERS ∧
      ((∀ index ∈ (topicsWanted.addFrom remaining i self).touched, index < MAX_SUBSCRIBERS) ↔
        remaining = 0 ∨ i + remaining ≤ MAX_SUBSCRIBERS) := by
  induction remaining generalizing i self with
  | zero => exact ⟨hbound, by simp [addFrom]⟩
  | succ remaining ih =>
    obtain ⟨hadded, htouched⟩ := add_bounds (topicsWanted.topicList i) hbound
    obtain ⟨hlater, hiff⟩ := ih (i + 1) hadded
    unfold addFrom
    refine ⟨hlater, ?_⟩
    simp only [List.cons_append, List.mem_cons, List.mem_append, forall_eq, or_imp,
      forall_and, hiff]
    constructor
    · rintro ⟨hfirst, _, hrest⟩
      omega
    · intro hrest
      exact ⟨by omega, htouched, by omega⟩

end TopicListReport

end Rodos.Gateway
