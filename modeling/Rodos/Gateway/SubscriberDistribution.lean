import Rodos.Library.LinkedList

/-! The lists of subscribers: `Subscriber::subscriberList`, into which the constructors put them,
and the list of each topic, to which `initSystem` moves them. -/
namespace Rodos.Gateway
open Library

/-- The variables that point to the first element of a list of subscribers. -/
inductive SubscriberList (Topic : Type) where
  | subscriberList
  | mySubscribers (topic : Topic)
deriving DecidableEq

/-- What the constructors of topics and subscribers leave in memory, and `initSystem` uses. -/
structure Subscribers (Topic Subscriber : Type) where
  next : Subscriber → Option Subscriber
  topicInterface : Subscriber → Topic
  isAGateway : Subscriber → Bool
  list : SubscriberList Topic → Option Subscriber

/-- The objects of a program are constructed one after the other. -/
inductive Construction (Topic Subscriber : Type) where
  | topicInterface (this : Topic)
  | subscriber (this : Subscriber) (topic : Topic) (isAGateway : Bool)

def Construction.subscriber? {Topic Subscriber : Type} :
    Construction Topic Subscriber → Option Subscriber
  | .topicInterface _ => none
  | .subscriber this _ _ => some this

/-- The topics and subscribers of a program in the order of their construction. A subscriber is
constructed once, and the topic it refers to is one of the program. -/
structure Program (Topic Subscriber : Type) where
  constructions : List (Construction Topic Subscriber)
  defaultGatewayTopic : Topic
  nodup : (constructions.filterMap Construction.subscriber?).Nodup
  default_constructed : .topicInterface defaultGatewayTopic ∈ constructions
  topic_constructed : ∀ this topic isAGateway,
    .subscriber this topic isAGateway ∈ constructions → .topicInterface topic ∈ constructions

/-- The topic whose list such a subscriber is to be in. -/
def Program.target {Topic Subscriber : Type} (self : Program Topic Subscriber) (topic : Topic)
    (isAGateway : Bool) : Topic :=
  if isAGateway then self.defaultGatewayTopic else topic

namespace Subscribers

variable {Topic Subscriber : Type}

section code

variable [DecidableEq Topic] [DecidableEq Subscriber]

/-- `ListElement::append`. -/
def append (self : Subscribers Topic Subscriber) (this : Subscriber)
    (list : SubscriberList Topic) : Subscribers Topic Subscriber :=
  { self with
    next := Function.update self.next this (self.list list)
    list := Function.update self.list list (some this) }

/-- The constructors. A topic begins with no subscribers, a subscriber is appended to the list of
all of them. -/
def construct (self : Subscribers Topic Subscriber) :
    Construction Topic Subscriber → Subscribers Topic Subscriber
  | .topicInterface this =>
    { self with list := Function.update self.list (.mySubscribers this) none }
  | .subscriber this topic isAGateway =>
    { self.append this .subscriberList with
      topicInterface := Function.update self.topicInterface this topic
      isAGateway := Function.update self.isAGateway this isAGateway }

/-- Before any constructor runs, `subscriberList` is zero. -/
def loaded (memory : Subscribers Topic Subscriber) : Subscribers Topic Subscriber :=
  { memory with list := Function.update memory.list .subscriberList none }

def constructed (memory : Subscribers Topic Subscriber)
    (constructions : List (Construction Topic Subscriber)) : Subscribers Topic Subscriber :=
  constructions.foldl construct memory.loaded

/-- The loop of `initSystem`; nothing if it needs more than `fuel` rounds. -/
def distribute (defaultGatewayTopic : Topic) : (fuel : Nat) → (iter : Option Subscriber) →
    Subscribers Topic Subscriber → Option (Subscribers Topic Subscriber)
  | _, none, self => some self
  | 0, some _, _ => none
  | fuel + 1, some iter, self =>
    let next := self.next iter
    -- `append` overwrites the link that leads on
    let self :=
      if self.isAGateway iter then self.append iter (.mySubscribers defaultGatewayTopic)
      else self.append iter (.mySubscribers (self.topicInterface iter))
    distribute defaultGatewayTopic fuel next self

def initSystem (defaultGatewayTopic : Topic) (fuel : Nat)
    (self : Subscribers Topic Subscriber) : Option (Subscribers Topic Subscriber) :=
  distribute defaultGatewayTopic fuel (self.list .subscriberList) self

end code

/-- The topic whose list a subscriber is to be in. -/
def destination (self : Subscribers Topic Subscriber) (defaultGatewayTopic : Topic)
    (this : Subscriber) : Topic :=
  if self.isAGateway this then defaultGatewayTopic else self.topicInterface this

/-- Behind these constructors all subscribers are in one list, the last one constructed first. -/
structure Constructed (all : Subscribers Topic Subscriber)
    (done : List (Construction Topic Subscriber)) : Prop where
  listed : Linked all.next none (all.list .subscriberList)
    (done.filterMap Construction.subscriber?).reverse
  empty : ∀ topic, .topicInterface topic ∈ done → all.list (.mySubscribers topic) = none
  members : ∀ this topic isAGateway, .subscriber this topic isAGateway ∈ done →
    all.topicInterface this = topic ∧ all.isAGateway this = isAGateway

theorem mem_subscribers {done : List (Construction Topic Subscriber)} {this : Subscriber}
    {topic : Topic} {isAGateway : Bool} (h : .subscriber this topic isAGateway ∈ done) :
    this ∈ done.filterMap Construction.subscriber? :=
  List.mem_filterMap.mpr ⟨_, h, rfl⟩

theorem subscribers_concat_topic (done : List (Construction Topic Subscriber)) (topic : Topic) :
    (done ++ [Construction.topicInterface topic]).filterMap Construction.subscriber? =
      done.filterMap Construction.subscriber? := by
  simp [Construction.subscriber?]

variable [DecidableEq Topic]

theorem constructed_nil (memory : Subscribers Topic Subscriber) : memory.loaded.Constructed [] := by
  refine ⟨?_, fun topic htopic => ?_, fun this topic isAGateway hmem => ?_⟩
  · show memory.loaded.list .subscriberList = none
    simp [loaded]
  · exact absurd htopic List.not_mem_nil
  · exact absurd hmem List.not_mem_nil

section placed

variable {destination : Subscriber → Topic} {done : List Subscriber} {node : Subscriber}
  {topic : Topic}

/-- The subscribers whose list is the one of this topic, the first one last. -/
def placed (destination : Subscriber → Topic) (nodes : List Subscriber) (topic : Topic) :
    List Subscriber :=
  (nodes.filter (destination · = topic)).reverse

theorem placed_concat_same (hdestination : destination node = topic) :
    placed destination (done ++ [node]) topic = node :: placed destination done topic := by
  simp [placed, hdestination]

theorem placed_concat_other (hdestination : destination node ≠ topic) :
    placed destination (done ++ [node]) topic = placed destination done topic := by
  simp [placed, hdestination]

theorem mem_placed :
    node ∈ placed destination done topic ↔ node ∈ done ∧ destination node = topic := by
  simp [placed]

end placed

variable [DecidableEq Subscriber]

section append

variable {self : Subscribers Topic Subscriber} {this : Subscriber} {list : SubscriberList Topic}

@[simp] theorem destination_append (defaultGatewayTopic : Topic) :
    (self.append this list).destination defaultGatewayTopic =
      self.destination defaultGatewayTopic := rfl

@[simp] theorem list_append_same : (self.append this list).list list = some this :=
  Function.update_self list _ _

theorem list_append_other {other : SubscriberList Topic} (hother : other ≠ list) :
    (self.append this list).list other = self.list other :=
  Function.update_of_ne hother _ _

theorem linked_append_same {nodes : List Subscriber}
    (h : Linked self.next none (self.list list) nodes) (hnew : this ∉ nodes) :
    Linked (self.append this list).next none ((self.append this list).list list)
      (this :: nodes) := by
  rw [list_append_same]
  exact h.pushFront hnew

theorem linked_append_other {start : Option Subscriber} {nodes : List Subscriber}
    (h : Linked self.next none start nodes) (hnew : this ∉ nodes) :
    Linked (self.append this list).next none start nodes :=
  h.update_of_notMem _ hnew

end append

theorem Constructed.construct {self : Subscribers Topic Subscriber}
    {done : List (Construction Topic Subscriber)} (h : self.Constructed done)
    (construction : Construction Topic Subscriber)
    (hnodup : ((done ++ [construction]).filterMap Construction.subscriber?).Nodup) :
    (self.construct construction).Constructed (done ++ [construction]) := by
  rw [List.filterMap_append] at hnodup
  cases construction with
  | topicInterface topic =>
    refine ⟨?_, fun other hother => ?_, fun this other isAGateway hmem => ?_⟩
    · rw [subscribers_concat_topic]
      have hlist : SubscriberList.subscriberList ≠ .mySubscribers topic := by simp
      rw [Subscribers.construct]
      dsimp only
      rw [Function.update_of_ne hlist]
      exact h.listed
    · by_cases hsame : other = topic
      · rw [hsame]
        exact Function.update_self _ _ _
      · have hbefore : .topicInterface other ∈ done := by simpa [hsame] using hother
        have hlist : SubscriberList.mySubscribers other ≠ .mySubscribers topic := by simp [hsame]
        exact (Function.update_of_ne hlist _ _).trans (h.empty other hbefore)
    · exact h.members this other isAGateway (by simpa using hmem)
  | subscriber this topic isAGateway =>
    have hnew : this ∉ done.filterMap Construction.subscriber? := by
      intro hmem
      exact (List.nodup_append.mp hnodup).2.2 this hmem this List.mem_cons_self rfl
    refine ⟨?_, fun other hother => ?_, fun other otherTopic otherGateway hmem => ?_⟩
    · rw [List.filterMap_append, List.reverse_append]
      exact linked_append_same h.listed (by simpa using hnew)
    · have hbefore : .topicInterface other ∈ done := by simpa using hother
      have hlist : SubscriberList.mySubscribers other ≠ .subscriberList := by simp
      have hkept : (self.append this .subscriberList).list (.mySubscribers other) =
        self.list (.mySubscribers other) := list_append_other hlist
      exact hkept.trans (h.empty other hbefore)
    · rw [List.mem_append, List.mem_singleton] at hmem
      cases hmem with
      | inl hbefore =>
        have hne : other ≠ this := by
          rintro rfl
          exact hnew (mem_subscribers hbefore)
        have hkept := h.members other otherTopic otherGateway hbefore
        exact ⟨(Function.update_of_ne hne _ _).trans hkept.1,
          (Function.update_of_ne hne _ _).trans hkept.2⟩
      | inr hlast =>
        cases hlast
        exact ⟨Function.update_self _ _ _, Function.update_self _ _ _⟩

/-- Whatever the order of the constructors is. -/
theorem constructed_constructed (memory : Subscribers Topic Subscriber)
    {constructions : List (Construction Topic Subscriber)}
    (hnodup : (constructions.filterMap Construction.subscriber?).Nodup) :
    (memory.constructed constructions).Constructed constructions := by
  induction constructions using List.reverseRecOn with
  | nil => exact constructed_nil memory
  | append_singleton done construction ih =>
    have hbefore : (done.filterMap Construction.subscriber?).Nodup := by
      rw [List.filterMap_append] at hnodup
      exact (List.nodup_append.mp hnodup).1
    rw [constructed, List.foldl_concat]
    exact (ih hbefore).construct construction hnodup

section distribute

variable {self : Subscribers Topic Subscriber} {defaultGatewayTopic : Topic}
  {destination : Subscriber → Topic} {done rest : List Subscriber} {node : Subscriber}
  {topic : Topic}

/-- One round. -/
theorem distribute_some (fuel : Nat) (iter : Subscriber) :
    distribute defaultGatewayTopic (fuel + 1) (some iter) self =
      distribute defaultGatewayTopic fuel (self.next iter)
        (self.append iter (.mySubscribers (self.destination defaultGatewayTopic iter))) := by
  rw [distribute, Subscribers.destination]
  split <;> rfl

/-- The topics' lists hold the subscribers that are done, and `iter` leads through the rest. -/
theorem distribute_spec {topics : Topic → Prop} {fuel : Nat} {iter : Option Subscriber}
    (hdestination : self.destination defaultGatewayTopic = destination)
    (hrest : Linked self.next none iter rest) (hnodup : (done ++ rest).Nodup)
    (hplaced : ∀ topic, topics topic → Linked self.next none (self.list (.mySubscribers topic))
      (placed destination done topic))
    (hfuel : rest.length ≤ fuel) :
    ∃ final, distribute defaultGatewayTopic fuel iter self = some final ∧
      ∀ topic, topics topic → Linked final.next none (final.list (.mySubscribers topic))
        (placed destination (done ++ rest) topic) := by
  induction rest generalizing self done iter fuel with
  | nil =>
    have hend : iter = none := hrest
    subst hend
    refine ⟨self, by cases fuel <;> rfl, fun topic htopic => ?_⟩
    rw [List.append_nil]
    exact hplaced topic htopic
  | cons node rest ih =>
    have hiter : iter = some node := hrest.start_eq_head
    have hnode := (List.nodup_cons.mp (List.nodup_middle.mp hnodup)).1
    rw [List.mem_append, not_or] at hnode
    cases fuel with
    | zero => exact absurd hfuel (Nat.not_succ_le_zero _)
    | succ fuel =>
      rw [hiter, distribute_some, hdestination]
      rw [List.append_cons] at hnodup ⊢
      refine ih ((destination_append _).trans hdestination)
        (linked_append_other hrest.tail hnode.2) hnodup (fun topic htopic => ?_)
        (Nat.le_of_succ_le_succ hfuel)
      have hnew : node ∉ placed destination done topic := by
        rw [mem_placed]
        exact fun h => hnode.1 h.1
      by_cases hsame : destination node = topic
      · rw [placed_concat_same hsame, hsame]
        exact linked_append_same (hplaced topic htopic) hnew
      · have hlist : SubscriberList.mySubscribers topic ≠ .mySubscribers (destination node) := by
          simp [Ne.symm hsame]
        rw [placed_concat_other hsame, list_append_other hlist]
        exact linked_append_other (hplaced topic htopic) hnew

end distribute

/-- After `initSystem` each subscriber is once in one of the topics' lists: a gateway in the one of
`defaultGatewayTopic`, any other subscriber in the one of its topic. -/
theorem initSystem_distributes (program : Program Topic Subscriber)
    (memory : Subscribers Topic Subscriber) {fuel : Nat}
    (hfuel : (program.constructions.filterMap Construction.subscriber?).length ≤ fuel) :
    ∃ (final : Subscribers Topic Subscriber) (lists : Topic → List Subscriber),
      (memory.constructed program.constructions).initSystem program.defaultGatewayTopic fuel =
        some final ∧
      (∀ topic, .topicInterface topic ∈ program.constructions →
        Linked final.next none (final.list (.mySubscribers topic)) (lists topic)) ∧
      (∀ topic, (lists topic).Nodup) ∧
      (∀ topic, ∀ this ∈ lists topic,
        this ∈ program.constructions.filterMap Construction.subscriber?) ∧
      ∀ this topic isAGateway, .subscriber this topic isAGateway ∈ program.constructions →
        .topicInterface (program.target topic isAGateway) ∈ program.constructions ∧
          ∀ other, this ∈ lists other ↔ other = program.target topic isAGateway := by
  let start := memory.constructed program.constructions
  let nodes := (program.constructions.filterMap Construction.subscriber?).reverse
  let destination := start.destination program.defaultGatewayTopic
  have hstart : start.Constructed program.constructions :=
    memory.constructed_constructed program.nodup
  have hnodes : nodes.Nodup := List.nodup_reverse.mpr program.nodup
  obtain ⟨final, hrun, hfinal⟩ := @distribute_spec Topic Subscriber _ _ start
    program.defaultGatewayTopic destination [] nodes
    (fun topic => .topicInterface topic ∈ program.constructions) fuel _ rfl hstart.listed
    (by rwa [List.nil_append]) (fun topic htopic => hstart.empty topic htopic)
    (by rwa [List.length_reverse])
  rw [List.nil_append] at hfinal
  refine ⟨final, placed destination nodes, hrun, hfinal, fun topic => ?_,
    fun topic this hthis => ?_, fun this topic isAGateway hmem => ?_⟩
  · exact List.nodup_reverse.mpr (hnodes.filter _)
  · exact List.mem_reverse.mp (mem_placed.mp hthis).1
  · have hmember := hstart.members this topic isAGateway hmem
    have htarget : destination this = program.target topic isAGateway := by
      show start.destination program.defaultGatewayTopic this = _
      rw [Subscribers.destination, hmember.1, hmember.2, Program.target]
    refine ⟨?_, fun other => ?_⟩
    · cases isAGateway with
      | true => exact program.default_constructed
      | false => exact program.topic_constructed this topic false hmem
    · rw [mem_placed, htarget]
      have hnode : this ∈ nodes := List.mem_reverse.mpr (mem_subscribers hmem)
      exact ⟨fun h => h.2.symm, fun h => ⟨hnode, h.symm⟩⟩

/-- A subscriber that is constructed before its topic, a gateway, and a subscriber of
`defaultGatewayTopic` that is none. -/
theorem initSystem_distributes_gateway :
    ∃ (program : Program Nat Nat) (final : Subscribers Nat Nat) (lists : Nat → List Nat),
      program.constructions = [.subscriber 1 7 false, .topicInterface 7, .subscriber 2 0 true,
        .topicInterface 0, .subscriber 3 0 false] ∧
      (constructed ⟨fun _ => none, fun _ => 0, fun _ => false, fun _ => none⟩
        program.constructions).initSystem 0 3 = some final ∧
      Linked final.next none (final.list (.mySubscribers 0)) (lists 0) ∧
      1 ∉ lists 0 ∧ 2 ∈ lists 0 ∧ 3 ∈ lists 0 := by
  let program : Program Nat Nat :=
    { constructions := [.subscriber 1 7 false, .topicInterface 7, .subscriber 2 0 true,
        .topicInterface 0, .subscriber 3 0 false]
      defaultGatewayTopic := 0
      nodup := by decide
      default_constructed := by simp
      topic_constructed := by
        intro this topic isAGateway hmem
        simp at hmem ⊢
        omega }
  obtain ⟨final, lists, hrun, hlists, _, _, hplaces⟩ := initSystem_distributes program
    ⟨fun _ => none, fun _ => 0, fun _ => false, fun _ => none⟩ (show 3 ≤ 3 from Nat.le_refl 3)
  have hfirst := (hplaces 1 7 false (by simp [program])).2 0
  have hsecond := (hplaces 2 0 true (by simp [program])).2 0
  have hthird := (hplaces 3 0 false (by simp [program])).2 0
  refine ⟨program, final, lists, rfl, hrun, hlists 0 (by simp [program]), ?_, ?_, ?_⟩
  · rw [hfirst]
    decide
  · rw [hsecond]
    rfl
  · rw [hthird]
    rfl

end Subscribers

end Rodos.Gateway
