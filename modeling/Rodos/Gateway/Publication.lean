import Rodos.Library.Runs
import Mathlib.Logic.Function.Basic

/-! `TopicInterface::publish`, called by several threads and from within the putters of
subscribers: who receives what, and how often. -/
namespace Rodos.Gateway
open Library

/-- The topics of a node and their lists of subscribers, behind `initSystem`. -/
structure Topics (Topic Subscriber : Type) where
  mySubscribers : Topic → List Subscriber
  onlyLocal : Topic → Bool
  defaultGatewayTopic : Topic
  hasReceiver : Subscriber → Bool
  /-- A `SubscriberReceiver` overrides `put`; it neither asks `isEnabled` nor uses the semaphore. -/
  overridesPut : Subscriber → Bool

inductive PublishLoop where
  | own
  | gateways
deriving DecidableEq

/-- Where a call of `publishMsgPart` is, with the subscribers behind the one it is at. -/
inductive PublishAt (Subscriber : Type) where
  | iterating (loop : PublishLoop) (iter : List Subscriber)
  /-- At the call of `put`. -/
  | calling (loop : PublishLoop) (this : Subscriber) (iter : List Subscriber)
  | entering (loop : PublishLoop) (this : Subscriber) (iter : List Subscriber)
  /-- In `putGeneric`, or in an overriding `put`. -/
  | receiving (loop : PublishLoop) (this : Subscriber) (iter : List Subscriber)
deriving DecidableEq

structure PublishCall (Topic Subscriber : Type) where
  /-- How many calls the thread has made before this one. -/
  number : Nat
  topic : Topic
  shallSendToNetwork : Bool
  cnt : Nat := 0
  place : PublishAt Subscriber

/-- `Subscriber::protector`. -/
structure Protector (Thread : Type) where
  owner : Option Thread := none
  ownerEnterCnt : Nat := 0

/-- `calls` holds the calls of each thread, the innermost one first. The last three fields are not
in the program: the arguments of all calls of each thread, which subscriber received what of which
call, and what the calls returned. -/
structure Publishing (Thread Topic Subscriber : Type) where
  isEnabled : Subscriber → Bool
  protector : Subscriber → Protector Thread := fun _ => {}
  calls : Thread → List (PublishCall Topic Subscriber) := fun _ => []
  published : Thread → List (Topic × Bool) := fun _ => []
  received : List (Subscriber × Thread × Nat) := []
  returned : List ((Thread × Nat) × Nat) := []

inductive PublishAction (Thread Topic Subscriber : Type) where
  | publish (thread : Thread) (topic : Topic) (shallSendToNetwork : Bool)
  | proceed (thread : Thread)
  | enable (subscriber : Subscriber) (onOff : Bool)

variable {Thread Topic Subscriber : Type}

namespace Topics

variable (self : Topics Topic Subscriber)

/-- Behind its own subscribers a message may go to the gateways. -/
def forwarded (topic : Topic) (shallSendToNetwork : Bool) : List Subscriber :=
  if self.onlyLocal topic then []
  else if !shallSendToNetwork then []
  else self.mySubscribers self.defaultGatewayTopic

def targets (topic : Topic) (shallSendToNetwork : Bool) : List Subscriber :=
  self.mySubscribers topic ++ self.forwarded topic shallSendToNetwork

/-- What `put` adds to the count of receivers. -/
def receives (this : Subscriber) : Bool := self.overridesPut this || self.hasReceiver this

end Topics

namespace Protector

variable [DecidableEq Thread]

/-- Nothing while another thread is the owner. -/
def enter (self : Protector Thread) (caller : Thread) : Option (Protector Thread) :=
  match self.owner with
  | none => some ⟨some caller, 1⟩
  | some owner =>
    if owner = caller then some { self with ownerEnterCnt := self.ownerEnterCnt + 1 } else none

def leave (self : Protector Thread) (caller : Thread) : Protector Thread :=
  if self.owner = some caller then
    if self.ownerEnterCnt - 1 = 0 then {}
    else { self with ownerEnterCnt := self.ownerEnterCnt - 1 }
  else self

end Protector

namespace Publishing

section code

variable [DecidableEq Thread] [DecidableEq Subscriber] (topics : Topics Topic Subscriber)

def setCalls (self : Publishing Thread Topic Subscriber) (thread : Thread)
    (calls : List (PublishCall Topic Subscriber)) : Publishing Thread Topic Subscriber :=
  { self with calls := Function.update self.calls thread calls }

/-- The innermost call of the thread is at another place now. -/
def moved (self : Publishing Thread Topic Subscriber) (thread : Thread)
    (call : PublishCall Topic Subscriber) (outer : List (PublishCall Topic Subscriber))
    (place : PublishAt Subscriber) : Publishing Thread Topic Subscriber :=
  self.setCalls thread ({ call with place := place } :: outer)

def publish (self : Publishing Thread Topic Subscriber) (thread : Thread) (topic : Topic)
    (shallSendToNetwork : Bool) : Publishing Thread Topic Subscriber :=
  { self.setCalls thread ({
      number := (self.published thread).length
      topic := topic
      shallSendToNetwork := shallSendToNetwork
      place := .iterating .own (topics.mySubscribers topic) } :: self.calls thread) with
    published := Function.update self.published thread
      (self.published thread ++ [(topic, shallSendToNetwork)]) }

def returns (self : Publishing Thread Topic Subscriber) (thread : Thread)
    (call : PublishCall Topic Subscriber) (outer : List (PublishCall Topic Subscriber)) :
    Publishing Thread Topic Subscriber :=
  { self.setCalls thread outer with
    returned := self.returned ++ [((thread, call.number), call.cnt)] }

/-- The subscriber is handed the message. -/
def receive (self : Publishing Thread Topic Subscriber) (thread : Thread)
    (call : PublishCall Topic Subscriber) (this : Subscriber) :
    Publishing Thread Topic Subscriber :=
  { self with
    received := self.received ++
      if topics.receives this then [(this, thread, call.number)] else [] }

/-- The next step of the innermost call; nothing while it waits for the semaphore. -/
def proceed (self : Publishing Thread Topic Subscriber) (thread : Thread)
    (call : PublishCall Topic Subscriber) (outer : List (PublishCall Topic Subscriber)) :
    Option (Publishing Thread Topic Subscriber) :=
  match call.place with
  | .iterating .own [] =>
    if topics.onlyLocal call.topic then some (self.returns thread call outer)
    else if !call.shallSendToNetwork then some (self.returns thread call outer)
    else some (self.moved thread call outer
      (.iterating .gateways (topics.mySubscribers topics.defaultGatewayTopic)))
  | .iterating .gateways [] => some (self.returns thread call outer)
  | .iterating .own (this :: iter) =>
    if self.isEnabled this then some (self.moved thread call outer (.calling .own this iter))
    else some (self.moved thread call outer (.iterating .own iter))
  | .iterating .gateways (this :: iter) =>
    some (self.moved thread call outer (.calling .gateways this iter))
  | .calling loop this iter =>
    if topics.overridesPut this then
      some (self.receive topics thread call this |>.moved thread call outer
        (.receiving loop this iter))
    else if !self.isEnabled this then
      some (self.moved thread call outer (.iterating loop iter))
    else some (self.moved thread call outer (.entering loop this iter))
  | .entering loop this iter =>
    match (self.protector this).enter thread with
    | none => none
    | some protector =>
      some ({ self with protector := Function.update self.protector this protector }
        |>.receive topics thread call this |>.moved thread call outer (.receiving loop this iter))
  | .receiving loop this iter =>
    let protector :=
      if topics.overridesPut this then self.protector
      else Function.update self.protector this ((self.protector this).leave thread)
    let cnt := if topics.receives this then call.cnt + 1 else call.cnt
    some ({ self with protector := protector }.moved thread { call with cnt := cnt } outer
      (.iterating loop iter))

/-- A thread publishes from its own code, or from the receiver that its last call is in. -/
def step (self : Publishing Thread Topic Subscriber) :
    PublishAction Thread Topic Subscriber → Option (Publishing Thread Topic Subscriber)
  | .publish thread topic shallSendToNetwork =>
    match self.calls thread with
    | [] => some (self.publish topics thread topic shallSendToNetwork)
    | call :: _ =>
      match call.place with
      | .receiving _ this _ =>
        if topics.receives this then some (self.publish topics thread topic shallSendToNetwork)
        else none
      | _ => none
  | .proceed thread =>
    match self.calls thread with
    | [] => none
    | call :: outer => self.proceed topics thread call outer
  | .enable subscriber onOff =>
    some { self with isEnabled := Function.update self.isEnabled subscriber onOff }

end code

/-! ### The calls of a thread -/

/-- The subscribers that a call has before it. -/
def remaining (topics : Topics Topic Subscriber) (call : PublishCall Topic Subscriber) :
    List Subscriber :=
  let behind : PublishLoop → List Subscriber
    | .own => topics.forwarded call.topic call.shallSendToNetwork
    | .gateways => []
  match call.place with
  | .iterating loop iter => iter ++ behind loop
  | .calling loop this iter => this :: iter ++ behind loop
  | .entering loop this iter => this :: iter ++ behind loop
  | .receiving loop _ iter => iter ++ behind loop

/-- Whether the call is in a receiver that it has not counted yet. -/
def uncounted (topics : Topics Topic Subscriber) (call : PublishCall Topic Subscriber) : Nat :=
  match call.place with
  | .receiving _ this _ => if topics.receives this then 1 else 0
  | .iterating .. | .calling .. | .entering .. => 0

variable {topics : Topics Topic Subscriber} {self next : Publishing Thread Topic Subscriber}
  {thread : Thread} {call : PublishCall Topic Subscriber}
  {outer : List (PublishCall Topic Subscriber)}

/-- The calls of a thread are numbered, the innermost one last. -/
structure Numbered (publishing : Publishing Thread Topic Subscriber) : Prop where
  known : ∀ thread, ∀ call ∈ publishing.calls thread,
    (publishing.published thread)[call.number]? = some (call.topic, call.shallSendToNetwork)
  nested : ∀ thread, (publishing.calls thread).Pairwise fun inner outer =>
    outer.number < inner.number
  told : ∀ this thread number, (this, thread, number) ∈ publishing.received →
    number < (publishing.published thread).length

theorem numbered_initial (isEnabled : Subscriber → Bool) :
    Numbered ({ isEnabled := isEnabled } : Publishing Thread Topic Subscriber) :=
  ⟨nofun, fun _ => .nil, nofun⟩

/-- The innermost call of the thread is the one with the greatest number. -/
theorem Numbered.inner (h : self.Numbered) (hcalls : self.calls thread = call :: outer) :
    call.number < (self.published thread).length ∧
      ∀ other ∈ outer, other.number < call.number := by
  have hnested := h.nested thread
  rw [hcalls, List.pairwise_cons] at hnested
  have hknown := h.known thread call (by rw [hcalls]; exact List.mem_cons_self)
  exact ⟨(List.getElem?_eq_some_iff.mp hknown).1, hnested.1⟩

theorem Numbered.lt_of_mem (h : self.Numbered) {other : Thread}
    {call'' : PublishCall Topic Subscriber} (hcall : call'' ∈ self.calls other) :
    call''.number < (self.published other).length :=
  (List.getElem?_eq_some_iff.mp (h.known other call'' hcall)).1

/-- The calls of the other threads and the outer ones of this thread have other numbers. -/
theorem Numbered.ne_innermost (h : self.Numbered) (hcalls : self.calls thread = call :: outer)
    {other : Thread} {call'' : PublishCall Topic Subscriber}
    (houter : other = thread → call'' ∈ outer) :
    (other, call''.number) ≠ (thread, call.number) := by
  intro heq
  obtain ⟨hthread, hnumber⟩ := Prod.mk.inj heq
  exact Nat.ne_of_lt ((h.inner hcalls).2 call'' (houter hthread)) hnumber

/-- Steps from place to place that nobody else sees. -/
inductive Shifts (topics : Topics Topic Subscriber) (self : Publishing Thread Topic Subscriber)
    (call : PublishCall Topic Subscriber) : PublishAt Subscriber → PublishAt Subscriber → Prop where
  | forward
      (hforwarded : topics.forwarded call.topic call.shallSendToNetwork =
        topics.mySubscribers topics.defaultGatewayTopic) :
      Shifts topics self call (.iterating .own [])
        (.iterating .gateways (topics.mySubscribers topics.defaultGatewayTopic))
  | skip {this : Subscriber} {iter : List Subscriber} (hdisabled : self.isEnabled this = false) :
      Shifts topics self call (.iterating .own (this :: iter)) (.iterating .own iter)
  | call {loop : PublishLoop} {this : Subscriber} {iter : List Subscriber} :
      Shifts topics self call (.iterating loop (this :: iter)) (.calling loop this iter)
  | refuse {loop : PublishLoop} {this : Subscriber} {iter : List Subscriber}
      (hdisabled : self.isEnabled this = false) :
      Shifts topics self call (.calling loop this iter) (.iterating loop iter)
  | enter {loop : PublishLoop} {this : Subscriber} {iter : List Subscriber}
      (hplain : topics.overridesPut this = false) :
      Shifts topics self call (.calling loop this iter) (.entering loop this iter)

theorem Shifts.uncounted_eq {place : PublishAt Subscriber}
    (h : Shifts topics self call call.place place) :
    uncounted topics { call with place := place } = uncounted topics call := by
  generalize hplace : call.place = before at h
  simp only [uncounted, hplace]
  cases h <;> rfl

/-- These subscribers are enabled and have a receiver. -/
def Ready (topics : Topics Topic Subscriber) (publishing : Publishing Thread Topic Subscriber)
    (chosen : Subscriber → Bool) : Prop :=
  ∀ this, chosen this = true →
    publishing.isEnabled this = true ∧ topics.receives this = true

theorem Shifts.remaining_filter {place : PublishAt Subscriber}
    (h : Shifts topics self call call.place place) {chosen : Subscriber → Bool}
    (hready : Ready topics self chosen) :
    (remaining topics { call with place := place }).filter chosen =
      (remaining topics call).filter chosen := by
  have hother : ∀ other, self.isEnabled other = false → chosen other = false := by
    refine fun other hdisabled => Bool.eq_false_iff.mpr fun hchosen => ?_
    rw [(hready other hchosen).1] at hdisabled
    cases hdisabled
  generalize hplace : call.place = before at h
  simp only [remaining, hplace]
  cases h with
  | forward hforwarded => rw [hforwarded]; simp
  | skip hdisabled => simp [hother _ hdisabled]
  | call => rfl
  | refuse hdisabled => simp [hother _ hdisabled]
  | enter => rfl

/-! ### Returning and beginning -/

variable [DecidableEq Thread]

/-- Who has received the message of one call, in this order. -/
def receivers (publishing : Publishing Thread Topic Subscriber) (thread : Thread)
    (number : Nat) : List Subscriber :=
  (publishing.received.filter fun entry => entry.2 = (thread, number)).map Prod.fst

structure Counted (topics : Topics Topic Subscriber)
    (publishing : Publishing Thread Topic Subscriber) : Prop where
  counting : ∀ thread, ∀ call ∈ publishing.calls thread,
    call.cnt + uncounted topics call = (publishing.receivers thread call.number).length
  settled : ∀ thread number cnt, ((thread, number), cnt) ∈ publishing.returned →
    number < (publishing.published thread).length ∧
      (∀ call ∈ publishing.calls thread, call.number ≠ number) ∧
      cnt = (publishing.receivers thread number).length

section returns

variable (hcalls : self.calls thread = call :: outer)

include hcalls

theorem mem_calls_of_returns {other : Thread} {call'' : PublishCall Topic Subscriber}
    (hcall : call'' ∈ (self.returns thread call outer).calls other) :
    call'' ∈ self.calls other ∧ (other = thread → call'' ∈ outer) := by
  by_cases hthread : other = thread
  · subst hthread
    have hcall : call'' ∈ outer := by simpa [returns, setCalls] using hcall
    exact ⟨by rw [hcalls]; exact List.mem_cons_of_mem _ hcall, fun _ => hcall⟩
  · exact ⟨by simpa [returns, setCalls, hthread] using hcall, fun heq => absurd heq hthread⟩

theorem Numbered.returns (h : self.Numbered) : (self.returns thread call outer).Numbered := by
  constructor
  case known =>
    intro other call'' hcall
    exact h.known other call'' (mem_calls_of_returns hcalls hcall).1
  case nested =>
    intro other
    by_cases hthread : other = thread
    · subst hthread
      have hnested := h.nested other
      rw [hcalls, List.pairwise_cons] at hnested
      simpa [Publishing.returns, setCalls] using hnested.2
    · simpa [Publishing.returns, setCalls, hthread] using h.nested other
  case told => exact h.told

theorem Counted.returns (h : self.Numbered) (hcounted : Counted topics self)
    (hlast : uncounted topics call = 0) : Counted topics (self.returns thread call outer) := by
  have hmem : call ∈ self.calls thread := by rw [hcalls]; exact List.mem_cons_self
  constructor
  case counting =>
    intro other call'' hcall
    exact hcounted.counting other call'' (mem_calls_of_returns hcalls hcall).1
  case settled =>
    intro other number cnt hreturned
    rcases List.mem_append.mp hreturned with hbefore | hnow
    · obtain ⟨hlt, hnone, hcnt⟩ := hcounted.settled other number cnt hbefore
      exact ⟨hlt, fun call'' hcall => hnone call'' (mem_calls_of_returns hcalls hcall).1, hcnt⟩
    · cases List.mem_singleton.mp hnow
      have hcounting := hcounted.counting thread call hmem
      rw [hlast, Nat.add_zero] at hcounting
      obtain ⟨hlt, hbelow⟩ := h.inner hcalls
      exact ⟨hlt, fun call'' hcall =>
        Nat.ne_of_lt (hbelow call'' ((mem_calls_of_returns hcalls hcall).2 rfl)), hcounting⟩

end returns

section publish

variable {topic : Topic} {shallSendToNetwork : Bool}

theorem getElem?_publish {other : Thread} {number : Nat} {arguments : Topic × Bool} :
    ((self.publish topics thread topic shallSendToNetwork).published other)[number]? =
        some arguments ↔
      (self.published other)[number]? = some arguments ∨
        other = thread ∧ number = (self.published thread).length ∧
          arguments = (topic, shallSendToNetwork) := by
  by_cases hthread : other = thread
  · subst hthread
    simp only [publish, setCalls, Function.update_self, true_and]
    rcases Nat.lt_trichotomy number (self.published other).length with hlt | rfl | hgt
    · rw [List.getElem?_append_left hlt]
      exact (or_iff_left fun hnew => Nat.ne_of_lt hlt hnew.1).symm
    · simp [eq_comm]
    · rw [List.getElem?_eq_none (by simp; omega), List.getElem?_eq_none (by omega)]
      simp [Nat.ne_of_gt hgt]
  · simp [publish, setCalls, hthread]

theorem mem_calls_publish {other : Thread} {call'' : PublishCall Topic Subscriber} :
    call'' ∈ (self.publish topics thread topic shallSendToNetwork).calls other ↔
      other = thread ∧ call'' =
          { number := (self.published thread).length
            topic := topic
            shallSendToNetwork := shallSendToNetwork
            place := .iterating .own (topics.mySubscribers topic) } ∨
        call'' ∈ self.calls other := by
  by_cases hthread : other = thread
  · subst hthread
    simp [publish, setCalls]
  · simp [publish, setCalls, hthread]

theorem length_published_le (other : Thread) : (self.published other).length ≤
    ((self.publish topics thread topic shallSendToNetwork).published other).length := by
  by_cases hthread : other = thread
  · subst hthread
    simp [publish, setCalls]
  · simp [publish, setCalls, hthread]

theorem Numbered.publish (h : self.Numbered) :
    (self.publish topics thread topic shallSendToNetwork).Numbered := by
  constructor
  case known =>
    intro other call'' hcall
    rw [getElem?_publish]
    rcases mem_calls_publish.mp hcall with ⟨rfl, rfl⟩ | hcall
    · exact .inr ⟨rfl, rfl, rfl⟩
    · exact .inl (h.known other call'' hcall)
  case nested =>
    intro other
    by_cases hthread : other = thread
    · subst hthread
      simp only [Publishing.publish, setCalls, Function.update_self, List.pairwise_cons]
      exact ⟨fun call'' hcall => h.lt_of_mem hcall, h.nested other⟩
    · simpa [Publishing.publish, setCalls, hthread] using h.nested other
  case told =>
    exact fun this other number hmem =>
      Nat.lt_of_lt_of_le (h.told this other number hmem) (length_published_le other)

/-- Nobody has received a message that is not published yet. -/
theorem Numbered.receivers_fresh (h : self.Numbered) :
    self.receivers thread (self.published thread).length = [] := by
  rw [receivers, List.map_eq_nil_iff, List.filter_eq_nil_iff]
  rintro ⟨this, other, number⟩ hmem hnumber
  cases of_decide_eq_true hnumber
  exact absurd (h.told _ _ _ hmem) (Nat.lt_irrefl _)

theorem Counted.publish (h : self.Numbered) (hcounted : Counted topics self) :
    Counted topics (self.publish topics thread topic shallSendToNetwork) := by
  constructor
  case counting =>
    intro other call'' hcall
    rcases mem_calls_publish.mp hcall with ⟨rfl, rfl⟩ | hcall
    · rw [PublishCall.number]
      exact (congrArg List.length h.receivers_fresh).symm
    · exact hcounted.counting other call'' hcall
  case settled =>
    intro other number cnt hreturned
    obtain ⟨hlt, hnone, hcnt⟩ := hcounted.settled other number cnt hreturned
    refine ⟨Nat.lt_of_lt_of_le hlt (length_published_le other), fun call'' hcall => ?_, hcnt⟩
    rcases mem_calls_publish.mp hcall with ⟨rfl, rfl⟩ | hcall
    · exact Nat.ne_of_gt hlt
    · exact hnone call'' hcall

end publish

/-! ### Who has received what -/

/-- Who of the chosen subscribers has received a message, and is yet to receive it. -/
structure Accounted (topics : Topics Topic Subscriber)
    (publishing : Publishing Thread Topic Subscriber) (chosen : Subscriber → Bool) : Prop where
  pending : ∀ thread, ∀ call ∈ publishing.calls thread,
    (publishing.receivers thread call.number).filter chosen ++
        (remaining topics call).filter chosen =
      (topics.targets call.topic call.shallSendToNetwork).filter chosen
  finished : ∀ thread number topic shallSendToNetwork,
    (publishing.published thread)[number]? = some (topic, shallSendToNetwork) →
    (∀ call ∈ publishing.calls thread, call.number ≠ number) →
    (publishing.receivers thread number).filter chosen =
      (topics.targets topic shallSendToNetwork).filter chosen

section Accounted

variable {chosen : Subscriber → Bool}

/-- A call that returns has nobody before it. -/
theorem Accounted.returns (h : self.Numbered) (hcalls : self.calls thread = call :: outer)
    (haccounted : Accounted topics self chosen) (hlast : remaining topics call = []) :
    Accounted topics (self.returns thread call outer) chosen := by
  have hmem : call ∈ self.calls thread := by rw [hcalls]; exact List.mem_cons_self
  constructor
  case pending =>
    intro other call'' hcall
    exact haccounted.pending other call'' (mem_calls_of_returns hcalls hcall).1
  case finished =>
    intro other number topic shallSendToNetwork hpublished hnone
    by_cases hsame : (other, number) = (thread, call.number)
    · cases hsame
      have hknown := h.known thread call hmem
      cases hknown.symm.trans hpublished
      have hpending := haccounted.pending thread call hmem
      rwa [hlast, List.filter_nil, List.append_nil] at hpending
    · refine haccounted.finished other number topic shallSendToNetwork hpublished ?_
      intro call'' hcall hnumber
      by_cases hthread : other = thread
      · subst hthread
        rw [hcalls] at hcall
        rcases List.mem_cons.mp hcall with rfl | houter
        · exact hsame (by rw [hnumber])
        · exact hnone call'' (by simpa [Publishing.returns, setCalls] using houter) hnumber
      · exact hnone call'' (by simpa [Publishing.returns, setCalls, hthread] using hcall) hnumber

theorem Accounted.publish (h : self.Numbered) {topic : Topic} {shallSendToNetwork : Bool}
    (haccounted : Accounted topics self chosen) :
    Accounted topics (self.publish topics thread topic shallSendToNetwork) chosen := by
  constructor
  case pending =>
    intro other call'' hcall
    rcases mem_calls_publish.mp hcall with ⟨rfl, rfl⟩ | hcall
    · have hfresh : (self.publish topics other topic shallSendToNetwork).receivers other
          (self.published other).length = [] := h.receivers_fresh
      rw [hfresh]
      rfl
    · exact haccounted.pending other call'' hcall
  case finished =>
    intro other number topic' shallSendToNetwork' hpublished hnone
    rcases getElem?_publish.mp hpublished with hbefore | ⟨rfl, rfl, -⟩
    · exact haccounted.finished other number topic' shallSendToNetwork' hbefore
        fun call'' hcall => hnone call'' (mem_calls_publish.mpr (.inr hcall))
    · exact absurd rfl (hnone _ (mem_calls_publish.mpr (.inl ⟨rfl, rfl⟩)))

end Accounted

/-- The innermost call of the thread goes on, and the subscribers of `told` have received its
message. -/
structure Advance (topics : Topics Topic Subscriber)
    (before after : Publishing Thread Topic Subscriber) (thread : Thread)
    (call call' : PublishCall Topic Subscriber) (outer : List (PublishCall Topic Subscriber))
    (told : List Subscriber) : Prop where
  calls_eq : after.calls = Function.update before.calls thread (call' :: outer)
  published_eq : after.published = before.published
  returned_eq : after.returned = before.returned
  received_eq : after.received = before.received ++ told.map fun this => (this, thread, call.number)
  number_eq : call'.number = call.number
  topic_eq : call'.topic = call.topic
  network_eq : call'.shallSendToNetwork = call.shallSendToNetwork
  counts : call'.cnt + uncounted topics call' = call.cnt + uncounted topics call + told.length
  hands : ∀ chosen, Ready topics before chosen →
    told.filter chosen ++ (remaining topics call').filter chosen =
      (remaining topics call).filter chosen

variable {call' : PublishCall Topic Subscriber} {told : List Subscriber}

section Advance

variable (hadvance : Advance topics self next thread call call' outer told)

include hadvance

theorem Advance.receivers_same :
    next.receivers thread call.number = self.receivers thread call.number ++ told := by
  rw [receivers, hadvance.received_eq, List.filter_append, List.map_append, receivers]
  congr 1
  rw [List.filter_eq_self.mpr (by simp), List.map_map]
  exact List.map_id told

theorem Advance.receivers_other {other : Thread} {number : Nat}
    (hother : (other, number) ≠ (thread, call.number)) :
    next.receivers other number = self.receivers other number := by
  have hnone : (told.map fun this => (this, thread, call.number)).filter
      (fun entry => entry.2 = (other, number)) = [] := by
    rw [List.filter_eq_nil_iff]
    rintro _ hmem heq
    obtain ⟨_, -, rfl⟩ := List.mem_map.mp hmem
    exact hother (of_decide_eq_true heq).symm
  rw [receivers, hadvance.received_eq, List.filter_append, hnone, List.append_nil, receivers]

variable (hcalls : self.calls thread = call :: outer)

include hcalls

theorem Advance.mem_calls {other : Thread} {call'' : PublishCall Topic Subscriber}
    (hcall : call'' ∈ next.calls other) :
    other = thread ∧ call'' = call' ∨
      call'' ∈ self.calls other ∧ (other = thread → call'' ∈ outer) := by
  rw [hadvance.calls_eq] at hcall
  by_cases hthread : other = thread
  · subst hthread
    rw [Function.update_self] at hcall
    rcases List.mem_cons.mp hcall with heq | hcall
    · exact .inl ⟨rfl, heq⟩
    · exact .inr ⟨by rw [hcalls]; exact List.mem_cons_of_mem _ hcall, fun _ => hcall⟩
  · rw [Function.update_of_ne hthread] at hcall
    exact .inr ⟨hcall, fun heq => absurd heq hthread⟩

/-- The same calls are still under way. -/
theorem Advance.ne_number {other : Thread} {number : Nat}
    (hnone : ∀ call ∈ next.calls other, call.number ≠ number) :
    ∀ call ∈ self.calls other, call.number ≠ number := by
  intro call'' hcall
  rw [hadvance.calls_eq] at hnone
  by_cases hthread : other = thread
  · subst hthread
    rw [Function.update_self] at hnone
    rw [hcalls] at hcall
    rcases List.mem_cons.mp hcall with rfl | hcall
    · rw [← hadvance.number_eq]
      exact hnone call' List.mem_cons_self
    · exact hnone call'' (List.mem_cons_of_mem _ hcall)
  · rw [Function.update_of_ne hthread] at hnone
    exact hnone call'' hcall

theorem Advance.numbered (h : self.Numbered) : next.Numbered := by
  have hinner := h.inner hcalls
  constructor
  case known =>
    intro other call'' hcall
    rw [hadvance.published_eq]
    rcases hadvance.mem_calls hcalls hcall with ⟨rfl, rfl⟩ | ⟨hcall, -⟩
    · rw [hadvance.number_eq, hadvance.topic_eq, hadvance.network_eq]
      exact h.known other call (by rw [hcalls]; exact List.mem_cons_self)
    · exact h.known other call'' hcall
  case nested =>
    intro other
    rw [hadvance.calls_eq]
    by_cases hthread : other = thread
    · subst hthread
      have hnested := h.nested other
      rw [hcalls, List.pairwise_cons] at hnested
      rw [Function.update_self, List.pairwise_cons, hadvance.number_eq]
      exact hnested
    · rw [Function.update_of_ne hthread]
      exact h.nested other
  case told =>
    intro this other number hmem
    rw [hadvance.published_eq]
    rw [hadvance.received_eq, List.mem_append, List.mem_map] at hmem
    rcases hmem with hmem | ⟨_, -, heq⟩
    · exact h.told this other number hmem
    · cases heq
      exact hinner.1

theorem Advance.accounted (h : self.Numbered) {chosen : Subscriber → Bool}
    (hready : Ready topics self chosen) (haccounted : Accounted topics self chosen) :
    Accounted topics next chosen := by
  have hmem : call ∈ self.calls thread := by rw [hcalls]; exact List.mem_cons_self
  constructor
  case pending =>
    intro other call'' hcall
    rcases hadvance.mem_calls hcalls hcall with ⟨rfl, rfl⟩ | ⟨hcall, houter⟩
    · rw [hadvance.number_eq, hadvance.topic_eq, hadvance.network_eq, hadvance.receivers_same,
        List.filter_append, List.append_assoc, hadvance.hands chosen hready]
      exact haccounted.pending other call hmem
    · rw [hadvance.receivers_other (h.ne_innermost hcalls houter)]
      exact haccounted.pending other call'' hcall
  case finished =>
    intro other number topic shallSendToNetwork hpublished hnone
    rw [hadvance.published_eq] at hpublished
    have hnone := hadvance.ne_number hcalls hnone
    rw [hadvance.receivers_other]
    · exact haccounted.finished other number topic shallSendToNetwork hpublished hnone
    · rintro ⟨⟩
      exact hnone call hmem rfl

theorem Advance.counted (h : self.Numbered) (hcounted : Counted topics self) :
    Counted topics next := by
  have hmem : call ∈ self.calls thread := by rw [hcalls]; exact List.mem_cons_self
  constructor
  case counting =>
    intro other call'' hcall
    rcases hadvance.mem_calls hcalls hcall with ⟨rfl, rfl⟩ | ⟨hcall, houter⟩
    · rw [hadvance.counts, hadvance.number_eq, hadvance.receivers_same, List.length_append,
        hcounted.counting other call hmem]
    · rw [hadvance.receivers_other (h.ne_innermost hcalls houter)]
      exact hcounted.counting other call'' hcall
  case settled =>
    intro other number cnt hreturned
    rw [hadvance.returned_eq] at hreturned
    obtain ⟨hlt, hnone, hcnt⟩ := hcounted.settled other number cnt hreturned
    refine ⟨by rwa [hadvance.published_eq], fun call'' hcall => ?_, ?_⟩
    · rcases hadvance.mem_calls hcalls hcall with ⟨rfl, rfl⟩ | ⟨hcall, -⟩
      · rw [hadvance.number_eq]
        exact hnone call hmem
      · exact hnone call'' hcall
    · rw [hadvance.receivers_other, hcnt]
      rintro ⟨⟩
      exact hnone call hmem rfl

end Advance

/-! ### What a step does -/

variable [DecidableEq Subscriber]

/-- The step is the call of the receiver. -/
inductive Reaches (topics : Topics Topic Subscriber) (self : Publishing Thread Topic Subscriber)
    (thread : Thread) (call : PublishCall Topic Subscriber) (loop : PublishLoop)
    (this : Subscriber) (iter : List Subscriber) : (Subscriber → Protector Thread) → Prop where
  | overriding (hplace : call.place = .calling loop this iter)
      (hoverrides : topics.overridesPut this = true) :
      Reaches topics self thread call loop this iter self.protector
  | entered (hplace : call.place = .entering loop this iter) {protector : Protector Thread}
      (henter : (self.protector this).enter thread = some protector) :
      Reaches topics self thread call loop this iter
        (Function.update self.protector this protector)

/-- What becomes of the protectors when the receiver of the subscriber returns. -/
def released (topics : Topics Topic Subscriber) (self : Publishing Thread Topic Subscriber)
    (thread : Thread) (this : Subscriber) : Subscriber → Protector Thread :=
  if topics.overridesPut this then self.protector
  else Function.update self.protector this ((self.protector this).leave thread)

/-- The call with the receiver counted. -/
def counted (topics : Topics Topic Subscriber) (call : PublishCall Topic Subscriber)
    (this : Subscriber) : PublishCall Topic Subscriber :=
  { call with cnt := if topics.receives this then call.cnt + 1 else call.cnt }

theorem proceed_cases (h : self.proceed topics thread call outer = some next) :
    (∃ place, Shifts topics self call call.place place ∧
      next = self.moved thread call outer place) ∨
    (∃ loop this iter protector, Reaches topics self thread call loop this iter protector ∧
      next = ({ self with protector := protector }.receive topics thread call this).moved thread
        call outer (.receiving loop this iter)) ∨
    (∃ loop this iter, call.place = .receiving loop this iter ∧
      next = { self with protector := released topics self thread this }.moved thread
        (counted topics call this) outer (.iterating loop iter)) ∨
    remaining topics call = [] ∧ (∃ loop, call.place = .iterating loop []) ∧
      next = self.returns thread call outer := by
  unfold proceed at h
  split at h
  · next hplace =>
    split at h
    · next honly =>
      cases h
      refine .inr (.inr (.inr ⟨?_, ⟨_, hplace⟩, rfl⟩))
      rw [remaining, hplace]
      exact if_pos honly
    · next honly =>
      split at h
      · next hlocal =>
        cases h
        refine .inr (.inr (.inr ⟨?_, ⟨_, hplace⟩, rfl⟩))
        rw [remaining, hplace]
        exact (if_neg honly).trans (if_pos hlocal)
      · next hnetwork =>
        cases h
        rw [hplace]
        exact .inl ⟨_, .forward ((if_neg honly).trans (if_neg hnetwork)), rfl⟩
  · next hplace =>
    cases h
    refine .inr (.inr (.inr ⟨?_, ⟨_, hplace⟩, rfl⟩))
    rw [remaining, hplace]
    rfl
  · next this iter hplace =>
    rw [hplace]
    split at h
    · cases h
      exact .inl ⟨_, .call, rfl⟩
    · next hdisabled =>
      cases h
      exact .inl ⟨_, .skip (Bool.eq_false_iff.mpr hdisabled), rfl⟩
  · next this iter hplace =>
    cases h
    rw [hplace]
    exact .inl ⟨_, .call, rfl⟩
  · next loop this iter hplace =>
    split at h
    · next hoverrides =>
      cases h
      exact .inr (.inl ⟨loop, this, iter, _, .overriding hplace hoverrides, rfl⟩)
    · next hplain =>
      rw [hplace]
      split at h
      · next hdisabled =>
        cases h
        exact .inl ⟨_, .refuse (by simpa using hdisabled), rfl⟩
      · cases h
        exact .inl ⟨_, .enter (Bool.eq_false_iff.mpr hplain), rfl⟩
  · next loop this iter hplace =>
    split at h
    · cases h
    · next protector henter =>
      cases h
      exact .inr (.inl ⟨loop, this, iter, _, .entered hplace henter, rfl⟩)
  · next loop this iter hplace =>
    cases h
    exact .inr (.inr (.inl ⟨loop, this, iter, hplace, rfl⟩))

theorem Reaches.remaining_eq {loop : PublishLoop} {this : Subscriber} {iter : List Subscriber}
    {protector : Subscriber → Protector Thread}
    (h : Reaches topics self thread call loop this iter protector) :
    remaining topics call =
      this :: remaining topics { call with place := .receiving loop this iter } := by
  cases h with
  | overriding hplace => simp only [remaining, hplace]; rfl
  | entered hplace => simp only [remaining, hplace]; rfl

theorem Reaches.uncounted_eq {loop : PublishLoop} {this : Subscriber} {iter : List Subscriber}
    {protector : Subscriber → Protector Thread}
    (h : Reaches topics self thread call loop this iter protector) : uncounted topics call = 0 := by
  cases h with
  | overriding hplace => simp only [uncounted, hplace]
  | entered hplace => simp only [uncounted, hplace]

/-- The innermost call goes on, or it returns behind its last subscriber. -/
theorem proceed_advances (h : self.proceed topics thread call outer = some next) :
    (∃ call' told, Advance topics self next thread call call' outer told) ∨
      remaining topics call = [] ∧ uncounted topics call = 0 ∧
        next = self.returns thread call outer := by
  rcases proceed_cases h with ⟨place, hshifts, rfl⟩ | ⟨loop, this, iter, protector, hreaches, rfl⟩ |
      ⟨loop, this, iter, hplace, rfl⟩ | ⟨hlast, ⟨loop, hplace⟩, rfl⟩
  · refine .inl ⟨{ call with place := place }, [],
      rfl, rfl, rfl, (List.append_nil _).symm, rfl, rfl, rfl, ?_, ?_⟩
    · rw [hshifts.uncounted_eq]
      rfl
    · exact fun chosen hready => hshifts.remaining_filter hready
  · refine .inl ⟨{ call with place := .receiving loop this iter },
      if topics.receives this then [this] else [], rfl, rfl, rfl, ?_, rfl, rfl, rfl, ?_, ?_⟩
    · simp only [moved, setCalls, receive]
      split <;> rfl
    · rw [hreaches.uncounted_eq]
      simp only [uncounted]
      split <;> rfl
    · intro chosen hready
      rw [hreaches.remaining_eq]
      cases hchosen : chosen this with
      | true => rw [if_pos (hready this hchosen).2, ← List.filter_append, List.singleton_append]
      | false =>
        rw [List.filter_cons_of_neg (by rw [hchosen]; nofun), ← List.filter_append]
        split <;> simp [hchosen]
  · refine .inl ⟨{ counted topics call this with place := .iterating loop iter }, [],
      rfl, rfl, rfl, (List.append_nil _).symm, rfl, rfl, rfl, ?_, ?_⟩
    · simp only [uncounted, counted, hplace]
      split <;> simp
    · intro chosen _
      simp only [remaining, counted, hplace, List.filter_nil, List.nil_append]
  · exact .inr ⟨hlast, by simp only [uncounted, hplace], rfl⟩

theorem publish_of_step {topic : Topic} {shallSendToNetwork : Bool}
    (hstep : self.step topics (.publish thread topic shallSendToNetwork) = some next) :
    next = self.publish topics thread topic shallSendToNetwork := by
  rw [step] at hstep
  split at hstep
  · exact (Option.some.inj hstep).symm
  · split at hstep
    · split at hstep
      · exact (Option.some.inj hstep).symm
      · cases hstep
    · cases hstep

theorem proceed_of_step (hstep : self.step topics (.proceed thread) = some next) :
    ∃ call outer, self.calls thread = call :: outer ∧
      self.proceed topics thread call outer = some next := by
  rw [step] at hstep
  split at hstep
  · cases hstep
  · next call outer hcalls => exact ⟨call, outer, hcalls, hstep⟩

theorem Numbered.step (h : self.Numbered) {action : PublishAction Thread Topic Subscriber}
    (hstep : self.step topics action = some next) : next.Numbered := by
  cases action with
  | publish thread topic shallSendToNetwork =>
    rw [publish_of_step hstep]
    exact h.publish
  | proceed thread =>
    obtain ⟨call, outer, hcalls, hproceed⟩ := proceed_of_step hstep
    rcases proceed_advances hproceed with ⟨call', told, hadvance⟩ | ⟨-, -, rfl⟩
    · exact hadvance.numbered hcalls h
    · exact h.returns hcalls
  | enable subscriber onOff =>
    cases hstep
    exact ⟨h.known, h.nested, h.told⟩

theorem Counted.step (h : self.Numbered) (hcounted : Counted topics self)
    {action : PublishAction Thread Topic Subscriber}
    (hstep : self.step topics action = some next) : Counted topics next := by
  cases action with
  | publish thread topic shallSendToNetwork =>
    rw [publish_of_step hstep]
    exact hcounted.publish h
  | proceed thread =>
    obtain ⟨call, outer, hcalls, hproceed⟩ := proceed_of_step hstep
    rcases proceed_advances hproceed with ⟨call', told, hadvance⟩ | ⟨-, hlast, rfl⟩
    · exact hadvance.counted hcalls h hcounted
    · exact hcounted.returns hcalls h hlast
  | enable subscriber onOff =>
    cases hstep
    exact ⟨hcounted.counting, hcounted.settled⟩

theorem Accounted.step {chosen : Subscriber → Bool} (h : self.Numbered)
    (hready : Ready topics self chosen) (haccounted : Accounted topics self chosen)
    {action : PublishAction Thread Topic Subscriber}
    (hstep : self.step topics action = some next) : Accounted topics next chosen := by
  cases action with
  | publish thread topic shallSendToNetwork =>
    rw [publish_of_step hstep]
    exact haccounted.publish h
  | proceed thread =>
    obtain ⟨call, outer, hcalls, hproceed⟩ := proceed_of_step hstep
    rcases proceed_advances hproceed with ⟨call', told, hadvance⟩ | ⟨hlast, -, rfl⟩
    · exact hadvance.accounted hcalls h hready haccounted
    · exact haccounted.returns h hcalls hlast
  | enable subscriber onOff =>
    cases hstep
    exact ⟨haccounted.pending, haccounted.finished⟩

/-- The action disables none of the chosen subscribers. -/
def Spares (chosen : Subscriber → Bool) : PublishAction Thread Topic Subscriber → Prop
  | .enable subscriber onOff => chosen subscriber = true → onOff = true
  | .publish .. | .proceed _ => True

theorem isEnabled_of_proceed (h : self.proceed topics thread call outer = some next) :
    next.isEnabled = self.isEnabled := by
  rcases proceed_cases h with ⟨_, -, rfl⟩ | ⟨_, _, _, _, -, rfl⟩ | ⟨_, _, _, -, rfl⟩ | ⟨-, -, rfl⟩
  all_goals rfl

theorem Ready.step {chosen : Subscriber → Bool} (hready : Ready topics self chosen)
    {action : PublishAction Thread Topic Subscriber} (hspares : Spares chosen action)
    (hstep : self.step topics action = some next) : Ready topics next chosen := by
  intro this hchosen
  refine ⟨?_, (hready this hchosen).2⟩
  cases action with
  | publish thread topic shallSendToNetwork =>
    rw [publish_of_step hstep]
    exact (hready this hchosen).1
  | proceed thread =>
    obtain ⟨call, outer, -, hproceed⟩ := proceed_of_step hstep
    rw [isEnabled_of_proceed hproceed]
    exact (hready this hchosen).1
  | enable subscriber onOff =>
    cases hstep
    show Function.update self.isEnabled subscriber onOff this = true
    by_cases hthis : this = subscriber
    · subst hthis
      rw [Function.update_self]
      exact hspares hchosen
    · rw [Function.update_of_ne hthis]
      exact (hready this hchosen).1

/-! ### Runs -/

section runs

variable {isEnabled : Subscriber → Bool} {actions : List (PublishAction Thread Topic Subscriber)}
  {final : Publishing Thread Topic Subscriber}

/-- Subscribers that stay enabled receive every message of their topic, each message once and in
the order of the list, whatever other threads and putters publish meanwhile. -/
theorem received_once {chosen : Subscriber → Bool}
    (hready : Ready topics ({ isEnabled := isEnabled } : Publishing Thread Topic Subscriber) chosen)
    (hspares : ∀ action ∈ actions, Spares chosen action)
    (hrun : run (step topics) { isEnabled := isEnabled } actions = some final) :
    Accounted topics final chosen := by
  have hkeeps : ∀ (publishing : Publishing Thread Topic Subscriber) action next,
      publishing.Numbered ∧ Ready topics publishing chosen ∧ Accounted topics publishing chosen →
        Spares chosen action → publishing.step topics action = some next →
          next.Numbered ∧ Ready topics next chosen ∧ Accounted topics next chosen := by
    rintro publishing action next ⟨h, hready, haccounted⟩ hspares hstep
    exact ⟨h.step hstep, hready.step hspares hstep, haccounted.step h hready hstep⟩
  exact (run_invariant_along hkeeps ⟨numbered_initial _, hready, nofun, nofun⟩
    (along_of_forall (fun action haction _ => hspares action haction) _) hrun).2.2

/-- A topic with two subscribers, another one with one of them, and a gateway. -/
def threeTopics : Topics Nat Nat where
  mySubscribers := fun
    | 0 => [20]
    | 1 => [10, 11]
    | _ => [12]
  onlyLocal _ := false
  defaultGatewayTopic := 0
  hasReceiver _ := true
  overridesPut _ := false

/-- The first subscriber publishes under another topic, and a second thread has to wait for it. -/
def publishedWithin : List (PublishAction Bool Nat Nat) :=
  [.publish true 1 true, .proceed true, .proceed true, .proceed true, .publish true 2 false] ++
    List.replicate 5 (.proceed true) ++ [.publish false 1 false, .proceed false, .proceed false] ++
    List.replicate 11 (.proceed true)

theorem received_once_publishedWithin : ∃ final,
    run (step threeTopics) { isEnabled := fun _ => true } publishedWithin = some final ∧
      final.receivers true 0 = [10, 11, 20] ∧ Accounted threeTopics final fun _ => true := by
  have hspares : ∀ action ∈ publishedWithin, Spares (fun _ => true) action := by
    rintro (_ | _ | ⟨subscriber, onOff⟩) hmem
    · trivial
    · trivial
    · simp [publishedWithin] at hmem
  exact ⟨_, rfl, by decide, received_once (fun _ _ => ⟨rfl, rfl⟩) hspares rfl⟩

end runs

end Publishing

end Rodos.Gateway
