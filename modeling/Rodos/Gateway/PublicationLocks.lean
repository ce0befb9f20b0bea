import Rodos.Gateway.Publication

/-! The semaphores that `Subscriber::put` uses: who is in a putter, and who waits for whom. -/
namespace Rodos.Gateway
open Library

variable {Thread Topic Subscriber : Type}

def PublishAt.isReceiving [DecidableEq Subscriber] (place : PublishAt Subscriber)
    (this : Subscriber) : Bool :=
  match place with
  | .receiving _ other _ => other == this
  | .iterating .. | .calling .. | .entering .. => false

namespace Publishing

variable {topics : Topics Topic Subscriber} {self next : Publishing Thread Topic Subscriber}
  {thread : Thread} {call : PublishCall Topic Subscriber}
  {outer : List (PublishCall Topic Subscriber)}

theorem Shifts.isReceiving_eq [DecidableEq Subscriber] {place : PublishAt Subscriber}
    (h : Shifts topics self call call.place place) (this : Subscriber) :
    place.isReceiving this = call.place.isReceiving this := by
  generalize call.place = before at h
  cases h <;> rfl

section exclusion

variable [DecidableEq Thread]

theorem enter_cases {protector after : Protector Thread} (h : protector.enter thread = some after) :
    after.owner = some thread ∧
      (protector.owner = none ∧ after.ownerEnterCnt = 1 ∨
        protector.owner = some thread ∧ after.ownerEnterCnt = protector.ownerEnterCnt + 1) := by
  unfold Protector.enter at h
  split at h
  · next hfree =>
    cases h
    exact ⟨rfl, .inl ⟨hfree, rfl⟩⟩
  · next owner howner =>
    split at h
    · next hsame =>
      cases h
      rw [hsame] at howner
      exact ⟨howner, .inr ⟨howner, rfl⟩⟩
    · cases h

theorem leave_cases {protector : Protector Thread} (howner : protector.owner = some thread) :
    protector.ownerEnterCnt ≤ 1 ∧ protector.leave thread = {} ∨
      1 < protector.ownerEnterCnt ∧ protector.leave thread =
        { protector with ownerEnterCnt := protector.ownerEnterCnt - 1 } := by
  rw [Protector.leave, if_pos howner]
  split
  · exact .inl ⟨by omega, rfl⟩
  · exact .inr ⟨by omega, rfl⟩

theorem calls_moved_same (place : PublishAt Subscriber) :
    (self.moved thread call outer place).calls thread = { call with place := place } :: outer :=
  Function.update_self _ _ _

theorem calls_moved_other (place : PublishAt Subscriber) {other : Thread}
    (hother : other ≠ thread) :
    (self.moved thread call outer place).calls other = self.calls other :=
  Function.update_of_ne hother _ _

variable [DecidableEq Subscriber]

/-- How many of the calls are in the putter of the subscriber. -/
def holds (calls : List (PublishCall Topic Subscriber)) (this : Subscriber) : Nat :=
  calls.countP fun call => call.place.isReceiving this

theorem holds_cons (this : Subscriber) :
    holds (call :: outer) this =
      holds outer this + if call.place.isReceiving this = true then 1 else 0 :=
  List.countP_cons

/-- What a semaphore counts are the calls of its owner in the putter. -/
structure Locked (topics : Topics Topic Subscriber)
    (publishing : Publishing Thread Topic Subscriber) : Prop where
  held : ∀ this, topics.overridesPut this = false → ∀ thread,
    holds (publishing.calls thread) this =
      if (publishing.protector this).owner = some thread then
        (publishing.protector this).ownerEnterCnt
      else 0
  owned : ∀ this, (publishing.protector this).owner ≠ none →
    0 < (publishing.protector this).ownerEnterCnt

/-- The protectors stay, and each thread is in the same putters as before. -/
theorem Locked.of_holds (h : Locked topics self) (hprotector : next.protector = self.protector)
    (hholds : ∀ this, topics.overridesPut this = false → ∀ other,
      holds (next.calls other) this = holds (self.calls other) this) :
    Locked topics next := by
  refine ⟨fun this hplain other => ?_, fun this => ?_⟩
  · rw [hholds this hplain, hprotector]
    exact h.held this hplain other
  · rw [hprotector]
    exact h.owned this

/-- The innermost call stays out of the putter, or inside it. -/
theorem holds_moved (hcalls : self.calls thread = call :: outer) {place : PublishAt Subscriber}
    {this : Subscriber} (hsame : place.isReceiving this = call.place.isReceiving this)
    (call' : PublishCall Topic Subscriber) (other : Thread) :
    holds ((self.moved thread call' outer place).calls other) this =
      holds (self.calls other) this := by
  by_cases hother : other = thread
  · subst hother
    rw [calls_moved_same, hcalls, holds_cons, holds_cons, hsame]
  · rw [calls_moved_other place hother]

theorem isReceiving_receiving (loop : PublishLoop) (this other : Subscriber)
    (iter : List Subscriber) :
    (PublishAt.receiving loop this iter).isReceiving other = true ↔ this = other :=
  beq_iff_eq

theorem isReceiving_receiving_of_ne (loop : PublishLoop) {this other : Subscriber}
    (hne : other ≠ this) (iter : List Subscriber) :
    (PublishAt.receiving loop this iter).isReceiving other = false :=
  beq_eq_false_iff_ne.mpr hne.symm

/-- The innermost call enters or leaves the putter of one subscriber. -/
theorem Locked.moved (h : Locked topics self) (hcalls : self.calls thread = call :: outer)
    {place : PublishAt Subscriber} {this : Subscriber} {protector : Protector Thread}
    {received : List (Subscriber × Thread × Nat)} {call' : PublishCall Topic Subscriber}
    (hsame : ∀ other ≠ this, place.isReceiving other = call.place.isReceiving other)
    (hheld : topics.overridesPut this = false → ∀ other,
      holds ((self.moved thread call' outer place).calls other) this =
        if protector.owner = some other then protector.ownerEnterCnt else 0)
    (howned : protector.owner ≠ none → 0 < protector.ownerEnterCnt) :
    Locked topics ({ self with
      protector := Function.update self.protector this protector
      received := received }.moved thread call' outer place) := by
  constructor
  case held =>
    intro other hplain thread'
    show holds ((self.moved thread call' outer place).calls thread') other =
      if (Function.update self.protector this protector other).owner = some thread' then
        (Function.update self.protector this protector other).ownerEnterCnt
      else 0
    by_cases hother : other = this
    · subst hother
      rw [Function.update_self]
      exact hheld hplain thread'
    · rw [Function.update_of_ne hother, holds_moved hcalls (hsame other hother)]
      exact h.held other hplain thread'
  case owned =>
    intro other
    show (Function.update self.protector this protector other).owner ≠ none →
      0 < (Function.update self.protector this protector other).ownerEnterCnt
    by_cases hother : other = this
    · subst hother
      rw [Function.update_self]
      exact howned
    · rw [Function.update_of_ne hother]
      exact h.owned other

theorem Locked.entered (h : Locked topics self) (hcalls : self.calls thread = call :: outer)
    {loop : PublishLoop} {this : Subscriber} {iter : List Subscriber}
    (hplace : call.place = .entering loop this iter) {protector : Protector Thread}
    (henter : (self.protector this).enter thread = some protector)
    {received : List (Subscriber × Thread × Nat)} :
    Locked topics ({ self with
      protector := Function.update self.protector this protector
      received := received }.moved thread call outer (.receiving loop this iter)) := by
  obtain ⟨howner, hcases⟩ := enter_cases henter
  apply h.moved hcalls
  · intro other hother
    rw [isReceiving_receiving_of_ne loop hother, hplace]
    rfl
  · intro hplain other
    have hheld := h.held this hplain other
    by_cases hother : other = thread
    · subst hother
      have houter : holds (self.calls other) this = holds outer this := by
        rw [hcalls, holds_cons, hplace]
        rfl
      rw [calls_moved_same, holds_cons, if_pos ((isReceiving_receiving ..).mpr rfl), ← houter,
        hheld, if_pos howner]
      rcases hcases with ⟨hfree, hone⟩ | ⟨hmine, hmore⟩
      · rw [hfree, if_neg nofun, hone]
      · rw [if_pos hmine, hmore]
    · rw [calls_moved_other _ hother, hheld, howner]
      rw [if_neg fun heq => hother (Option.some.inj heq).symm]
      rcases hcases with ⟨hfree, -⟩ | ⟨hmine, -⟩
      · rw [hfree, if_neg nofun]
      · rw [hmine, if_neg fun heq => hother (Option.some.inj heq).symm]
  · intro _
    rcases hcases with ⟨-, hone⟩ | ⟨-, hmore⟩ <;> omega

theorem Locked.left (h : Locked topics self) (hcalls : self.calls thread = call :: outer)
    {loop : PublishLoop} {this : Subscriber} {iter : List Subscriber}
    (hplace : call.place = .receiving loop this iter) (hplain : topics.overridesPut this = false)
    (call' : PublishCall Topic Subscriber) :
    Locked topics ({ self with
      protector := Function.update self.protector this ((self.protector this).leave thread)
      }.moved thread call' outer (.iterating loop iter)) := by
  have hheld := h.held this hplain
  have hinside : holds (self.calls thread) this = holds outer this + 1 := by
    rw [hcalls, holds_cons, hplace, if_pos ((isReceiving_receiving ..).mpr rfl)]
  have howner : (self.protector this).owner = some thread := by
    by_contra hnot
    have hnone := hheld thread
    rw [if_neg hnot, hinside] at hnone
    cases hnone
  have hcount : (self.protector this).ownerEnterCnt = holds outer this + 1 := by
    have hmine := hheld thread
    rwa [if_pos howner, hinside, eq_comm] at hmine
  have hleave := leave_cases howner
  apply h.moved hcalls
  · intro other hother
    rw [hplace, isReceiving_receiving_of_ne loop hother]
    rfl
  · intro _ other
    by_cases hother : other = thread
    · subst hother
      rw [calls_moved_same, holds_cons, if_neg (by exact nofun), Nat.add_zero]
      rcases hleave with ⟨hlast, heq⟩ | ⟨hmore, heq⟩
      · rw [heq, if_neg nofun]
        omega
      · rw [heq, if_pos howner]
        dsimp only
        omega
    · rw [calls_moved_other _ hother, hheld other, howner,
        if_neg fun heq => hother (Option.some.inj heq).symm]
      rcases hleave with ⟨-, heq⟩ | ⟨-, heq⟩
      · rw [heq, if_neg nofun]
      · rw [heq, howner, if_neg fun heq => hother (Option.some.inj heq).symm]
  · rcases hleave with ⟨-, heq⟩ | ⟨hmore, heq⟩
    · rw [heq]
      exact fun hne => absurd rfl hne
    · rw [heq]
      exact fun _ => Nat.sub_pos_of_lt hmore

theorem Locked.proceed (h : Locked topics self) (hcalls : self.calls thread = call :: outer)
    (hproceed : self.proceed topics thread call outer = some next) : Locked topics next := by
  rcases proceed_cases hproceed with ⟨place, hshifts, rfl⟩ |
      ⟨loop, this, iter, protector, hreaches, rfl⟩ | ⟨loop, this, iter, hplace, rfl⟩ |
      ⟨-, ⟨loop, hplace⟩, rfl⟩
  · exact h.of_holds rfl fun this _ other =>
      holds_moved hcalls (hshifts.isReceiving_eq this) _ other
  · cases hreaches with
    | overriding hplace hoverrides =>
      refine h.of_holds rfl fun other hplain thread' => ?_
      have hne : other ≠ this := by
        rintro rfl
        rw [hoverrides] at hplain
        cases hplain
      have hsame : (PublishAt.receiving loop this iter).isReceiving other =
          call.place.isReceiving other := by
        rw [isReceiving_receiving_of_ne loop hne, hplace]
        rfl
      exact holds_moved hcalls hsame call thread'
    | entered hplace henter => exact h.entered hcalls hplace henter
  · unfold released
    split
    · next hoverrides =>
      refine h.of_holds rfl fun other hplain thread' => ?_
      have hne : other ≠ this := by
        rintro rfl
        rw [hoverrides] at hplain
        cases hplain
      have hsame : (PublishAt.iterating loop iter).isReceiving other =
          call.place.isReceiving other := by
        rw [hplace, isReceiving_receiving_of_ne loop hne]
        rfl
      exact holds_moved hcalls hsame _ thread'
    · next hplain => exact h.left hcalls hplace (Bool.eq_false_iff.mpr hplain) _
  · refine h.of_holds rfl fun this _ other => ?_
    by_cases hother : other = thread
    · subst hother
      rw [hcalls, holds_cons, hplace]
      simp [returns, setCalls, PublishAt.isReceiving]
    · simp [returns, setCalls, hother]

theorem Locked.step (h : Locked topics self) {action : PublishAction Thread Topic Subscriber}
    (hstep : self.step topics action = some next) : Locked topics next := by
  cases action with
  | publish thread topic shallSendToNetwork =>
    rw [publish_of_step hstep]
    refine h.of_holds rfl fun this _ other => ?_
    by_cases hother : other = thread
    · subst hother
      simp [publish, setCalls, holds_cons, PublishAt.isReceiving]
    · simp [publish, setCalls, hother]
  | proceed thread =>
    obtain ⟨call, outer, hcalls, hproceed⟩ := proceed_of_step hstep
    exact h.proceed hcalls hproceed
  | enable subscriber onOff =>
    cases hstep
    exact ⟨h.held, h.owned⟩

/-- A thread that is in the putter is the owner of the semaphore. -/
theorem Locked.owner_eq (h : Locked topics self) {this : Subscriber}
    (hplain : topics.overridesPut this = false)
    (hinside : ∃ call ∈ self.calls thread, call.place.isReceiving this = true) :
    (self.protector this).owner = some thread := by
  have hpositive : 0 < holds (self.calls thread) this := by
    obtain ⟨call, hcall, hreceiving⟩ := hinside
    exact List.countP_pos_iff.mpr ⟨call, hcall, hreceiving⟩
  by_contra hnot
  rw [h.held this hplain thread, if_neg hnot] at hpositive
  exact Nat.lt_irrefl 0 hpositive

end exclusion

/-! ### Waiting -/

section waiting

/-- The putter of the outer call publishes to subscribers of a lower rank only. -/
def Below (topics : Topics Topic Subscriber) (rank : Subscriber → Nat)
    (inner outer : PublishCall Topic Subscriber) : Prop :=
  ∃ loop this iter, outer.place = .receiving loop this iter ∧
    ∀ target ∈ topics.targets inner.topic inner.shallSendToNetwork, rank target < rank this

/-- The subscriber that the call is at, and those before it. -/
def concerned (topics : Topics Topic Subscriber) (call : PublishCall Topic Subscriber) :
    List Subscriber :=
  match call.place with
  | .receiving _ this _ => this :: remaining topics call
  | .iterating .. | .calling .. | .entering .. => remaining topics call

structure Ranked (topics : Topics Topic Subscriber) (rank : Subscriber → Nat)
    (publishing : Publishing Thread Topic Subscriber) : Prop where
  below : ∀ thread, (publishing.calls thread).Pairwise (Below topics rank)
  within : ∀ thread, ∀ call ∈ publishing.calls thread,
    concerned topics call ⊆ topics.targets call.topic call.shallSendToNetwork
  plain : ∀ thread, ∀ call ∈ publishing.calls thread, ∀ loop this iter,
    call.place = .entering loop this iter → topics.overridesPut this = false

/-- A putter publishes only what goes to subscribers of a lower rank than its own. -/
def Descends (topics : Topics Topic Subscriber) (rank : Subscriber → Nat)
    (publishing : Publishing Thread Topic Subscriber) :
    PublishAction Thread Topic Subscriber → Prop
  | .publish thread topic shallSendToNetwork =>
    ∀ call ∈ (publishing.calls thread).head?, ∀ loop this iter,
      call.place = .receiving loop this iter →
        ∀ target ∈ topics.targets topic shallSendToNetwork, rank target < rank this
  | .proceed _ | .enable .. => True

variable {rank : Subscriber → Nat}

theorem Shifts.concerned_subset {place : PublishAt Subscriber}
    (h : Shifts topics self call call.place place) :
    concerned topics { call with place := place } ⊆ concerned topics call := by
  generalize hplace : call.place = before at h
  simp only [concerned, remaining, hplace]
  cases h with
  | forward hforwarded => rw [hforwarded]; simp
  | skip => simp
  | call => simp
  | refuse => simp
  | enter => simp

variable [DecidableEq Thread]

/-- The innermost call goes on within its targets. -/
theorem Ranked.advance (h : Ranked topics rank self)
    (hcalls : self.calls thread = call :: outer) {call' : PublishCall Topic Subscriber}
    (hnext : next.calls = Function.update self.calls thread (call' :: outer))
    (htopic : call'.topic = call.topic)
    (hnetwork : call'.shallSendToNetwork = call.shallSendToNetwork)
    (hconcerned : concerned topics call' ⊆ concerned topics call)
    (hplain : ∀ loop this iter, call'.place = .entering loop this iter →
      topics.overridesPut this = false) : Ranked topics rank next := by
  have hmem : call ∈ self.calls thread := by rw [hcalls]; exact List.mem_cons_self
  have hcases : ∀ other, ∀ call'' ∈ next.calls other,
      other = thread ∧ call'' = call' ∨ call'' ∈ self.calls other := by
    intro other call'' hcall
    rw [hnext] at hcall
    by_cases hother : other = thread
    · subst hother
      rw [Function.update_self] at hcall
      rw [hcalls]
      rcases List.mem_cons.mp hcall with heq | hcall
      · exact .inl ⟨rfl, heq⟩
      · exact .inr (List.mem_cons_of_mem _ hcall)
    · rw [Function.update_of_ne hother] at hcall
      exact .inr hcall
  constructor
  case below =>
    intro other
    rw [hnext]
    by_cases hother : other = thread
    · subst hother
      have hbelow := h.below other
      rw [hcalls, List.pairwise_cons] at hbelow
      rw [Function.update_self, List.pairwise_cons]
      refine ⟨fun call'' hcall => ?_, hbelow.2⟩
      rw [Below, htopic, hnetwork]
      exact hbelow.1 call'' hcall
    · rw [Function.update_of_ne hother]
      exact h.below other
  case within =>
    intro other call'' hcall
    rcases hcases other call'' hcall with ⟨rfl, rfl⟩ | hcall
    · rw [htopic, hnetwork]
      exact List.Subset.trans hconcerned (h.within other call hmem)
    · exact h.within other call'' hcall
  case plain =>
    intro other call'' hcall
    rcases hcases other call'' hcall with ⟨rfl, rfl⟩ | hcall
    · exact hplain
    · exact h.plain other call'' hcall

variable [DecidableEq Subscriber]

theorem Ranked.proceed (h : Ranked topics rank self) (hcalls : self.calls thread = call :: outer)
    (hproceed : self.proceed topics thread call outer = some next) : Ranked topics rank next := by
  rcases proceed_cases hproceed with ⟨place, hshifts, rfl⟩ |
      ⟨loop, this, iter, protector, hreaches, rfl⟩ | ⟨loop, this, iter, hplace, rfl⟩ |
      ⟨-, -, rfl⟩
  · refine h.advance hcalls rfl rfl rfl hshifts.concerned_subset fun loop this iter hplace => ?_
    dsimp only at hplace
    subst hplace
    generalize call.place = before at hshifts
    cases hshifts with
    | enter hplain => exact hplain
  · refine h.advance hcalls rfl rfl rfl ?_ nofun
    have hremaining := hreaches.remaining_eq
    cases hreaches with
    | overriding hplace => simp [concerned, hplace, hremaining]
    | entered hplace => simp [concerned, hplace, hremaining]
  · refine h.advance hcalls rfl rfl rfl ?_ nofun
    simp [concerned, remaining, counted, hplace]
  · have hcases : ∀ other, (self.returns thread call outer).calls other = self.calls other ∨
        other = thread ∧ (self.returns thread call outer).calls other = outer := by
      intro other
      by_cases hother : other = thread
      · subst hother
        exact .inr ⟨rfl, by simp [returns, setCalls]⟩
      · exact .inl (by simp [returns, setCalls, hother])
    have hsub : ∀ other, (self.returns thread call outer).calls other ⊆ self.calls other := by
      intro other
      rcases hcases other with heq | ⟨rfl, heq⟩
      · rw [heq]
        exact List.Subset.refl _
      · rw [heq, hcalls]
        exact List.subset_cons_self _ _
    refine ⟨fun other => ?_, fun other call'' hcall => h.within other call'' (hsub other hcall),
      fun other call'' hcall => h.plain other call'' (hsub other hcall)⟩
    rcases hcases other with heq | ⟨rfl, heq⟩
    · rw [heq]
      exact h.below other
    · have hbelow := h.below other
      rw [hcalls, List.pairwise_cons] at hbelow
      rw [heq]
      exact hbelow.2

theorem receiving_of_publish {topic : Topic} {shallSendToNetwork : Bool}
    (hcalls : self.calls thread = call :: outer)
    (hstep : self.step topics (.publish thread topic shallSendToNetwork) = some next) :
    ∃ loop this iter, call.place = .receiving loop this iter := by
  rw [Publishing.step, hcalls] at hstep
  dsimp only at hstep
  split at hstep
  · next loop this iter hplace => exact ⟨loop, this, iter, hplace⟩
  · cases hstep

/-- The subscribers of a new call rank below every putter that it is called from. -/
theorem Ranked.publish (h : Ranked topics rank self) {topic : Topic} {shallSendToNetwork : Bool}
    (hstep : self.step topics (.publish thread topic shallSendToNetwork) = some next)
    (hdescends : Descends topics rank self (.publish thread topic shallSendToNetwork)) :
    Ranked topics rank next := by
  have hbelow : ∀ outer ∈ self.calls thread, ∃ loop this iter,
      outer.place = .receiving loop this iter ∧
        ∀ target ∈ topics.targets topic shallSendToNetwork, rank target < rank this := by
    cases hcalls : self.calls thread with
    | nil => exact fun _ houter => absurd houter List.not_mem_nil
    | cons call outer =>
      obtain ⟨loop, this, iter, hplace⟩ := receiving_of_publish hcalls hstep
      have hrank := hdescends call (by rw [hcalls]; rfl) loop this iter hplace
      rintro other (_ | ⟨_, hother⟩)
      · exact ⟨loop, this, iter, hplace, hrank⟩
      · have hpairs := h.below thread
        rw [hcalls, List.pairwise_cons] at hpairs
        obtain ⟨loop', this', iter', hplace', hlower⟩ := hpairs.1 other hother
        have hthis : this ∈ topics.targets call.topic call.shallSendToNetwork := by
          refine h.within thread call (by rw [hcalls]; exact List.mem_cons_self) ?_
          simp [concerned, hplace]
        exact ⟨loop', this', iter', hplace', fun target htarget =>
          Nat.lt_trans (hrank target htarget) (hlower this hthis)⟩
  rw [publish_of_step hstep]
  constructor
  case below =>
    intro other
    by_cases hother : other = thread
    · subst hother
      simp only [Publishing.publish, setCalls, Function.update_self, List.pairwise_cons]
      exact ⟨hbelow, h.below other⟩
    · simpa [Publishing.publish, setCalls, hother] using h.below other
  case within =>
    intro other call'' hcall
    rcases mem_calls_publish.mp hcall with ⟨rfl, rfl⟩ | hcall
    · exact List.Subset.refl _
    · exact h.within other call'' hcall
  case plain =>
    intro other call'' hcall
    rcases mem_calls_publish.mp hcall with ⟨rfl, rfl⟩ | hcall
    · intro loop this iter hplace
      cases hplace
    · exact h.plain other call'' hcall

theorem Ranked.step (h : Ranked topics rank self)
    {action : PublishAction Thread Topic Subscriber} (hdescends : Descends topics rank self action)
    (hstep : self.step topics action = some next) : Ranked topics rank next := by
  cases action with
  | publish thread topic shallSendToNetwork => exact h.publish hstep hdescends
  | proceed thread =>
    obtain ⟨call, outer, hcalls, hproceed⟩ := proceed_of_step hstep
    exact h.proceed hcalls hproceed
  | enable subscriber onOff =>
    cases hstep
    exact ⟨h.below, h.within, h.plain⟩

end waiting

end Publishing

end Rodos.Gateway
