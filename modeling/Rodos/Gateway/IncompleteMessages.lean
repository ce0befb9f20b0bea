import Rodos.Gateway.InterleavedRoundTrip

/-! One CAN id of which no telegram is lost, among others of which any are. A message that lacks its
last telegrams stays in progress, and the telegrams of the other ids stay parked behind it. -/
namespace Rodos.Gateway
open Library

/-- The reassembly after these telegrams, one by one. -/
def Reassembly.afterTelegrams (NOW : Nat → Int64) (self : Reassembly) (telegrams : List Telegram) :
    Reassembly :=
  telegrams.foldl (fun reassembly telegram => (reassembly.append NOW telegram).2) self

/-- Alone on the bus, these telegrams end within a message. -/
def LeavesOpen (NOW : Nat → Int64) (memory : LinkinterfaceCAN) (telegrams : List Telegram) : Prop :=
  (memory.construct.reassembly.afterTelegrams NOW telegrams).currentReceiveCANId ≠ 0

instance (NOW : Nat → Int64) (memory : LinkinterfaceCAN) (telegrams : List Telegram) :
    Decidable (LeavesOpen NOW memory telegrams) := inferInstanceAs (Decidable (_ ≠ _))

/-- In all that decides whether a telegram is taken and completes a message. -/
structure SameProgress (left right : Reassembly) : Prop where
  current : left.currentReceiveCANId = right.currentReceiveCANId
  sequenceCounter : left.currentReceiveCANId ≠ 0 → left.sequenceCounter = right.sequenceCounter
  bytesReceived : left.currentReceiveCANId ≠ 0 → left.bytesReceived = right.bytesReceived
  len : left.currentReceiveCANId ≠ 0 → left.currentMsg.getLen = right.currentMsg.getLen

namespace SameProgress

variable {left right : Reassembly} {NOW : Nat → Int64} {telegram : Telegram}

theorem of_idle (hleft : left.currentReceiveCANId = 0) (hright : right.currentReceiveCANId = 0) :
    SameProgress left right :=
  ⟨hleft.trans hright.symm, fun hbusy => absurd hleft hbusy, fun hbusy => absurd hleft hbusy,
    fun hbusy => absurd hleft hbusy⟩

theorem finishOrContinue (hcurrent : left.currentReceiveCANId = right.currentReceiveCANId)
    (hsequence : left.sequenceCounter = right.sequenceCounter)
    (hbytes : left.bytesReceived = right.bytesReceived)
    (hlen : left.currentMsg.getLen = right.currentMsg.getLen) :
    SameProgress left.finishOrContinue.2 right.finishOrContinue.2 := by
  unfold Reassembly.finishOrContinue
  rw [← hbytes, ← hlen]
  split
  · exact of_idle rfl rfl
  · refine ⟨hcurrent, fun _ => ?_, fun _ => rfl, fun _ => hlen⟩
    show left.sequenceCounter + 1 = right.sequenceCounter + 1
    rw [hsequence]

theorem storeData (hcurrent : left.currentReceiveCANId = right.currentReceiveCANId)
    (hsequence : left.sequenceCounter = right.sequenceCounter)
    (hbytes : left.bytesReceived = right.bytesReceived)
    (hlen : left.currentMsg.getLen = right.currentMsg.getLen) (userDataBegin : Nat) :
    SameProgress (left.storeData telegram userDataBegin).finishOrContinue.2
      (right.storeData telegram userDataBegin).finishOrContinue.2 := by
  apply finishOrContinue
  · exact hcurrent
  · exact hsequence
  · unfold Reassembly.storeData
    rw [hbytes]
  · rw [Reassembly.getLen_storeData, Reassembly.getLen_storeData, hlen]

theorem append (h : SameProgress left right) (NOW : Nat → Int64) (telegram : Telegram) :
    SameProgress (left.append NOW telegram).2 (right.append NOW telegram).2 := by
  by_cases hfirst : telegram.data 0 = 0
  · rw [Reassembly.append_first hfirst, Reassembly.append_first hfirst]
    apply storeData
    · show telegram.canID = telegram.canID
      rfl
    · show (0 : UInt8) = 0
      rfl
    · show (0 : UInt16) = 0
      rfl
    · rw [Reassembly.currentMsg_hand, Reassembly.currentMsg_hand, Reassembly.getLen_begin,
        Reassembly.getLen_begin]
  · have hiff : left.Continues telegram ↔ right.Continues telegram := by
      unfold Reassembly.Continues
      rw [← h.current]
      constructor
      · rintro ⟨hlater, hbusy, hid, hsequence⟩
        exact ⟨hlater, hbusy, hid, hsequence.trans (h.sequenceCounter hbusy)⟩
      · rintro ⟨hlater, hbusy, hid, hsequence⟩
        exact ⟨hlater, hbusy, hid, hsequence.trans (h.sequenceCounter hbusy).symm⟩
    by_cases hnext : left.Continues telegram
    · rw [Reassembly.append_next hnext, Reassembly.append_next (hiff.mp hnext)]
      have hbusy := hnext.2.1
      apply storeData
      · exact h.current
      · exact h.sequenceCounter hbusy
      · exact h.bytesReceived hbusy
      · exact h.len hbusy
    · rw [Reassembly.append_dropped hfirst hnext, Reassembly.append_dropped hfirst
        (mt hiff.mpr hnext)]
      exact ⟨h.current, h.sequenceCounter, h.bytesReceived, h.len⟩

end SameProgress

/-- The messages of one id are in order, with others delivered in between. -/
def InOrderAmong (messages : List Sent) (id : UInt32) (waiting : List Telegram)
    (reassembly : Reassembly) (delivered : List Reassembly) : Prop :=
  ∃ own, own.Sublist delivered ∧ InOrder messages id waiting reassembly own

theorem InOrderAmong.append {messages : List Sent} {id : UInt32} (NOW : Nat → Int64)
    (hvalid : ∀ sent ∈ messages, sent.outMsg.canID = id ∧ 0 < sent.outMsg.getLen.toNat) :
    Reception.KeptByTaking NOW (InOrderAmong messages id) := by
  intro before telegram after reassembly delivered h hbefore hwants
  obtain ⟨own, hsublist, horder⟩ := h
  have hothers := hbefore.canID_ne hwants
  by_cases hid : telegram.canID = id
  · subst hid
    have hpair : reassembly.append NOW telegram =
        ((reassembly.append NOW telegram).1, (reassembly.append NOW telegram).2) := rfl
    refine ⟨_, ?_, (horder.own NOW hvalid hothers hpair).1⟩
    split
    · exact hsublist.append_right _
    · exact hsublist
  · have hcurrent := Reassembly.append_current_cases NOW hwants
    refine ⟨own, ?_, horder.other hothers hid hwants hcurrent rfl⟩
    split
    · exact hsublist.trans (List.sublist_append_left _ _)
    · exact hsublist

/-- Every id is as far as its telegrams alone would bring it, and the message in progress is the one
that those of its id have left open. -/
structure Separate (NOW : Nat → Int64) (memory : LinkinterfaceCAN) (all waiting : List Telegram)
    (reassembly : Reassembly) (delivered : List Reassembly) : Prop where
  conserved : ∀ id, ofId id (reassembly.handed ++ waiting) = ofId id all
  progress : ∀ id, id ≠ 0 →
    if reassembly.currentReceiveCANId = id then
      SameProgress (memory.construct.reassembly.afterTelegrams NOW (ofId id reassembly.handed))
        reassembly
    else ¬ LeavesOpen NOW memory (ofId id reassembly.handed)

theorem Separate.append (NOW : Nat → Int64) (memory : LinkinterfaceCAN) (all : List Telegram) :
    Reception.KeptByTaking NOW (Separate NOW memory all) := by
  intro before telegram after reassembly delivered h hbefore hwants
  have hhanded := reassembly.handed_append NOW telegram
  have hcases := Reassembly.append_current_cases NOW hwants
  refine ⟨fun id => ?_, fun id hreal => ?_⟩
  · rw [hhanded, List.append_assoc, List.singleton_append, ← h.conserved id, ofId_append,
      ofId_append, ofId_taken (hbefore.canID_ne hwants)]
    have hfirst := @ofId_taken id [] (before ++ after) telegram (fun _ hmem => by cases hmem)
    rw [List.nil_append, List.nil_append] at hfirst
    rw [hfirst]
  · have hprogress := h.progress id hreal
    rw [hhanded, ofId_append]
    by_cases hid : telegram.canID = id
    · have hone : ofId id [telegram] = [telegram] := by simp [ofId, hid]
      have hsame : SameProgress (memory.construct.reassembly.afterTelegrams NOW
          (ofId id reassembly.handed)) reassembly := by
        split at hprogress
        · exact hprogress
        · next hother =>
          have hidle : reassembly.currentReceiveCANId = 0 :=
            hwants.resolve_left fun hcurrent => hother (hcurrent.symm.trans hid)
          exact .of_idle (not_not.mp hprogress) hidle
      have hnext := hsame.append NOW telegram
      have hafter : memory.construct.reassembly.afterTelegrams NOW
          (ofId id reassembly.handed ++ [telegram]) =
          ((memory.construct.reassembly.afterTelegrams NOW
            (ofId id reassembly.handed)).append NOW telegram).2 := List.foldl_append
      rw [hone, LeavesOpen, hafter]
      split
      · exact hnext
      · next hother =>
        rw [not_not, hnext.current]
        exact hcases.resolve_right fun hbusy => hother (hbusy.trans hid)
    · have hnone : ofId id [telegram] = [] := by simp [ofId, hid]
      have hbefore : reassembly.currentReceiveCANId ≠ id := by
        rintro hcurrent
        cases hwants with
        | inl hsame => exact hid (hsame.trans hcurrent)
        | inr hidle => exact hreal (hcurrent.symm.trans hidle)
      have hnow : (reassembly.append NOW telegram).2.currentReceiveCANId ≠ id := by
        rintro hcurrent
        cases hcases with
        | inl hidle => exact hreal (hcurrent.symm.trans hidle)
        | inr hsame => exact hid (hsame.symm.trans hcurrent)
      rw [if_neg hbefore] at hprogress
      rw [if_neg hnow, hnone, List.append_nil]
      exact hprogress

/-- The link gets stuck in a message only when the telegrams of its id leave it open. -/
theorem Separate.leavesOpen {NOW : Nat → Int64} {memory : LinkinterfaceCAN}
    {all parked : List Telegram} {reassembly : Reassembly} {delivered : List Reassembly}
    (h : Separate NOW memory all parked reassembly delivered)
    (hparked : Unwanted reassembly parked) (hbusy : reassembly.currentReceiveCANId ≠ 0) :
    LeavesOpen NOW memory (ofId reassembly.currentReceiveCANId all) := by
  have hprogress := h.progress reassembly.currentReceiveCANId hbusy
  rw [if_pos rfl] at hprogress
  have hnone : ofId reassembly.currentReceiveCANId parked = [] := by
    rw [ofId, List.filter_eq_nil_iff]
    intro telegram hmem
    rw [decide_eq_true_eq]
    exact fun hid => hparked telegram hmem (Or.inl hid)
  have hconserved := h.conserved reassembly.currentReceiveCANId
  rw [ofId_append, hnone, List.append_nil] at hconserved
  rw [← hconserved, LeavesOpen, hprogress.current]
  exact hbusy

/-- The messages of one id have been delivered in order, all of them unless the link waits for the
rest of a message of another id, whose telegrams have not brought it. -/
structure DeliveredUnlessBlocked (NOW : Nat → Int64) (memory : LinkinterfaceCAN)
    (messages : List Sent) (id : UInt32) (all : List Telegram) (reassembly : Reassembly)
    (delivered : List Reassembly) (done rest : List Sent) (received : List Reassembly) :
    Prop where
  split : messages = done ++ rest
  sublist : received.Sublist delivered
  received : List.Forall₂ (fun sent received => sent.outMsg.ReceivedAs received.currentMsg) done
    received
  blocked : rest ≠ [] → reassembly.currentReceiveCANId ≠ id ∧
    reassembly.currentReceiveCANId ≠ 0 ∧
    LeavesOpen NOW memory (ofId reassembly.currentReceiveCANId all)

theorem InOrderAmong.settled {NOW : Nat → Int64} {memory : LinkinterfaceCAN}
    {messages : List Sent} {id : UInt32} {all parked : List Telegram} {reassembly : Reassembly}
    {delivered : List Reassembly}
    (hvalid : ∀ sent ∈ messages, sent.outMsg.canID = id ∧ 0 < sent.outMsg.getLen.toNat)
    (horder : InOrderAmong messages id parked reassembly delivered)
    (hseparate : Separate NOW memory all parked reassembly delivered)
    (hparked : Unwanted reassembly parked) :
    ∃ done rest received, DeliveredUnlessBlocked NOW memory messages id all reassembly delivered
      done rest received := by
  obtain ⟨own, hsublist, horder⟩ := horder
  have hreceived : (deliveredWithId id own).Sublist delivered :=
    List.filter_sublist.trans hsublist
  by_cases hidle : reassembly.currentReceiveCANId = 0
  · rw [hparked.eq_nil hidle] at horder
    have hall := horder.all_delivered (fun sent hmem => (hvalid sent hmem).2) hidle
    exact ⟨messages, [], _, (List.append_nil _).symm, hreceived, hall,
      fun hrest => absurd rfl hrest⟩
  · have hother : reassembly.currentReceiveCANId ≠ id := by
      intro hid
      exact horder.not_busy hparked (hid ▸ hidle) hid
    obtain ⟨done, rest, _, hmessages, hdone, _⟩ := horder
    exact ⟨done, rest, _, hmessages, hreceived, hdone,
      fun _ => ⟨hother, hidle, hseparate.leavesOpen hparked hidle⟩⟩

theorem Reception.KeptByTaking.and {NOW : Nat → Int64}
    {first second : List Telegram → Reassembly → List Reassembly → Prop}
    (hfirst : KeptByTaking NOW first) (hsecond : KeptByTaking NOW second) :
    KeptByTaking NOW fun waiting reassembly delivered =>
      first waiting reassembly delivered ∧ second waiting reassembly delivered := by
  intro before telegram after reassembly delivered h hbefore hwants
  exact ⟨hfirst before telegram after reassembly delivered h.1 hbefore hwants,
    hsecond before telegram after reassembly delivered h.2 hbefore hwants⟩

namespace Session

variable {NOW : Nat → Int64} {memory : LinkinterfaceCAN}

end Session

end Rodos.Gateway
