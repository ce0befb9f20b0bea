import Rodos.Gateway.WaitingTelegrams

/-! Any number of CAN ids, no telegram lost, and room for all that have to be parked. -/
namespace Rodos.Gateway
open Library

def ofId (id : UInt32) (telegrams : List Telegram) : List Telegram :=
  telegrams.filter fun telegram => telegram.canID = id

def deliveredWithId (id : UInt32) (delivered : List Reassembly) : List Reassembly :=
  delivered.filter fun received => received.currentMsg.canID = id

/-- The messages of one id have been delivered in order up to some message, of which the first
telegrams are stored; the telegrams behind those still wait, in order. -/
def InOrder (messages : List Sent) (id : UInt32) (waiting : List Telegram)
    (reassembly : Reassembly) (delivered : List Reassembly) : Prop :=
  ∃ done rest number, messages = done ++ rest ∧
    List.Forall₂ (fun sent received => sent.outMsg.ReceivedAs received.currentMsg) done
      (deliveredWithId id delivered) ∧
    List.Forall₂ Telegram.SameOnBus ((rest.flatMap Sent.written).drop number)
      (ofId id waiting) ∧
    if reassembly.currentReceiveCANId = id ∧ id ≠ 0 then
      0 < number ∧ ∃ current later, rest = current :: later ∧
        reassembly.HasStored current.outMsg number
    else number = 0

/-- The messages of each id are valid for it. -/
def Valid (messages : UInt32 → List Sent) : Prop :=
  ∀ id, ∀ sent ∈ messages id, sent.outMsg.canID = id ∧ 0 < sent.outMsg.getLen.toNat

theorem ofId_append (id : UInt32) (before after : List Telegram) :
    ofId id (before ++ after) = ofId id before ++ ofId id after :=
  List.filter_append ..

theorem ofId_taken {id : UInt32} {before after : List Telegram} {telegram : Telegram}
    (hbefore : ∀ earlier ∈ before, earlier.canID ≠ telegram.canID) :
    ofId id (before ++ telegram :: after) =
      if telegram.canID = id then telegram :: ofId id (before ++ after)
      else ofId id (before ++ after) := by
  rw [ofId_append, ofId_append]
  by_cases hid : telegram.canID = id
  · have hnone : ofId id before = [] := by
      rw [ofId, List.filter_eq_nil_iff]
      intro earlier hearlier
      rw [← hid, decide_eq_true_eq]
      exact hbefore earlier hearlier
    rw [if_pos hid, hnone, List.nil_append, List.nil_append]
    simp [ofId, hid]
  · rw [if_neg hid]
    simp [ofId, hid]

/-- Messages of other ids are not touched by a telegram. -/
theorem InOrder.other {messages : List Sent} {id : UInt32} {before after : List Telegram}
    {telegram : Telegram} {reassembly next : Reassembly} {delivered more : List Reassembly}
    (h : InOrder messages id (before ++ telegram :: after) reassembly delivered)
    (hbefore : ∀ earlier ∈ before, earlier.canID ≠ telegram.canID) (hid : telegram.canID ≠ id)
    (hwants : reassembly.Wants telegram)
    (hcurrent : next.currentReceiveCANId = 0 ∨ next.currentReceiveCANId = telegram.canID)
    (hmore : deliveredWithId id more = deliveredWithId id delivered) :
    InOrder messages id (before ++ after) next more := by
  obtain ⟨done, rest, number, hmessages, hdone, hwaiting, hstored⟩ := h
  rw [ofId_taken hbefore, if_neg hid] at hwaiting
  refine ⟨done, rest, number, hmessages, hmore ▸ hdone, hwaiting, ?_⟩
  have hidle : ¬ (reassembly.currentReceiveCANId = id ∧ id ≠ 0) := by
    rintro ⟨hbusy, hreal⟩
    cases hwants with
    | inl hsame => exact hid (hsame.trans hbusy)
    | inr hzero => exact hreal (hbusy.symm.trans hzero)
  have hstill : ¬ (next.currentReceiveCANId = id ∧ id ≠ 0) := by
    rintro ⟨hbusy, hreal⟩
    cases hcurrent with
    | inl hzero => exact hreal (hbusy.symm.trans hzero)
    | inr hsame => exact hid (hsame.symm.trans hbusy)
  rw [if_neg hidle] at hstored
  rw [if_neg hstill]
  exact hstored

/-- The telegram that is awaited, given what is stored of the first message that is not done. -/
theorem awaited {rest : List Sent} {number : Nat} {telegram : Telegram}
    {reassembly : Reassembly} {waiting : List Telegram} (NOW : Nat → Int64)
    (hrest : ∀ sent ∈ rest, sent.outMsg.canID = telegram.canID ∧ 0 < sent.outMsg.getLen.toNat)
    (hwaiting : List.Forall₂ Telegram.SameOnBus ((rest.flatMap Sent.written).drop number)
      (telegram :: waiting))
    (hstored : if reassembly.currentReceiveCANId = telegram.canID ∧ telegram.canID ≠ 0 then
        0 < number ∧ ∃ current later, rest = current :: later ∧
          reassembly.HasStored current.outMsg number
      else number = 0) :
    ∃ current later, rest = current :: later ∧ number < current.count ∧
      List.Forall₂ Telegram.SameOnBus
        (current.written.drop (number + 1) ++ later.flatMap Sent.written) waiting ∧
      Reassembly.Advances current.outMsg number (reassembly.append NOW telegram) := by
  by_cases hbusy : reassembly.currentReceiveCANId = telegram.canID ∧ telegram.canID ≠ 0
  · rw [if_pos hbusy] at hstored
    obtain ⟨hpos, current, later, hcons, hstored⟩ := hstored
    have hlt : number < current.count := lt_telegramCount.mpr hstored.more
    have hlength : number < current.written.length := by rwa [current.length_written]
    rw [hcons, List.flatMap_cons, List.drop_append_of_le_length (Nat.le_of_lt hlength),
      List.drop_eq_getElem_cons hlength, List.cons_append] at hwaiting
    cases hwaiting with
    | cons hsame hothers =>
      have hcarries := current.carries (List.getElem?_eq_getElem hlength)
      refine ⟨current, later, hcons, hlt, hothers, ?_⟩
      exact hstored.append_continues NOW hpos (Nat.lt_trans hlt current.count_lt)
        (hcarries.received hsame)
  · rw [if_neg hbusy] at hstored
    subst hstored
    rw [List.drop_zero] at hwaiting
    cases rest with
    | nil => cases hwaiting
    | cons current later =>
      obtain ⟨hid, hnonempty⟩ := hrest current List.mem_cons_self
      obtain ⟨first, others, hwritten, hfirst, _⟩ := current.written_eq_cons hnonempty
      rw [List.flatMap_cons, hwritten, List.cons_append] at hwaiting
      cases hwaiting with
      | cons hsame hothers =>
        refine ⟨current, later, rfl, lt_telegramCount.mpr hnonempty, ?_, ?_⟩
        · rw [hwritten]
          exact hothers
        · exact Reassembly.append_begins NOW (hfirst.received hsame) hnonempty

/-- The telegram is taken, and a message it completes is delivered in its turn. -/
theorem InOrder.own {messages : List Sent} {before after : List Telegram} {telegram : Telegram}
    {reassembly next : Reassembly} {delivered : List Reassembly} {complete : Bool}
    (NOW : Nat → Int64)
    (hvalid : ∀ sent ∈ messages,
      sent.outMsg.canID = telegram.canID ∧ 0 < sent.outMsg.getLen.toNat)
    (h : InOrder messages telegram.canID (before ++ telegram :: after) reassembly delivered)
    (hbefore : ∀ earlier ∈ before, earlier.canID ≠ telegram.canID)
    (happend : reassembly.append NOW telegram = (complete, next)) :
    InOrder messages telegram.canID (before ++ after) next
        (if complete then delivered ++ [next] else delivered) ∧
      if complete then next.currentReceiveCANId = 0 ∧ next.currentMsg.canID = telegram.canID
      else next.currentReceiveCANId = telegram.canID := by
  obtain ⟨done, rest, number, hmessages, hdone, hwaiting, hstored⟩ := h
  rw [ofId_taken hbefore, if_pos rfl] at hwaiting
  have hrest : ∀ sent ∈ rest,
      sent.outMsg.canID = telegram.canID ∧ 0 < sent.outMsg.getLen.toNat := fun sent hmem =>
    hvalid sent (hmessages ▸ List.mem_append_right done hmem)
  obtain ⟨current, later, hcons, hlt, hothers, hadvances⟩ :=
    awaited NOW hrest hwaiting hstored
  have hid := (hrest current (hcons ▸ List.mem_cons_self)).1
  have hreal : telegram.canID ≠ 0 := by
    rw [← hid]
    exact current.outMsg.canID_ne_zero
  rw [happend] at hadvances
  unfold Reassembly.Advances at hadvances
  split at hadvances
  · next hmore =>
    obtain ⟨hopen, hnext⟩ := hadvances
    dsimp only at hopen
    subst hopen
    have hbusy : next.currentReceiveCANId = telegram.canID := hnext.canID.trans hid
    have hlength : number + 1 ≤ current.written.length := by
      rw [current.length_written]
      exact hlt
    refine ⟨⟨done, rest, number + 1, hmessages, hdone, ?_, ?_⟩, hbusy⟩
    · rw [hcons, List.flatMap_cons, List.drop_append_of_le_length hlength]
      exact hothers
    · rw [if_pos ⟨hbusy, hreal⟩]
      exact ⟨Nat.succ_pos number, current, later, hcons, hnext⟩
  · next hlast =>
    obtain ⟨hcomplete, hidle, hreceived⟩ := hadvances
    dsimp only at hcomplete
    subst hcomplete
    have hsent : next.currentMsg.canID = telegram.canID := hreceived.canID.trans hid
    have hend : current.written.drop (number + 1) = [] := by
      rw [List.drop_eq_nil_iff, current.length_written]
      have hcount := mt lt_telegramCount.mp hlast
      exact Nat.le_of_not_lt hcount
    rw [hend, List.nil_append] at hothers
    refine ⟨⟨done ++ [current], later, 0, ?_, ?_, hothers, ?_⟩, hidle, hsent⟩
    · rw [hmessages, hcons, List.append_assoc, List.singleton_append]
    · have hfilter : deliveredWithId telegram.canID (delivered ++ [next]) =
          deliveredWithId telegram.canID delivered ++ [next] := by
        simp [deliveredWithId, hsent]
      show List.Forall₂ _ _ (deliveredWithId telegram.canID (delivered ++ [next]))
      rw [hfilter]
      exact List.rel_append hdone (List.Forall₂.cons hreceived List.Forall₂.nil)
    · rw [if_neg fun hbusy => hreal (hbusy.1.symm.trans hidle)]

/-- Every id is in order. -/
def AllInOrder (messages : UInt32 → List Sent) (waiting : List Telegram)
    (reassembly : Reassembly) (delivered : List Reassembly) : Prop :=
  ∀ id, InOrder (messages id) id waiting reassembly delivered

theorem AllInOrder.append {messages : UInt32 → List Sent} (NOW : Nat → Int64)
    (hvalid : Valid messages) : Reception.KeptByTaking NOW (AllInOrder messages) := by
  intro before telegram after reassembly delivered h hbefore hwants id
  have hothers := hbefore.canID_ne hwants
  have hpair : reassembly.append NOW telegram =
      ((reassembly.append NOW telegram).1, (reassembly.append NOW telegram).2) := rfl
  obtain ⟨hown, hcurrent⟩ := (h telegram.canID).own NOW (hvalid telegram.canID) hothers hpair
  by_cases hid : telegram.canID = id
  · rw [← hid]
    exact hown
  · apply (h id).other hothers hid hwants (Reassembly.append_current_cases NOW hwants)
    cases hcomplete : (reassembly.append NOW telegram).1 with
    | true =>
      rw [hcomplete] at hcurrent
      simp [deliveredWithId, hcurrent.2, hid]
    | false => rfl

namespace Reception

variable (NOW : Nat → Int64)

/-- Between calls. -/
structure Orderly (messages : UInt32 → List Sent) (future : List Telegram)
    (reception : Reception) (delivered : List Reassembly) : Prop where
  inOrder : AllInOrder messages (reception.parked ++ reception.incoming ++ future)
    reception.reassembly delivered
  busy : reception.reassembly.currentReceiveCANId ≠ 0 →
    Unwanted reception.reassembly reception.parked
  parked_le : reception.parked.length ≤ reception.mostParked

theorem orderly_iff {messages : UInt32 → List Sent} {future : List Telegram}
    {reception : Reception} {delivered : List Reassembly} :
    Orderly messages future reception delivered ↔
      Between (AllInOrder messages) future reception delivered :=
  ⟨fun h => ⟨h.inOrder, h.busy, h.parked_le⟩, fun h => ⟨h.kept, h.busy, h.parked_le⟩⟩

end Reception

/-- The message in progress still waits for telegrams, and those are wanted. -/
theorem InOrder.not_busy {messages : List Sent} {id : UInt32} {parked : List Telegram}
    {reassembly : Reassembly} {delivered : List Reassembly}
    (h : InOrder messages id parked reassembly delivered) (hparked : Unwanted reassembly parked)
    (hreal : id ≠ 0) : reassembly.currentReceiveCANId ≠ id := by
  intro hbusy
  obtain ⟨done, rest, number, _, _, hwaiting, hstored⟩ := h
  rw [if_pos ⟨hbusy, hreal⟩] at hstored
  obtain ⟨_, current, later, hcons, hstored⟩ := hstored
  have hlength : number < current.written.length := by
    rw [current.length_written]
    exact lt_telegramCount.mpr hstored.more
  rw [hcons, List.flatMap_cons, List.drop_append_of_le_length (Nat.le_of_lt hlength),
    List.drop_eq_getElem_cons hlength, List.cons_append] at hwaiting
  obtain ⟨telegram, _, _, _, hwaits⟩ := List.forall₂_cons_left_iff.mp hwaiting
  have hmem : telegram ∈ ofId id parked := by
    rw [hwaits]
    exact List.mem_cons_self
  obtain ⟨hthere, hid⟩ := List.mem_filter.mp hmem
  exact hparked telegram hthere (Or.inl ((of_decide_eq_true hid).trans hbusy.symm))

/-- When nothing waits any more, every message has been delivered. -/
theorem InOrder.all_delivered {messages : List Sent} {id : UInt32} {reassembly : Reassembly}
    {delivered : List Reassembly} (h : InOrder messages id [] reassembly delivered)
    (hnonempty : ∀ sent ∈ messages, 0 < sent.outMsg.getLen.toNat)
    (hidle : reassembly.currentReceiveCANId = 0) :
    List.Forall₂ (fun sent received => sent.outMsg.ReceivedAs received.currentMsg) messages
      (deliveredWithId id delivered) := by
  obtain ⟨done, rest, number, hmessages, hdone, hwaiting, hstored⟩ := h
  have hreal : ¬ (reassembly.currentReceiveCANId = id ∧ id ≠ 0) := by
    rintro ⟨hid, hne⟩
    exact hne (hid.symm.trans hidle)
  rw [if_neg hreal] at hstored
  rw [hstored, List.drop_zero] at hwaiting
  cases rest with
  | nil =>
    rw [hmessages, List.append_nil]
    exact hdone
  | cons current later =>
    have hmem : current ∈ messages := by
      rw [hmessages]
      exact List.mem_append_right done List.mem_cons_self
    obtain ⟨first, others, hwritten, _⟩ := current.written_eq_cons (hnonempty current hmem)
    rw [List.flatMap_cons, hwritten, List.cons_append] at hwaiting
    cases hwaiting

theorem Unwanted.eq_nil {reassembly : Reassembly} {parked : List Telegram}
    (h : Unwanted reassembly parked) (hidle : reassembly.currentReceiveCANId = 0) :
    parked = [] := by
  rw [List.eq_nil_iff_forall_not_mem]
  exact fun telegram hmem => h telegram hmem (Or.inr hidle)

theorem Reception.Orderly.settled {messages : UInt32 → List Sent} {reception : Reception}
    {delivered : List Reassembly} (hvalid : Valid messages)
    (h : Orderly messages [] reception delivered) (hincoming : reception.incoming = [])
    (hparked : Unwanted reception.reassembly reception.parked) (id : UInt32) :
    List.Forall₂ (fun sent received => sent.outMsg.ReceivedAs received.currentMsg) (messages id)
      (deliveredWithId id delivered) := by
  have horder := h.inOrder
  rw [hincoming, List.append_nil, List.append_nil] at horder
  have hidle : reception.reassembly.currentReceiveCANId = 0 := by
    by_contra hbusy
    exact (horder reception.reassembly.currentReceiveCANId).not_busy hparked hbusy rfl
  rw [hparked.eq_nil hidle] at horder
  exact (horder id).all_delivered (fun sent hmem => (hvalid id sent hmem).2) hidle

namespace Session

variable {NOW : Nat → Int64} {memory : LinkinterfaceCAN}

/-- Calls and arrivals in any order, without loss and without a full buffer: some later call
returns false, and by then the messages of each id have been delivered, each once, in the order in
which they were sent, and no others. -/
theorem interleaved_round_trip (NOW : Nat → Int64) (memory : LinkinterfaceCAN)
    (messages : UInt32 → List Sent) (actions : List Action) (hvalid : Valid messages)
    (harrived : ∀ id, List.Forall₂ Telegram.SameOnBus ((messages id).flatMap Sent.written)
      (ofId id (arrived actions)))
    (hroom : ∀ calls, (after NOW memory
      (actions ++ List.replicate calls .getNetworkMsg)).link.mostBuffered < CAN_MSG_BUFFER_SIZE) :
    (∃ calls, (after NOW memory
      (actions ++ List.replicate (calls + 1) .getNetworkMsg)).returned = some false) ∧
    ∀ calls, (after NOW memory
        (actions ++ List.replicate (calls + 1) .getNetworkMsg)).returned = some false →
      ∀ id, List.Forall₂ (fun sent received => sent.outMsg.ReceivedAs received.currentMsg)
        (messages id)
        (deliveredWithId id (after NOW memory
          (actions ++ List.replicate (calls + 1) .getNetworkMsg)).delivered) := by
  refine ⟨exists_drained NOW memory actions, fun calls hreturned => ?_⟩
  have hstart : AllInOrder messages (arrived actions) memory.construct.reassembly [] := by
    refine fun id => ⟨[], messages id, 0, rfl, List.Forall₂.nil, ?_, ?_⟩
    · rw [List.drop_zero]
      exact harrived id
    · rw [if_neg]
      rintro ⟨hid, hreal⟩
      exact hreal hid.symm
  obtain ⟨reception, _, hbetween, hincoming, hparked⟩ :=
    drained (AllInOrder.append NOW hvalid) hstart hroom hreturned
  exact (Reception.orderly_iff.mpr hbetween).settled hvalid hincoming hparked

/-- Two messages of twelve bytes on two ids. -/
def twoMessages (id : UInt32) : List Sent :=
  let sentOn (topicId : UInt32) : Sent := Sent.ofMessage
    (((NetworkMessage.mk (fun _ => 0) UInt8.ofNat).putTopicId topicId).putLen 12)
    (by simp [MAX_NETWORK_MESSAGE_LENGTH])
  if id = 0x1C000100 then [sentOn 1] else if id = 0x1C000200 then [sentOn 2] else []

/-- Their telegrams arrive in turn, with a call in between. -/
def inTurn : List Action :=
  let first := (twoMessages 0x1C000100).flatMap Sent.written
  let second := (twoMessages 0x1C000200).flatMap Sent.written
  (first.take 1 ++ second.take 1).map .arrive ++ [.getNetworkMsg] ++
    (second.drop 1 ++ first.drop 1).map .arrive

theorem interleaved_round_trip_inTurn :
    (∃ calls, (after (fun _ => 0) .zeroed
      (inTurn ++ List.replicate (calls + 1) .getNetworkMsg)).returned = some false) ∧
    ∀ calls, (after (fun _ => 0) .zeroed
        (inTurn ++ List.replicate (calls + 1) .getNetworkMsg)).returned = some false →
      ∀ id, List.Forall₂ (fun sent received => sent.outMsg.ReceivedAs received.currentMsg)
        (twoMessages id)
        (deliveredWithId id (after (fun _ => 0) .zeroed
          (inTurn ++ List.replicate (calls + 1) .getNetworkMsg)).delivered) := by
  refine interleaved_round_trip (fun _ => 0) .zeroed twoMessages inTurn ?_ ?_ fun calls => ?_
  · intro id sent hmem
    unfold twoMessages at hmem
    split at hmem
    · next hid =>
      rw [List.mem_singleton.mp hmem, hid]
      decide
    · split at hmem
      · next hid =>
        rw [List.mem_singleton.mp hmem, hid]
        decide
      · cases hmem
  · intro id
    by_cases hfirst : id = 0x1C000100
    · subst hfirst
      exact List.forall₂_same.mpr fun telegram _ => Telegram.SameOnBus.refl telegram
    · by_cases hsecond : id = 0x1C000200
      · subst hsecond
        exact List.forall₂_same.mpr fun telegram _ => Telegram.SameOnBus.refl telegram
      · have hids : ∀ telegram ∈ arrived inTurn,
            telegram.canID = 0x1C000100 ∨ telegram.canID = 0x1C000200 := by decide
        have hnone : ofId id (arrived inTurn) = [] := by
          rw [ofId, List.filter_eq_nil_iff]
          intro telegram hmem
          rw [decide_eq_true_eq]
          rintro rfl
          exact (hids telegram hmem).elim hfirst hsecond
        rw [hnone, twoMessages, if_neg hfirst, if_neg hsecond]
        exact List.Forall₂.nil
  · have hmost := mostBuffered_le_arrived (fun _ => 0) .zeroed
      (inTurn ++ List.replicate calls .getNetworkMsg)
    rw [arrived_append, arrived_calls, List.append_nil] at hmost
    exact Nat.lt_of_le_of_lt hmost (by decide)

end Session

end Rodos.Gateway
