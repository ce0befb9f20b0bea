import Rodos.Gateway.SeenNodes

/-! What `messageSeen` is for: of the messages of one node each one is reported as not seen once,
in the order of their sent times, whatever other nodes send in between. -/
namespace Rodos.Gateway.SeenNodes
open Library

/-- The verdict on a message, after those before it. -/
def verdict (self : SeenNodes) (earlier : List NetworkMessage) (msg : NetworkMessage) : Bool :=
  ((self.after earlier).messageSeen msg).returned

/-- The message is at most five seconds older than the latest one of its sender. -/
def Recent (table : SeenNodes) (msg : NetworkMessage) : Prop :=
  ∀ last ∈ table.latest msg.getSenderNode,
    last.toInt - msg.getSentTime.toInt ≤ 5 * SECONDS.toInt

instance (table : SeenNodes) (msg : NetworkMessage) : Decidable (table.Recent msg) :=
  Option.decidableForallMem _

def pass (table : SeenNodes) (msg : NetworkMessage) : Option SeenNodes :=
  some (table.messageSeen msg).table

variable {table : SeenNodes} {senders : Finset Int32} {msg : NetworkMessage}
  {messages : List NetworkMessage}

/-- A clock that does not jump back is never resynchronised. -/
theorem judgeNode_recent {last time : Int64} (hlast : InTime last) (htime : InTime time)
    (hrecent : last.toInt - time.toInt ≤ 5 * SECONDS.toInt) :
    judgeNode (some last) time = if last ≥ time then (true, last) else (false, time) := by
  have hresynchronise : ¬ last - time > 5 * SECONDS := by
    have hlimit : (5 * SECONDS).toInt = 5 * SECONDS.toInt := by decide
    rw [gt_iff_lt, Int64.lt_iff_toInt_lt, toInt_sub_of_inTime hlast htime, hlimit]
    omega
  rw [judgeNode, if_neg hresynchronise]

theorem judgeNode_grows {lastMsgTime : Option Int64} {last time : Int64}
    (hrecorded : last ∈ lastMsgTime) (hlast : InTime last) (htime : InTime time)
    (hrecent : last.toInt - time.toInt ≤ 5 * SECONDS.toInt) :
    last.toInt ≤ (judgeNode lastMsgTime time).2.toInt ∧
      ((judgeNode lastMsgTime time).1 = false → last.toInt < time.toInt) := by
  cases hrecorded
  rw [judgeNode_recent hlast htime hrecent]
  have horder : time ≤ last ↔ time.toInt ≤ last.toInt := Int64.le_iff_toInt_le
  split
  · next hold => exact ⟨Int.le_refl _, fun hfalse => by cases hfalse⟩
  · next hnewer =>
    rw [ge_iff_le, horder] at hnewer
    exact ⟨Int.le_of_lt (not_le.mp hnewer), fun _ => not_le.mp hnewer⟩

/-- The time recorded after a message reported as not seen is its own. -/
theorem judgeNode_fresh {lastMsgTime : Option Int64} {time : Int64}
    (hfresh : (judgeNode lastMsgTime time).1 = false) :
    (judgeNode lastMsgTime time).2 = time := by
  cases lastMsgTime with
  | none => rfl
  | some last =>
    rw [judgeNode] at hfresh ⊢
    split
    · next hold =>
      rw [if_pos hold] at hfresh
      split
      · rfl
      · next hclose =>
        rw [if_neg hclose] at hfresh
        cases hfresh
    · rfl

/-- Messages reported as not seen are newer than what was recorded for their senders. -/
theorem fresh_newer (hcard : senders.card ≤ MAX_NUMBER_OF_NODES) (h : Sound senders table)
    (hfrom : From senders messages) (hrecent : Along pass Recent table messages) :
    ∀ later ∈ table.fresh messages, ∀ last ∈ table.latest later.getSenderNode,
      last.toInt < later.getSentTime.toInt := by
  induction messages generalizing table with
  | nil => exact fun later hlater => by cases hlater
  | cons msg messages ih =>
    obtain ⟨hsender, htime⟩ := hfrom msg List.mem_cons_self
    obtain ⟨hreturned, hlatest, _⟩ := messageSeen_eq (h.admits hcard hsender) htime
    obtain ⟨hnow, hthen⟩ := hrecent.of_cons rfl
    have hrest := ih (h.messageSeen hcard hsender htime)
      (fun later hlater => hfrom later (List.mem_cons_of_mem msg hlater)) hthen
    have holder : ∀ later ∈ (table.messageSeen msg).table.fresh messages,
        ∀ last ∈ table.latest later.getSenderNode, last.toInt < later.getSentTime.toInt := by
      intro later hlater last hlast
      by_cases hsame : later.getSenderNode = msg.getSenderNode
      · rw [hsame] at hlast
        have hgrows := (judgeNode_grows hlast (h.recorded _ last hlast) htime (hnow last hlast)).1
        refine Int.lt_of_le_of_lt hgrows (hrest later hlater _ ?_)
        rw [hlatest, hsame, Function.update_self]
        rfl
      · apply hrest later hlater last
        rw [hlatest, Function.update_of_ne hsame]
        exact hlast
    unfold fresh
    split
    · exact holder
    · next hunseen =>
      intro later hlater
      cases List.mem_cons.mp hlater with
      | inr hbehind => exact holder later hbehind
      | inl hfirst =>
        subst hfirst
        intro last hlast
        rw [hreturned, Bool.not_eq_true] at hunseen
        exact (judgeNode_grows hlast (h.recorded _ last hlast) htime (hnow last hlast)).2 hunseen

/-- Of one sender, the messages reported as not seen follow each other in time. -/
theorem fresh_increasing (hcard : senders.card ≤ MAX_NUMBER_OF_NODES) (h : Sound senders table)
    (hfrom : From senders messages) (hrecent : Along pass Recent table messages) :
    (table.fresh messages).Pairwise fun earlier later =>
      earlier.getSenderNode = later.getSenderNode →
        earlier.getSentTime.toInt < later.getSentTime.toInt := by
  induction messages generalizing table with
  | nil => exact List.Pairwise.nil
  | cons msg messages ih =>
    obtain ⟨hsender, htime⟩ := hfrom msg List.mem_cons_self
    obtain ⟨hreturned, hlatest, _⟩ := messageSeen_eq (h.admits hcard hsender) htime
    obtain ⟨_, hthen⟩ := hrecent.of_cons rfl
    have hsound := h.messageSeen hcard hsender htime
    have hlaterFrom : From senders messages := fun later hlater =>
      hfrom later (List.mem_cons_of_mem msg hlater)
    have hrest := ih hsound hlaterFrom hthen
    unfold fresh
    split
    · exact hrest
    · next hunseen =>
      refine List.pairwise_cons.mpr ⟨fun later hlater hsame => ?_, hrest⟩
      rw [hreturned, Bool.not_eq_true] at hunseen
      apply fresh_newer hcard hsound hlaterFrom hthen later hlater
      rw [hlatest, ← hsame, Function.update_self, judgeNode_fresh hunseen]
      rfl

theorem Sound.verdict_eq (h : Sound senders table) (hcard : senders.card ≤ MAX_NUMBER_OF_NODES)
    {earlier : List NetworkMessage} (hfrom : From senders earlier)
    (hsender : msg.getSenderNode ∈ senders) (htime : InTime msg.getSentTime) :
    table.verdict earlier msg =
      (judgeNode (earlier.foldl (Keyed.act NetworkMessage.getSenderNode
        fun last other => some (judgeNode last other.getSentTime).2) table.latest
          msg.getSenderNode) msg.getSentTime).1 := by
  obtain ⟨hsound, hlatest⟩ := h.after hcard hfrom
  rw [verdict, (messageSeen_eq (hsound.admits hcard hsender) htime).1, hlatest]

/-- For messages of at most as many nodes as the table has room for. -/
theorem duplicate_filter (memory : Memory SeenNode) (messages : List NetworkMessage)
    (hcard : (messages.map NetworkMessage.getSenderNode).toFinset.card ≤ MAX_NUMBER_OF_NODES)
    (htimes : ∀ msg ∈ messages, |msg.getSentTime.toInt| < 2 ^ 62) :
    (∀ earlier msg later, messages = earlier ++ msg :: later →
      (start memory).verdict earlier msg = (start memory).verdict
        (earlier.filter fun other => other.getSenderNode = msg.getSenderNode) msg) ∧
      (∀ earlier, earlier <+: messages → ((start memory).after earlier).nodes.Nodup ∧
        ((start memory).after earlier).numberOfNodes ≤ MAX_NUMBER_OF_NODES) ∧
      (Along pass Recent (start memory) messages →
        (((start memory).fresh messages).map fun msg =>
          (msg.getSenderNode, msg.getSentTime)).Nodup ∧
        ((start memory).fresh messages).Pairwise fun earlier later =>
          earlier.getSenderNode = later.getSenderNode →
            earlier.getSentTime.toInt < later.getSentTime.toInt) := by
  have hfrom : From (messages.map NetworkMessage.getSenderNode).toFinset messages :=
    fun msg hmem => ⟨List.mem_toFinset.mpr (List.mem_map_of_mem hmem), htimes msg hmem⟩
  have hstart := start_sound memory (messages.map NetworkMessage.getSenderNode).toFinset
  refine ⟨?_, ?_, fun hrecent => ?_⟩
  · intro earlier msg later hmessages
    have hmem : msg ∈ messages := by
      rw [hmessages]
      exact List.mem_append_right earlier List.mem_cons_self
    have hearlier : From (messages.map NetworkMessage.getSenderNode).toFinset earlier :=
      fun other hother => hfrom other (hmessages ▸ List.mem_append_left _ hother)
    obtain ⟨hsender, htime⟩ := hfrom msg hmem
    rw [hstart.verdict_eq hcard hearlier hsender htime,
      hstart.verdict_eq hcard (fun other hother => hearlier other (List.mem_of_mem_filter hother))
        hsender htime, Keyed.foldl_act_filter]
  · intro earlier hbefore
    obtain ⟨hsound, _⟩ := hstart.after hcard fun other hother =>
      hfrom other (hbefore.subset hother)
    exact ⟨hsound.unique, hsound.numberOfNodes_le.trans hcard⟩
  · have hincreasing := fresh_increasing hcard hstart hfrom hrecent
    refine ⟨?_, hincreasing⟩
    rw [List.Nodup, List.pairwise_map]
    refine hincreasing.imp fun hordered hequal => ?_
    obtain ⟨hnode, htime⟩ := Prod.mk.inj hequal
    have hless := hordered hnode
    rw [htime] at hless
    exact Int.lt_irrefl _ hless

/-- A message of a node that was sent at some time. -/
def stamped (node : Int32) (time : Int64) : NetworkMessage :=
  ((NetworkMessage.mk (fun _ => 0) (fun _ => 0)).putSenderNode node).putSentTime time

/-- Two nodes, and a message that comes back. -/
def returning : List NetworkMessage := [stamped 1 10, stamped 2 5, stamped 1 10, stamped 1 20]

theorem duplicate_filter_returning :
    ((start fun _ => ⟨0, 0⟩).fresh returning).length = 3 ∧
      (((start fun _ => ⟨0, 0⟩).fresh returning).map fun msg =>
        (msg.getSenderNode, msg.getSentTime)).Nodup :=
  ⟨by decide, ((duplicate_filter (fun _ => ⟨0, 0⟩) returning (by decide) (by decide)).2.2
    (by decide)).1⟩

end Rodos.Gateway.SeenNodes
