import Rodos.Gateway.Transmission

/-! What a message is when it has crossed one of the links, and that the telegrams of the CAN link
add up to just that. -/
namespace Rodos.Gateway
open Library

inductive LinkType where
  | can
  | uart
  | udp
  | sharedMemory
  deriving DecidableEq

def MAX_UART_MESSAGE_LENGTH : Nat := MAX_NETWORK_MESSAGE_LENGTH

namespace NetworkMessage

/-- The header that the first telegram of a message prepares. -/
def preparedByCan (inMsg : NetworkMessage) (id : UInt32) (len : UInt16) (NOW : Int64) :
    NetworkMessage :=
  inMsg
    |>.putMaxStepsToForward 5
    |>.putSenderNode (id &&& uint32Ones CAN_LINK_NODE_BITS).toInt32
    |>.putSenderThreadId 0
    |>.putSentTime NOW
    |>.putTopicId ((id >>> CAN_LINK_NODE_BITS) &&& uint32Ones CAN_LINK_TOPIC_BITS)
    |>.putLen len

/-- `inMsg` when the telegrams of `outMsg` have been put together in it. -/
def carriedByCan (inMsg outMsg : NetworkMessage) (NOW : Int64) : NetworkMessage :=
  let prepared := inMsg.preparedByCan outMsg.canID outMsg.getLen NOW
  { prepared with
    userDataC := Memory.copy prepared.userDataC outMsg.userDataC 0 0
      outMsg.getLen.toNat }.setCheckSum

end NetworkMessage

/-- `inMsg` after `getNetworkMsg` has returned true for `outMsg`; `slot` is the entry of the fifo of
the link that the message passes through. -/
def LinkType.carry (link : LinkType) (NOW : Int64) (slot inMsg outMsg : NetworkMessage) :
    NetworkMessage :=
  match link with
  | .can => inMsg.carriedByCan outMsg NOW
  | .uart =>
    inMsg.overwrite outMsg (min MAX_UART_MESSAGE_LENGTH outMsg.numberOfBytesToSend.toNat)
  | .udp | .sharedMemory => inMsg.assign (slot.assign outMsg)

/-- `numberOfReceivedBytes`. -/
def LinkType.reportedSize (link : LinkType) (outMsg : NetworkMessage) : Int :=
  match link with
  | .uart => min MAX_UART_MESSAGE_LENGTH outMsg.numberOfBytesToSend.toNat
  | .can | .udp | .sharedMemory => -1

namespace Reassembly

/-- The header is the one prepared at the start, and nothing is stored at or behind `stop`. -/
structure GrownFrom (start : NetworkMessage) (stop : Nat) (current : NetworkMessage) : Prop where
  header : current.header = start.header
  behind : ∀ index, stop ≤ index → current.userDataC index = start.userDataC index

/-- Either the next telegram is awaited or the message is what the link carries. -/
def Brings (NOW : Int64) (inMsg message : NetworkMessage) (number : Nat)
    (result : Bool × Reassembly) : Prop :=
  if bytesBefore (number + 1) < message.getLen.toNat then
    result.1 = false ∧ result.2.HasStored message (number + 1) ∧
      GrownFrom (inMsg.preparedByCan message.canID message.getLen NOW) (bytesBefore (number + 1))
        result.2.currentMsg
  else
    result.1 = true ∧ result.2.currentReceiveCANId = 0 ∧
      result.2.currentMsg = inMsg.carriedByCan message NOW

variable {self : Reassembly} {telegram : Telegram} {message inMsg start : NetworkMessage}
  {number : Nat} {time : Int64}

theorem GrownFrom.storeData (h : GrownFrom start (bytesBefore number) self.currentMsg)
    (hstored : self.HasStored message number) (hcarries : telegram.Carries message number) :
    GrownFrom start (min (bytesBefore (number + 1)) message.getLen.toNat)
      (self.storeData telegram (message.telegramHead number).length).currentMsg := by
  have hlen := hcarries.len_eq
  have hmore := hstored.more
  have hgrows : bytesBefore number ≤ bytesBefore (number + 1) := by
    unfold bytesBefore
    omega
  refine ⟨h.header, fun index hindex => ?_⟩
  show Memory.copy self.currentMsg.userDataC telegram.data self.currentDataPointer
    (message.telegramHead number).length (telegram.len - (message.telegramHead number).length)
      index = _
  rw [Memory.copy_outside, h.behind index (by omega)]
  rw [hstored.pointer]
  omega

/-- The user data is complete, and everything else is as it was prepared. -/
theorem GrownFrom.carried {current : NetworkMessage}
    (h : GrownFrom (inMsg.preparedByCan message.canID message.getLen time) message.getLen.toNat
      current)
    (hdata : current.userDataC.front message.getLen.toNat = message.userData) :
    current.setCheckSum = inMsg.carriedByCan message time := by
  have hcells : current.userDataC =
      Memory.copy (inMsg.preparedByCan message.canID message.getLen time).userDataC
        message.userDataC 0 0 message.getLen.toNat := by
    funext index
    by_cases hindex : index < message.getLen.toNat
    · have hbyte := congrArg (fun bytes : List UInt8 => bytes[index]?) hdata
      simp only [NetworkMessage.userData, Memory.getElem?_front, if_pos hindex] at hbyte
      rw [Memory.copy_start, if_pos hindex, Option.some.inj hbyte]
    · rw [Memory.copy_start, if_neg hindex, h.behind index (by omega)]
  have hheader := h.header
  obtain ⟨header, userDataC⟩ := current
  dsimp only at hcells hheader
  rw [hcells, hheader]
  rfl

theorem HasStored.brings (h : self.HasStored message number)
    (hgrown : GrownFrom (inMsg.preparedByCan message.canID message.getLen time)
      (bytesBefore number) self.currentMsg)
    (hcarries : telegram.Carries message number) :
    Brings time inMsg message number
      (self.storeData telegram (message.telegramHead number).length).finishOrContinue := by
  have hadvances := h.store hcarries
  have hstored := hgrown.storeData h hcarries
  unfold Advances at hadvances
  unfold Brings
  split at hadvances
  · next hmore =>
    obtain ⟨hopen, hnext⟩ := hadvances
    have hsame : (self.storeData telegram
        (message.telegramHead number).length).finishOrContinue.2.currentMsg =
        (self.storeData telegram (message.telegramHead number).length).currentMsg := by
      unfold finishOrContinue at hopen ⊢
      split at hopen
      · cases hopen
      · next hshort => rw [if_neg hshort]
    rw [Nat.min_eq_left (Nat.le_of_lt hmore)] at hstored
    rw [if_pos hmore]
    exact ⟨hopen, hnext, hsame ▸ hstored⟩
  · next hlast =>
    obtain ⟨hcomplete, hidle, hreceived⟩ := hadvances
    have hchecked : (self.storeData telegram
        (message.telegramHead number).length).finishOrContinue.2.currentMsg =
        (self.storeData telegram (message.telegramHead number).length).currentMsg.setCheckSum := by
      unfold finishOrContinue at hcomplete ⊢
      split at hcomplete
      · next hfull => rw [if_pos hfull]
      · cases hcomplete
    rw [Nat.min_eq_right (Nat.le_of_not_lt hlast)] at hstored
    rw [if_neg hlast]
    refine ⟨hcomplete, hidle, ?_⟩
    rw [hchecked] at hreceived ⊢
    apply hstored.carried
    have hdata := hreceived.userData
    rwa [NetworkMessage.userData, hreceived.len, NetworkMessage.userDataC_setCheckSum] at hdata

theorem append_first_brings (NOW : Nat → Int64) (h : telegram.Carries message 0)
    (hlen : 0 < message.getLen.toNat) :
    Brings (NOW self.handed.length) self.currentMsg message 0 (self.append NOW telegram) := by
  have hgrown : GrownFrom (self.currentMsg.preparedByCan message.canID message.getLen
      (NOW self.handed.length)) (bytesBefore 0)
      ((self.begin (NOW self.handed.length) telegram).hand telegram).currentMsg := by
    rw [currentMsg_hand, begin, ← h.canID, ← h.announced]
    exact ⟨rfl, fun _ _ => rfl⟩
  rw [append_first h.number_eq]
  exact (begin_hasStored _ h hlen).brings hgrown h

theorem HasStored.append_brings (NOW : Nat → Int64) (h : self.HasStored message number)
    (hgrown : GrownFrom (inMsg.preparedByCan message.canID message.getLen time)
      (bytesBefore number) self.currentMsg)
    (hnumber : 0 < number) (hsmall : number < 256) (hcarries : telegram.Carries message number) :
    Brings time inMsg message number (self.append NOW telegram) := by
  rw [h.append_eq NOW hnumber hsmall hcarries]
  exact (h.hand telegram).brings hgrown hcarries

end Reassembly

namespace Assembly

variable {NOW : Nat → Int64} {sent : Sent} {inMsg : NetworkMessage} {time : Int64}

/-- From a telegram on, the others of the message complete it. -/
theorem run_brings {received : List Telegram} {number : Nat} {result : Bool × Reassembly}
    {delivered : List Reassembly}
    (hreceived : List.Forall₂ Telegram.SameOnBus (sent.written.drop (number + 1)) received)
    (hbrings : Reassembly.Brings time inMsg sent.outMsg number result) :
    ∃ after,
      run (hand NOW) ⟨result.2, if result.1 then delivered ++ [result.2] else delivered⟩ received =
        some ⟨after, delivered ++ [after]⟩ ∧
      after.currentReceiveCANId = 0 ∧ after.currentMsg = inMsg.carriedByCan sent.outMsg time := by
  induction received generalizing number result with
  | nil =>
    have hend : ¬ bytesBefore (number + 1) < sent.outMsg.getLen.toNat := by
      rw [← lt_telegramCount]
      have hlength := sent.length_written
      have hnone := congrArg List.length (List.forall₂_nil_right_iff.mp hreceived)
      rw [List.length_drop, List.length_nil] at hnone
      unfold Sent.count at hlength
      omega
    rw [Reassembly.Brings, if_neg hend] at hbrings
    obtain ⟨hcomplete, hidle, hcarried⟩ := hbrings
    exact ⟨result.2, by rw [hcomplete]; rfl, hidle, hcarried⟩
  | cons telegram received ih =>
    have hlength : number + 1 < sent.written.length := by
      have hmore := hreceived.length_eq
      rw [List.length_drop, List.length_cons] at hmore
      omega
    have hmore : bytesBefore (number + 1) < sent.outMsg.getLen.toNat := by
      rw [← lt_telegramCount]
      rwa [sent.length_written] at hlength
    rw [Reassembly.Brings, if_pos hmore] at hbrings
    obtain ⟨hopen, hstored, hgrown⟩ := hbrings
    rw [List.drop_eq_getElem_cons hlength] at hreceived
    cases hreceived with
    | cons hsame hothers =>
      have hcarries := (sent.carries (List.getElem?_eq_getElem hlength)).received hsame
      have hsmall : number + 1 < 256 := by
        rw [sent.length_written] at hlength
        exact hlength.trans sent.count_lt
      obtain ⟨after, hrun, hafter⟩ := ih hothers
        (hstored.append_brings NOW hgrown (Nat.succ_pos number) hsmall hcarries)
      refine ⟨after, run_cons ?_ hrun, hafter⟩
      rw [hopen]
      rfl

/-- Whatever was in progress, the telegrams of a message yield what the link carries. -/
theorem run_carries (reassembly : Reassembly) (delivered : List Reassembly)
    {received : List Telegram} (hnonempty : 0 < sent.outMsg.getLen.toNat)
    (hreceived : List.Forall₂ Telegram.SameOnBus sent.written received) :
    ∃ after, run (hand NOW) ⟨reassembly, delivered⟩ received =
        some ⟨after, delivered ++ [after]⟩ ∧ after.currentReceiveCANId = 0 ∧
      after.currentMsg =
        reassembly.currentMsg.carriedByCan sent.outMsg (NOW reassembly.handed.length) := by
  obtain ⟨first, others, hwritten, hfirst, _⟩ := sent.written_eq_cons hnonempty
  rw [hwritten] at hreceived
  cases hreceived with
  | cons hsame hothers =>
    have hrest : sent.written.drop (0 + 1) = others := by
      rw [hwritten]
      rfl
    rw [← hrest] at hothers
    obtain ⟨after, hrun, hafter⟩ := run_brings hothers
      (Reassembly.append_first_brings NOW (hfirst.received hsame) hnonempty)
    exact ⟨after, run_cons rfl hrun, hafter⟩

end Assembly

end Rodos.Gateway
