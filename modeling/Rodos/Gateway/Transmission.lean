import Rodos.Gateway.HandOver
import Rodos.Gateway.MessageProgress

/-! Messages on the bus: what `sendNetworkMsg` wrote for each of them and how it arrives. -/
namespace Rodos.Gateway
open Library

/-- A message of valid length that `sendNetworkMsg` has put on the bus. -/
structure Sent where
  outMsg : NetworkMessage
  written : List Telegram
  sent : ∃ buffer answers, sendNetworkMsg buffer outMsg answers = ⟨written, some true⟩
  len_le : outMsg.getLen.toNat ≤ MAX_NETWORK_MESSAGE_LENGTH

/-- The bytes behind the data of a telegram are not on the bus. -/
structure Telegram.SameOnBus (sent received : Telegram) : Prop where
  canID : received.canID = sent.canID
  payload : received.payload = sent.payload

theorem Telegram.SameOnBus.refl (telegram : Telegram) : telegram.SameOnBus telegram := ⟨rfl, rfl⟩

theorem Telegram.Carries.received {sent received : Telegram} {message : NetworkMessage}
    {number : Nat} (h : sent.Carries message number) (hsame : sent.SameOnBus received) :
    received.Carries message number :=
  ⟨hsame.canID.trans h.canID, hsame.payload.trans h.payload⟩

theorem Telegram.exists_sent {sent received : List Telegram} {telegram : Telegram}
    (hreceived : List.Forall₂ Telegram.SameOnBus sent received) (hmem : telegram ∈ received) :
    ∃ original ∈ sent, original.SameOnBus telegram := by
  induction hreceived with
  | nil => cases hmem
  | cons hsame _ ih =>
    cases List.mem_cons.mp hmem with
    | inl hfirst =>
      rw [hfirst]
      exact ⟨_, List.mem_cons_self, hsame⟩
    | inr hlater =>
      obtain ⟨original, hsent, hequal⟩ := ih hlater
      exact ⟨original, List.mem_cons_of_mem _ hsent, hequal⟩

namespace Sent

/-- The message as a driver that accepts every telegram puts it on the bus. -/
def ofMessage (outMsg : NetworkMessage)
    (hlen : outMsg.getLen.toNat ≤ MAX_NETWORK_MESSAGE_LENGTH) : Sent where
  outMsg := outMsg
  written := (sendNetworkMsg (fun _ => 0) outMsg
    (List.replicate outMsg.getLen.toNat .accepted)).written
  sent := ⟨fun _ => 0, List.replicate outMsg.getLen.toNat .accepted,
    congrArg (Sending.mk _) (sendNetworkMsg_returned (fun _ => 0) outMsg)⟩
  len_le := hlen

def count (self : Sent) : Nat := telegramCount self.outMsg.getLen.toNat

/-- The sequence counter of a message of valid length does not wrap. -/
theorem count_lt (self : Sent) : self.count < 256 := by
  have hlen := self.len_le
  unfold count telegramCount
  unfold MAX_NETWORK_MESSAGE_LENGTH at hlen
  split <;> omega

theorem length_written (self : Sent) : self.written.length = self.count := by
  obtain ⟨buffer, answers, hsend⟩ := self.sent
  have hlengths := congrArg List.length (sendNetworkMsg_written hsend).2
  rwa [List.length_map, NetworkMessage.telegrams, List.length_map, List.length_range] at hlengths

theorem carries (self : Sent) {number : Nat} {telegram : Telegram}
    (htelegram : self.written[number]? = some telegram) :
    telegram.Carries self.outMsg number := by
  obtain ⟨buffer, answers, hsend⟩ := self.sent
  obtain ⟨hids, hpayloads⟩ := sendNetworkMsg_written hsend
  have hnumber : number < self.count := by
    rw [← self.length_written]
    exact (List.getElem?_eq_some_iff.mp htelegram).1
  refine ⟨hids telegram (List.mem_of_getElem? htelegram), ?_⟩
  have hpayload := congrArg (fun payloads : List (List UInt8) => payloads[number]?) hpayloads
  have hrange : (List.range (telegramCount self.outMsg.getLen.toNat))[number]? = some number :=
    List.getElem?_range hnumber
  rw [NetworkMessage.telegrams] at hpayload
  simp only [List.getElem?_map, htelegram, hrange] at hpayload
  exact Option.some.inj hpayload

/-- The first telegram, and those behind it. -/
theorem written_eq_cons (self : Sent) (hnonempty : 0 < self.outMsg.getLen.toNat) :
    ∃ first others, self.written = first :: others ∧ first.Carries self.outMsg 0 ∧
      ∀ telegram ∈ others, ∃ number, 0 < number ∧ number < self.count ∧
        telegram.Carries self.outMsg number := by
  have hlength := self.length_written
  cases hwritten : self.written with
  | nil =>
    rw [hwritten] at hlength
    have hcount : 0 < self.count := lt_telegramCount.mpr hnonempty
    exact absurd hlength (Nat.ne_of_lt hcount)
  | cons first others =>
    refine ⟨first, others, rfl, self.carries (by rw [hwritten]; rfl), fun telegram hmem => ?_⟩
    obtain ⟨index, hindex⟩ := List.getElem?_of_mem hmem
    have hcarries : telegram.Carries self.outMsg (index + 1) := by
      apply self.carries
      rw [hwritten, List.getElem?_cons_succ, hindex]
    have hbound := (List.getElem?_eq_some_iff.mp hindex).1
    rw [hwritten, List.length_cons] at hlength
    exact ⟨index + 1, Nat.succ_pos index, by omega, hcarries⟩

end Sent

/-- The telegrams that arrive in the course of these actions. -/
def arrived : List Action → List Telegram
  | [] => []
  | .arrive telegram :: actions => telegram :: arrived actions
  | .getNetworkMsg :: actions => arrived actions

theorem arrived_append (actions later : List Action) :
    arrived (actions ++ later) = arrived actions ++ arrived later := by
  induction actions with
  | nil => rfl
  | cons action actions ih => cases action <;> simp [arrived, ih]

theorem arrived_calls (calls : Nat) : arrived (List.replicate calls .getNetworkMsg) = [] := by
  induction calls with
  | zero => rfl
  | succ calls ih => exact ih

end Rodos.Gateway
