import Rodos.Gateway.HandOver

/-! Where reassembly stores and what it delivers, for telegrams of any content. The byte count is
kept modulo 2^16 and nothing limits the data pointer, so both hold only for telegrams that fit. -/
namespace Rodos.Gateway
open Library

/-- The telegram does not take the byte count below zero, unless it announces an empty message, and
its data does not go beyond the message buffer. -/
def Reassembly.Fits (self : Reassembly) (telegram : Telegram) : Prop :=
  (telegram.data 0 = 0 → telegram.announced = 0 ∨ 3 ≤ telegram.len) ∧
    (self.Continues telegram →
      1 ≤ self.bytesReceived.toNat + telegram.len ∧
        self.currentDataPointer + (telegram.len - 1) ≤ MAX_NETWORK_MESSAGE_LENGTH)

instance (self : Reassembly) (telegram : Telegram) : Decidable (self.Fits telegram) :=
  inferInstanceAs (Decidable ((_ → _) ∧ (_ → _)))

/-- All data bytes of the message in the buffer were stored since its first telegram. -/
def Reassembly.Complete (self : Reassembly) : Prop :=
  ∀ index < self.currentMsg.getLen.toNat, self.storedFor index = some self.message

/-- Nothing was stored outside `userDataC`, and delivered messages consist of stored bytes. -/
def Sound (reassembly : Reassembly) (delivered : List Reassembly) : Prop :=
  (∀ index, reassembly.storedFor index ≠ none → index < MAX_NETWORK_MESSAGE_LENGTH) ∧
    ∀ message ∈ delivered, message.Complete

namespace Reassembly

/-- The message in progress consists of stored bytes, at least as many as were counted. -/
structure Filled (reassembly : Reassembly) : Prop where
  stored : ∀ index < reassembly.currentDataPointer,
    reassembly.storedFor index = some reassembly.message
  count : reassembly.bytesReceived.toNat ≤ reassembly.currentDataPointer
  inside : reassembly.currentDataPointer ≤ MAX_NETWORK_MESSAGE_LENGTH
  outside : ∀ index, reassembly.storedFor index ≠ none → index < MAX_NETWORK_MESSAGE_LENGTH

theorem begin_filled {self : Reassembly} (NOW : Int64) (telegram : Telegram)
    (houtside : ∀ index, self.storedFor index ≠ none → index < MAX_NETWORK_MESSAGE_LENGTH) :
    ((self.begin NOW telegram).hand telegram).Filled :=
  ⟨fun _ hindex => absurd hindex (Nat.not_lt_zero _), Nat.le_refl 0, Nat.zero_le _, houtside⟩

theorem storeData_outside {self : Reassembly} {telegram : Telegram} {userDataBegin : Nat}
    (houtside : ∀ index, self.storedFor index ≠ none → index < MAX_NETWORK_MESSAGE_LENGTH)
    (hroom : self.currentDataPointer + (telegram.len - userDataBegin) ≤
      MAX_NETWORK_MESSAGE_LENGTH) :
    ∀ index, (self.storeData telegram userDataBegin).storedFor index ≠ none →
      index < MAX_NETWORK_MESSAGE_LENGTH := by
  intro index hindex
  rw [storedFor_storeData] at hindex
  split at hindex
  · omega
  · exact houtside index hindex

theorem storeData_filled {self : Reassembly} {telegram : Telegram} {userDataBegin : Nat}
    (h : self.Filled) (hcount : userDataBegin ≤ self.bytesReceived.toNat + telegram.len)
    (hroom : self.currentDataPointer + (telegram.len - userDataBegin) ≤
      MAX_NETWORK_MESSAGE_LENGTH) :
    (self.storeData telegram userDataBegin).Filled := by
  have hbytes := h.count
  have hinside := h.inside
  refine ⟨?_, ?_, hroom, storeData_outside h.outside hroom⟩
  · intro index hindex
    have hend : index < self.currentDataPointer + (telegram.len - userDataBegin) := hindex
    rw [storedFor_storeData]
    split
    · rfl
    · exact h.stored index (by omega)
  · have hlen := telegram.len_le
    have hsmall : self.bytesReceived.toNat + telegram.len - userDataBegin < 2 ^ 16 := by
      unfold MAX_NETWORK_MESSAGE_LENGTH at hinside
      omega
    rw [bytesReceived_storeData hcount hsmall]
    show _ ≤ self.currentDataPointer + (telegram.len - userDataBegin)
    omega

/-- What one telegram leaves behind. -/
def AppendedSoundly (result : Bool × Reassembly) : Prop :=
  (∀ index, result.2.storedFor index ≠ none → index < MAX_NETWORK_MESSAGE_LENGTH) ∧
    (result.2.currentReceiveCANId ≠ 0 → result.2.Filled) ∧
    (result.1 = true → result.2.Complete)

theorem Filled.finishOrContinue {self : Reassembly} (h : self.Filled) :
    AppendedSoundly self.finishOrContinue := by
  unfold Reassembly.finishOrContinue
  split
  · next hcomplete =>
    have hcount := h.count
    have hlength := UInt16.le_iff_toNat_le.mp hcomplete
    refine ⟨h.outside, fun hbusy => absurd rfl hbusy, fun _ index hindex => ?_⟩
    rw [NetworkMessage.getLen_setCheckSum] at hindex
    exact h.stored index (by omega)
  · exact ⟨h.outside, fun _ => ⟨h.stored, h.count, h.inside, h.outside⟩,
      fun hfalse => by cases hfalse⟩

/-- An empty message is complete at once, however short its telegram is. -/
theorem finishOrContinue_of_empty {self : Reassembly}
    (houtside : ∀ index, self.storedFor index ≠ none → index < MAX_NETWORK_MESSAGE_LENGTH)
    (hempty : self.currentMsg.getLen = 0) : AppendedSoundly self.finishOrContinue := by
  have hcomplete : self.bytesReceived ≥ self.currentMsg.getLen := by
    rw [hempty]
    exact UInt16.zero_le
  rw [finishOrContinue, if_pos hcomplete]
  refine ⟨houtside, fun hbusy => absurd rfl hbusy, fun _ index hindex => ?_⟩
  rw [NetworkMessage.getLen_setCheckSum, hempty] at hindex
  exact absurd hindex (Nat.not_lt_zero index)

theorem append_sound {self : Reassembly} {telegram : Telegram} (NOW : Nat → Int64)
    (houtside : ∀ index, self.storedFor index ≠ none → index < MAX_NETWORK_MESSAGE_LENGTH)
    (hbusy : self.currentReceiveCANId ≠ 0 → self.Filled) (hfits : self.Fits telegram) :
    AppendedSoundly (self.append NOW telegram) := by
  have hlen := telegram.len_le
  by_cases hfirst : telegram.data 0 = 0
  · rw [append_first hfirst]
    have hbegun := begin_filled (NOW self.handed.length) telegram houtside
    have hroom : 0 + (telegram.len - 3) ≤ MAX_NETWORK_MESSAGE_LENGTH := by
      unfold MAX_NETWORK_MESSAGE_LENGTH
      omega
    cases hfits.1 hfirst with
    | inl hempty =>
      apply finishOrContinue_of_empty (storeData_outside hbegun.outside hroom)
      rw [getLen_storeData, currentMsg_hand, getLen_begin, hempty]
    | inr hprefix =>
      have hcount : 3 ≤ 0 + telegram.len := by omega
      exact (storeData_filled hbegun hcount hroom).finishOrContinue
  · by_cases hnext : self.Continues telegram
    · rw [append_next hnext]
      obtain ⟨hcount, hroom⟩ := hfits.2 hnext
      have hfilled := hbusy hnext.2.1
      have hhanded : (self.hand telegram).Filled :=
        ⟨hfilled.stored, hfilled.count, hfilled.inside, hfilled.outside⟩
      exact (storeData_filled hhanded hcount hroom).finishOrContinue
    · rw [append_dropped hfirst hnext]
      refine ⟨houtside, fun hstill => ?_, fun hfalse => by cases hfalse⟩
      have hfilled := hbusy hstill
      exact ⟨hfilled.stored, hfilled.count, hfilled.inside, hfilled.outside⟩

end Reassembly

/-- The assembly keeps to its bounds while the telegrams handed over fit. -/
structure Assembly.InBounds (assembly : Assembly) : Prop where
  sound : Sound assembly.reassembly assembly.delivered
  busy : assembly.reassembly.currentReceiveCANId ≠ 0 → assembly.reassembly.Filled

theorem Assembly.InBounds.hand {NOW : Nat → Int64} {assembly next : Assembly}
    {telegram : Telegram} (h : assembly.InBounds) (hfits : assembly.reassembly.Fits telegram)
    (hhand : assembly.hand NOW telegram = some next) : next.InBounds := by
  have happended := Reassembly.append_sound NOW h.sound.1 h.busy hfits
  unfold Assembly.hand at hhand
  cases hresult : assembly.reassembly.append NOW telegram with
  | mk complete after =>
  rw [hresult] at hhand happended
  cases hhand
  obtain ⟨houtside, hbusy, hcomplete⟩ := happended
  refine ⟨⟨houtside, ?_⟩, hbusy⟩
  cases complete with
  | false => exact h.sound.2
  | true =>
    intro message hmem
    cases List.mem_append.mp hmem with
    | inl hearlier => exact h.sound.2 message hearlier
    | inr hlast =>
      rw [List.mem_singleton.mp hlast]
      exact hcomplete rfl

/-- In every state of a run whose telegrams all fit when they are handed over, nothing has been
stored outside the message buffer and every delivered byte was stored for its message. -/
theorem Session.reassembly_sound (NOW : Nat → Int64) (memory : LinkinterfaceCAN)
    (actions : List Action)
    (hfits : Along (Assembly.hand NOW) (fun assembly => assembly.reassembly.Fits)
      ⟨memory.construct.reassembly, []⟩ (after NOW memory actions).link.reassembly.handed) :
    Always (Session.step NOW)
      (fun session => Sound session.link.reassembly session.delivered)
      (Session.start memory) actions := by
  apply always_of_prefixes
  rintro beginning between ⟨rest, hsplit⟩ hbeginning
  have hrun := run_after NOW memory actions
  rw [← hsplit] at hrun hfits
  obtain ⟨middle, hmiddle, hthen⟩ := exists_of_run_append hrun
  rw [hbeginning] at hmiddle
  cases hmiddle
  obtain ⟨reception, htracks, _⟩ := (Session.tracks_start NOW memory).of_run hbeginning
  obtain ⟨later, hlater, ⟨telegrams, hgrown⟩, _⟩ := htracks.of_run hthen
  rw [hlater.reassembly, ← hgrown] at hfits
  have hstart : Assembly.InBounds ⟨memory.construct.reassembly, []⟩ :=
    ⟨⟨fun _ hstored => absurd rfl hstored, fun _ hmem => by cases hmem⟩,
      fun hbusy => absurd rfl hbusy⟩
  have hbounds := run_invariant_along (fun _ _ _ hinside hfit hhand => hinside.hand hfit hhand)
    hstart hfits.of_append htracks.assembled
  rw [htracks.reassembly]
  exact hbounds.sound

/-- A message of eight bytes in two telegrams. -/
theorem Session.reassembly_sound_two_telegrams :
    Always (Session.step fun _ => 0)
      (fun session => Sound session.link.reassembly session.delivered)
      (Session.start .zeroed)
      [.arrive (.ofBytes 0x1C000102 [0, 0, 8, 1, 2, 3, 4, 5] 8), .getNetworkMsg,
        .arrive (.ofBytes 0x1C000102 [1, 6, 7, 8] 4), .getNetworkMsg] :=
  Session.reassembly_sound (fun _ => 0) .zeroed _ (by decide)

/-- A first telegram of two bytes completes a message of one byte, none of which it carries; and a
message announced with 65535 bytes is stored behind the end of the message buffer. -/
theorem Session.reassembly_unsound :
    let short := after (fun _ => 0) .zeroed
      [.arrive (.ofBytes 0x1C000102 [0, 0, 1] 2), .getNetworkMsg]
    let long := after (fun _ => 0) .zeroed
      (.arrive (.ofBytes 0x1C000102 [0, 0xFF, 0xFF] 8) ::
        (List.range 186).map (fun i => .arrive (.ofBytes 0x1C000102 [UInt8.ofNat (i + 1)] 8)) ++
        [.getNetworkMsg])
    short.returned = some true ∧ ¬ Sound short.link.reassembly short.delivered ∧
      ¬ Sound long.link.reassembly long.delivered := by
  refine ⟨by decide, fun hsound => ?_, fun hsound => ?_⟩
  · have hincomplete : ∃ message ∈ (after (fun _ => 0) .zeroed
        [.arrive (.ofBytes 0x1C000102 [0, 0, 1] 2), .getNetworkMsg]).delivered,
        ¬ ∀ index < message.currentMsg.getLen.toNat,
          message.storedFor index = some message.message := by decide
    obtain ⟨message, hmem, hmissing⟩ := hincomplete
    exact hmissing (hsound.2 message hmem)
  · have hstored := hsound.1 1300
    revert hstored
    decide +kernel

end Rodos.Gateway
