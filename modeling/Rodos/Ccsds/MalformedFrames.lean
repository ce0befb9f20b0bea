import Rodos.Ccsds.CheckoutTF

/-! Frames with any content: which of them are taken apart without harm. The length fields of the
packets decide, and on board the one of the frame. -/
namespace Rodos.Ccsds
open Library Support Relation

section walk

variable {TFHeader SPHeader TFTrailer : Type} (format : PacketFormat SPHeader)

/-- Where the user data of a packet lies, and how long it is. -/
def userRange (envelop : CCSDSEnvelop TFHeader SPHeader TFTrailer) : Nat × Nat :=
  (envelop.userDataBuf, envelop.lenOfCurrentUserData.toNat)

/-- The user data ends before the trailer. -/
def BeforeTrailer (lenTF : Nat) (range : Nat × Nat) : Prop :=
  range.1 + range.2 + format.trailerSize ≤ lenTF

/-- A frame is looked at without a read outside of the buffer, and if it is accepted, its packets
come to an end and all have their user data before the trailer. -/
def Harmless (checkoutTF checkoutNextSP : CCSDSEnvelop TFHeader SPHeader TFTrailer →
      Option (Bool × CCSDSEnvelop TFHeader SPHeader TFTrailer))
    (envelop : CCSDSEnvelop TFHeader SPHeader TFTrailer) : Prop :=
  ∃ ok after, checkoutTF envelop = some (ok, after) ∧
    (ok = true → ∃ ranges, Yields checkoutNextSP userRange after ranges ∧
      ∀ range ∈ ranges, BeforeTrailer format after.lenOfCurrentTF.toNat range)

section frame

variable (buf : Memory UInt8) (lenTF : Nat)

def lengthAt (index : Nat) : Nat :=
  (format.length (format.record.deserialize buf index)).toNat

/-- There is a packet that is not idle, and it does not lead beyond the end of the frame, as its
length is added up with 16 bits. -/
def Offered (index : Nat) : Prop :=
  index + format.record.size + format.trailerSize ≤ lenTF ∧
    format.refused (format.record.deserialize buf index) = false ∧
    index + (lengthAt format buf index + 7) % 2 ^ 16 ≤ lenTF

/-- The packet is not shorter than its header, and it ends before the trailer. -/
def Contained (index : Nat) : Prop :=
  format.record.size ≤ lengthAt format buf index + 7 ∧
    lengthAt format buf index + 7 + index + format.trailerSize ≤ lenTF

/-- Where the length of a packet leads to. -/
def Follows (index later : Nat) : Prop :=
  Offered format buf lenTF index ∧ Contained format buf lenTF index ∧
    later = index + lengthAt format buf index + 7

/-- All packets that the lengths lead to, from the first one on, are contained in the frame. -/
def Sane (start : Nat) : Prop :=
  ∀ index, ReflTransGen (Follows format buf lenTF) start index →
    Offered format buf lenTF index → Contained format buf lenTF index

end frame

variable {format} {buf : Memory UInt8} {lenTF start : Nat}

theorem sane_iff_of_not_offered (hnot : ¬ Offered format buf lenTF start) :
    Sane format buf lenTF start ↔ True := by
  refine iff_true_intro fun index hreached hoffered => ?_
  obtain rfl | ⟨next, hfollows, -⟩ := hreached.cases_head
  · exact absurd hoffered hnot
  · exact absurd hfollows.1 hnot

theorem sane_iff_of_offered (hoffered : Offered format buf lenTF start) :
    Sane format buf lenTF start ↔ Contained format buf lenTF start ∧
      Sane format buf lenTF (start + lengthAt format buf start + 7) := by
  constructor
  · intro hsane
    have hcontained := hsane start .refl hoffered
    exact ⟨hcontained, fun index hreached =>
      hsane index (.head ⟨hoffered, hcontained, rfl⟩ hreached)⟩
  · rintro ⟨hcontained, hlater⟩ index hreached
    obtain rfl | ⟨next, ⟨-, -, rfl⟩, hrest⟩ := hreached.cases_head
    · exact fun _ => hcontained
    · exact hlater index hrest

variable {envelop : CCSDSEnvelop TFHeader SPHeader TFTrailer}

/-- A packet is returned exactly when it is offered. -/
theorem nextPacket_offered (hlenTF : envelop.lenOfCurrentTF.toNat ≤ TF_MAX_LEN)
    [Decidable (Offered format envelop.buf envelop.lenOfCurrentTF.toNat
      (nextIndex envelop).toNat)] :
    ∃ after, nextPacket format envelop =
        some (decide (Offered format envelop.buf envelop.lenOfCurrentTF.toNat
          (nextIndex envelop).toNat), after) ∧
      (Offered format envelop.buf envelop.lenOfCurrentTF.toNat (nextIndex envelop).toNat →
        after = atPacket format envelop (nextIndex envelop)
          (format.record.deserialize envelop.buf (nextIndex envelop).toNat)) := by
  by_cases hroom : (nextIndex envelop).toNat + format.record.size + format.trailerSize ≤
      envelop.lenOfCurrentTF.toNat
  · refine ⟨_, (nextPacket_at hlenTF hroom).trans ?_, fun _ => rfl⟩
    have hseven (length : UInt16) : (length + 7).toNat = (length.toNat + 7) % 2 ^ 16 :=
      UInt16.toNat_add length 7
    congr 2
    rw [hseven, Bool.eq_iff_iff]
    simp only [Offered, lengthAt, hroom, true_and, Bool.and_eq_true, Bool.not_eq_true',
      decide_eq_true_eq]
  · obtain ⟨after, hfails⟩ := nextPacket_beyond (Nat.not_le.mp hroom)
    have hnot : ¬ Offered format envelop.buf envelop.lenOfCurrentTF.toNat
        (nextIndex envelop).toNat :=
      fun hoffered => hroom hoffered.1
    exact ⟨after, by rw [hfails, decide_eq_false hnot], fun hoffered => absurd hoffered hnot⟩

/-- The user data of a packet that is offered ends before the trailer exactly when the packet is
contained: a length that is too short for the header, or that wraps around, is that of far too
much user data. -/
theorem beforeTrailer_iff (hlow : 7 ≤ format.record.size) (hhigh : format.record.size ≤ 64)
    (hlenTF : lenTF ≤ TF_MAX_LEN) {index : UInt16}
    (hoffered : Offered format envelop.buf lenTF index.toNat) :
    BeforeTrailer format lenTF (userRange (atPacket format envelop index
        (format.record.deserialize envelop.buf index.toNat))) ↔
      Contained format envelop.buf lenTF index.toNat := by
  have hmax : TF_MAX_LEN = 1024 := rfl
  have hroom := hoffered.1
  set length := format.length (format.record.deserialize envelop.buf index.toNat) with hdef
  have hlength : lengthAt format envelop.buf index.toNat = length.toNat := rfl
  have hlt := length.toNat_lt
  have hstart : (index + UInt16.ofNat format.record.size).toNat =
      index.toNat + format.record.size := toNat_index_add (by omega)
  have hsize : (UInt16.ofNat format.record.size).toNat = format.record.size :=
    toNat_ofNat_of_small (by omega)
  have huser : (length + 7 - UInt16.ofNat format.record.size).toNat =
      (65536 - format.record.size + (length.toNat + 7) % 65536) % 65536 := by
    rw [UInt16.toNat_sub, hsize, UInt16.toNat_add]
    rfl
  change (index + UInt16.ofNat format.record.size).toNat +
      (length + 7 - UInt16.ofNat format.record.size).toNat + format.trailerSize ≤ lenTF ↔ _
  rw [Contained, hlength, hstart, huser]
  omega

/-- Repeated calls end and return user data before the trailer only, exactly when all packets are
contained. By induction on what is left of the frame. -/
theorem walk_iff (hlow : 7 ≤ format.record.size) (hhigh : format.record.size ≤ 64)
    (hlenTF : envelop.lenOfCurrentTF.toNat ≤ TF_MAX_LEN) (hpos : 0 < (nextIndex envelop).toNat) :
    (∃ ranges, Yields (nextPacket format) userRange envelop ranges ∧
        ∀ range ∈ ranges, BeforeTrailer format envelop.lenOfCurrentTF.toNat range) ↔
      Sane format envelop.buf envelop.lenOfCurrentTF.toNat (nextIndex envelop).toNat := by
  induction hleft : envelop.lenOfCurrentTF.toNat - (nextIndex envelop).toNat
    using Nat.strong_induction_on generalizing envelop with
  | _ left ih =>
    classical
    obtain ⟨after, hnext, hafter⟩ := @nextPacket_offered _ _ _ format envelop hlenTF _
    rw [exists_yields_iff hnext, decide_eq_true_iff]
    by_cases hoffered :
        Offered format envelop.buf envelop.lenOfCurrentTF.toNat (nextIndex envelop).toNat
    · rw [sane_iff_of_offered hoffered, forall_prop_of_true hoffered, hafter hoffered,
        beforeTrailer_iff hlow hhigh hlenTF hoffered]
      refine and_congr_right fun hcontained => ?_
      have hmax : TF_MAX_LEN = 1024 := rfl
      have hend := hcontained.2
      set header := format.record.deserialize envelop.buf (nextIndex envelop).toNat with hdef
      have hlength : lengthAt format envelop.buf (nextIndex envelop).toNat =
          (format.length header).toNat := rfl
      have hlater : (nextIndex (atPacket format envelop (nextIndex envelop) header)).toNat =
          (nextIndex envelop).toNat + lengthAt format envelop.buf (nextIndex envelop).toNat +
            7 := by
        rw [nextIndex_atPacket (ne_zero_of_pos hpos), UInt16.toNat_add, UInt16.toNat_add, hlength,
          Nat.add_mod_mod, ← Nat.add_assoc]
        exact Nat.mod_eq_of_lt (by change _ + 7 < 65536; omega)
      rw [← hlater]
      refine ih _ ?_ hlenTF (by omega) rfl
      change envelop.lenOfCurrentTF.toNat - _ < left
      omega
    · rw [sane_iff_of_not_offered hoffered]
      exact iff_true_intro fun h => absurd h hoffered

theorem harmless_iff_of_checkout {checkoutTF : CCSDSEnvelop TFHeader SPHeader TFTrailer →
      Option (Bool × CCSDSEnvelop TFHeader SPHeader TFTrailer)}
    {intact : Prop} [Decidable intact] {opened : CCSDSEnvelop TFHeader SPHeader TFTrailer}
    (hcheckout : checkoutTF envelop = some (decide intact, opened))
    (hfirst : (nextIndex opened).toNat = 6) (hlow : 7 ≤ format.record.size)
    (hhigh : format.record.size ≤ 64) (hlenTF : opened.lenOfCurrentTF.toNat ≤ TF_MAX_LEN) :
    Harmless format checkoutTF (nextPacket format) envelop ↔
      (intact → Sane format opened.buf opened.lenOfCurrentTF.toNat 6) := by
  have hpos : 0 < (nextIndex opened).toNat := by rw [hfirst]; decide
  have hwalk := walk_iff hlow hhigh hlenTF hpos
  rw [hfirst] at hwalk
  constructor
  · rintro ⟨ok, after, hopened, hends⟩ hintact
    rw [hcheckout, decide_eq_true hintact] at hopened
    cases hopened
    exact hwalk.mp (hends rfl)
  · intro hsane
    exact ⟨_, _, hcheckout, fun hok => hwalk.mpr (hsane (of_decide_eq_true hok))⟩

end walk

/-- On board, a frame has to have a length that is not zero, and its packets must not lead out of
it. -/
theorem uplink_harmless_iff (envelop : UplinkEnvelop) :
    Harmless uplinkPackets UplinkEnvelop.checkoutTF UplinkEnvelop.checkoutNextSP envelop ↔
      (UplinkTFHeader.deserialize envelop.buf 0).frameLength ≠ 0 ∧
        (UplinkEnvelop.Intact envelop.buf →
          Sane uplinkPackets envelop.buf (UplinkEnvelop.frameLen envelop.buf) 6) := by
  have hnext : UplinkEnvelop.checkoutNextSP = nextPacket uplinkPackets :=
    funext checkoutNextSP_uplink
  by_cases hframe : (UplinkTFHeader.deserialize envelop.buf 0).frameLength = 0
  · refine iff_of_false ?_ fun h => h.1 hframe
    rintro ⟨ok, after, hcheckout, -⟩
    rw [UplinkEnvelop.checkoutTF_outside envelop hframe] at hcheckout
    cases hcheckout
  · have hlenTF : envelop.opened.lenOfCurrentTF.toNat = UplinkEnvelop.frameLen envelop.buf :=
      UplinkEnvelop.toNat_lenOfCurrentTF envelop.buf
    have hmax : envelop.opened.lenOfCurrentTF.toNat ≤ TF_MAX_LEN := by
      rw [hlenTF]
      exact UplinkEnvelop.frameLen_le envelop.buf
    rw [hnext, harmless_iff_of_checkout (UplinkEnvelop.checkoutTF_eq envelop hframe) rfl (by decide)
      (by decide) hmax, hlenTF]
    exact (and_iff_right hframe).symm

/-- On the ground, only the packets matter. -/
theorem downlink_harmless_iff (envelop : DownlinkEnvelop) :
    Harmless downlinkPackets DownlinkEnvelop.checkoutTF DownlinkEnvelop.checkoutNextSP envelop ↔
      (DownlinkEnvelop.Intact envelop.buf →
        Sane downlinkPackets envelop.buf DOWNLINK_TF_LEN.toNat 6) := by
  have hnext : DownlinkEnvelop.checkoutNextSP = nextPacket downlinkPackets :=
    funext checkoutNextSP_downlink
  have hmax : DOWNLINK_TF_LEN.toNat ≤ TF_MAX_LEN := by decide
  rw [hnext, harmless_iff_of_checkout (DownlinkEnvelop.checkoutTF_eq envelop) rfl (by decide)
    (by decide) hmax]
  rfl

/-- A frame of any content is harmless on board exactly when its length is not zero, and on both
sides exactly when, if its checksum is right, all packets in it lie before its trailer. -/
theorem harmless_iff_sane (uplink : UplinkEnvelop) (downlink : DownlinkEnvelop) :
    (Harmless uplinkPackets UplinkEnvelop.checkoutTF UplinkEnvelop.checkoutNextSP uplink ↔
        (UplinkTFHeader.deserialize uplink.buf 0).frameLength ≠ 0 ∧
          (UplinkEnvelop.Intact uplink.buf →
            Sane uplinkPackets uplink.buf (UplinkEnvelop.frameLen uplink.buf) 6)) ∧
      (Harmless downlinkPackets DownlinkEnvelop.checkoutTF DownlinkEnvelop.checkoutNextSP downlink ↔
        (DownlinkEnvelop.Intact downlink.buf →
          Sane downlinkPackets downlink.buf DOWNLINK_TF_LEN.toNat 6)) :=
  ⟨uplink_harmless_iff uplink, downlink_harmless_iff downlink⟩

/-- A buffer as it is found in the memory of the receiver. -/
def receiving {TFHeader SPHeader TFTrailer : Type} (tfHeader : TFHeader) (spHeader : SPHeader)
    (tfTrailer : TFTrailer) (bytes : List UInt8) : CCSDSEnvelop TFHeader SPHeader TFTrailer where
  buf index := bytes.getD index 0
  indexOfCurrentUserData := 0
  lenOfCurrentTF := 0
  lenOfCurrentSP := 0
  lenOfCurrentUserData := 0
  indexOfCurrentSP := 0
  userDataBuf := 0
  tfHeader := tfHeader
  spHeader := spHeader
  tfTrailer := tfTrailer

/-- A frame with the right checksum and a packet whose length field is zero. -/
def frameOfShortPacket : List UInt8 :=
  [0, 0, 0, 17, 0, 0, 0, 0, 0, 0, 0, 0, 0, 0, 0, 0, 0x39, 0xdd]

theorem harmful_frames :
    ¬ Harmless uplinkPackets UplinkEnvelop.checkoutTF UplinkEnvelop.checkoutNextSP
        (receiving {} {} {} []) ∧
      ¬ Harmless uplinkPackets UplinkEnvelop.checkoutTF UplinkEnvelop.checkoutNextSP
        (receiving {} {} {} frameOfShortPacket) := by
  refine ⟨?_, ?_⟩
  · rw [uplink_harmless_iff]
    exact fun h => h.1 (by decide +kernel)
  · rw [uplink_harmless_iff]
    rintro ⟨-, hsane⟩
    have hcontained := hsane (by decide +kernel) 6 .refl (by rw [Offered]; decide +kernel)
    revert hcontained
    unfold Contained
    decide +kernel

end Rodos.Ccsds
