import Rodos.Ccsds.CheckoutTF

/-! Telecommands: what the ground has put into a frame is what the spacecraft takes out of it. -/
namespace Rodos.Ccsds
open Library Support

/-- A header for a telecommand: its values fit their fields, and it is not that of an idle
packet. -/
def UplinkSPHeader.Sent (header : UplinkSPHeader) : Prop :=
  header.applicationId ≠ 0x7ff ∧ UplinkSPHeader.format.Fits header

namespace UplinkEnvelop

section build

variable (envelop : UplinkEnvelop)

def addSP (packet : UplinkSPHeader × List UInt8) : UplinkEnvelop :=
  commitSP (envelop.beginNewSP.2.fillSP packet.1 packet.2)

/-- Every packet has user data, and not more than `beginNewSP` allows. -/
def Fits : UplinkEnvelop → List (UplinkSPHeader × List UInt8) → Prop
  | _, [] => True
  | envelop, packet :: packets =>
    1 ≤ packet.2.length ∧ packet.2.length ≤ envelop.beginNewSP.1.toNat ∧
      Fits (envelop.addSP packet) packets

def build (packets : List (UplinkSPHeader × List UInt8)) : UplinkEnvelop :=
  commitTF (packets.foldl addSP envelop.beginNewTF)

/-- A packet with the header that has been committed: its length is filled in. -/
def committed (packet : UplinkSPHeader × List UInt8) : UplinkSPHeader × List UInt8 :=
  ({ packet.1 with length := .ofNat (packet.2.length + 3) }, packet.2)

end build

variable {envelop : UplinkEnvelop} {packets : List (UplinkSPHeader × List UInt8)}

/-- The packets that are in a frame which is not complete yet. -/
structure Holds (envelop : UplinkEnvelop) (packets : List (UplinkSPHeader × List UInt8)) :
    Prop where
  laid : Laid UplinkSPHeader.format envelop.buf 6 packets envelop.indexOfCurrentSP.toNat
  index_le : envelop.indexOfCurrentSP.toNat + 2 ≤ TF_MAX_LEN
  lenOfCurrentTF_eq : envelop.lenOfCurrentTF.toNat = envelop.indexOfCurrentSP.toNat + 2

theorem holds_beginNewTF (envelop : UplinkEnvelop) : Holds envelop.beginNewTF [] where
  laid := rfl
  index_le := by
    change 6 + 2 ≤ 1024
    decide
  lenOfCurrentTF_eq := rfl

theorem fits_committed {packet : UplinkSPHeader × List UInt8}
    (hfits : UplinkSPHeader.format.Fits packet.1) :
    UplinkSPHeader.format.Fits (committed packet).1 := by
  have hlength := (UInt16.ofNat (packet.2.length + 3)).toNat_lt
  simp only [PackedRecord.Fits, UplinkSPHeader.format, UplinkSPHeader.fields, committed,
    List.forall_mem_cons] at hfits ⊢
  tauto

section addSP

variable {packet : UplinkSPHeader × List UInt8}

/-- What is left when a packet has been added. -/
structure Added (envelop : UplinkEnvelop) (packet : UplinkSPHeader × List UInt8)
    (after : UplinkEnvelop) : Prop where
  buf_eq : after.buf = UplinkSPHeader.serialize (committed packet).1
    (envelop.buf.storeAll (envelop.indexOfCurrentSP.toNat + 10) packet.2)
    envelop.indexOfCurrentSP.toNat
  index_eq : after.indexOfCurrentSP.toNat =
    envelop.indexOfCurrentSP.toNat + 10 + packet.2.length
  lenOfCurrentTF_eq : after.lenOfCurrentTF.toNat =
    envelop.lenOfCurrentTF.toNat + 10 + packet.2.length
  spHeader_eq : after.spHeader = (committed packet).1

theorem added_addSP (hindex : envelop.indexOfCurrentSP.toNat + 2 ≤ TF_MAX_LEN)
    (hlenTF : envelop.lenOfCurrentTF.toNat ≤ TF_MAX_LEN)
    (hsome : 1 ≤ packet.2.length) (hfew : packet.2.length ≤ envelop.beginNewSP.1.toNat) :
    Added envelop packet (envelop.addSP packet) ∧
      envelop.indexOfCurrentSP.toNat + 10 + packet.2.length + 2 ≤ TF_MAX_LEN := by
  have hmax : TF_MAX_LEN = 1024 := rfl
  have huserIndex : (envelop.indexOfCurrentSP + UplinkSPHeader.HEADER_SIZE).toNat =
      envelop.indexOfCurrentSP.toNat + 10 :=
    @toNat_index_add envelop.indexOfCurrentSP 10 (by omega)
  have hroom : envelop.beginNewSP.1.toNat =
      TF_MAX_LEN - (envelop.indexOfCurrentSP.toNat + 10 + 2) := by
    rw [← huserIndex]
    exact toNat_maxUserLen (Nat.le_refl _)
  rw [hroom] at hfew
  have hlen : (UInt16.ofNat packet.2.length).toNat = packet.2.length :=
    toNat_ofNat_of_small (by omega)
  have hnotEmpty : UInt16.ofNat packet.2.length ≠ 0 := ne_zero_of_pos (by omega)
  have hlenSP : (UplinkSPHeader.HEADER_SIZE + UInt16.ofNat packet.2.length).toNat =
      10 + packet.2.length := by
    rw [toNat_add_of_small (by change 10 + _ < 65536; omega), hlen]
    rfl
  have hlength : (UplinkSPHeader.HEADER_SIZE - 6) + UInt16.ofNat packet.2.length - 1 =
      UInt16.ofNat (packet.2.length + 3) := by
    rw [UplinkSPHeader.HEADER_SIZE, UInt16.ofNat_add]
    grind
  have hadd : envelop.addSP packet =
      { envelop.beginNewSP.2.fillSP packet.1 packet.2 with
        lenOfCurrentSP := UplinkSPHeader.HEADER_SIZE + UInt16.ofNat packet.2.length
        spHeader := (committed packet).1
        buf := UplinkSPHeader.serialize (committed packet).1
          (envelop.buf.storeAll (envelop.indexOfCurrentSP + UplinkSPHeader.HEADER_SIZE).toNat
            packet.2)
          envelop.indexOfCurrentSP.toNat
        indexOfCurrentSP := envelop.indexOfCurrentSP +
          (UplinkSPHeader.HEADER_SIZE + UInt16.ofNat packet.2.length)
        lenOfCurrentTF := envelop.lenOfCurrentTF +
          (UplinkSPHeader.HEADER_SIZE + UInt16.ofNat packet.2.length) } := by
    rw [committed, ← hlength]
    exact if_neg hnotEmpty
  rw [hadd]
  refine ⟨⟨?_, ?_, ?_, rfl⟩, by omega⟩
  · rw [huserIndex]
  · change (envelop.indexOfCurrentSP + _).toNat = _
    rw [toNat_add_of_small (by omega), hlenSP, Nat.add_assoc]
  · change (envelop.lenOfCurrentTF + _).toNat = _
    rw [toNat_add_of_small (by omega), hlenSP, Nat.add_assoc]

theorem Holds.addSP (h : Holds envelop packets) (hsome : 1 ≤ packet.2.length)
    (hfew : packet.2.length ≤ envelop.beginNewSP.1.toNat)
    (hfits : UplinkSPHeader.format.Fits packet.1) :
    Holds (envelop.addSP packet) (packets ++ [committed packet]) := by
  have hlenTF : envelop.lenOfCurrentTF.toNat ≤ TF_MAX_LEN := by
    rw [h.lenOfCurrentTF_eq]
    exact h.index_le
  obtain ⟨hadded, hroom⟩ := added_addSP h.index_le hlenTF hsome hfew
  have hlaid := h.laid.add (committed packet).1 packet.2
  rw [PackedRecord.cut_of_fits (fits_committed hfits)] at hlaid
  refine ⟨?_, ?_, ?_⟩
  · rw [hadded.buf_eq, hadded.index_eq]
    exact hlaid
  · rw [hadded.index_eq]
    exact hroom
  · rw [hadded.lenOfCurrentTF_eq, hadded.index_eq, h.lenOfCurrentTF_eq]
    omega

end addSP

theorem Holds.foldl {more : List (UplinkSPHeader × List UInt8)} (h : Holds envelop packets)
    (hroom : Fits envelop more)
    (hfits : ∀ packet ∈ more, UplinkSPHeader.format.Fits packet.1) :
    Holds (more.foldl UplinkEnvelop.addSP envelop) (packets ++ more.map committed) := by
  induction more generalizing envelop packets with
  | nil => simpa using h
  | cons packet more ih =>
    obtain ⟨hsome, hfew, hlater⟩ := hroom
    obtain ⟨hpacket, hothers⟩ := List.forall_mem_cons.mp hfits
    have hnext := ih (h.addSP hsome hfew hpacket) hlater hothers
    rwa [List.append_assoc, List.singleton_append] at hnext

section commitTF

theorem trailer_outside (trailer : UplinkTFTrailer) (buf : Memory UInt8) {start index : Nat}
    (hbefore : index < start) : trailer.serialize buf start index = buf index :=
  @PackedRecord.serialize_outside _ UplinkTFTrailer.format _ _ trailer _ (.inl hbefore)

/-- The header of the frame as it is committed. -/
def tfHeaderOf (envelop : UplinkEnvelop) : UplinkTFHeader :=
  { envelop.tfHeader with frameLength := envelop.lenOfCurrentTF - 1 }

theorem commitTF_before {index : Nat} (hbefore : index < envelop.lenOfCurrentTF.toNat - 2) :
    envelop.commitTF.buf index = (tfHeaderOf envelop).serialize envelop.buf 0 index :=
  (trailer_outside _ _ hbefore).trans (trailer_outside _ _ hbefore)

theorem commitTF_checked (envelop : UplinkEnvelop) :
    Checked envelop.commitTF.buf envelop.lenOfCurrentTF.toNat envelop.commitTF.tfTrailer.crc := by
  refine congrArg (crcChecker.computeCRC · CRC_SEED) (Memory.front_congr fun index hbefore => ?_)
  exact trailer_outside _ _ hbefore

theorem commitTF_trailer (envelop : UplinkEnvelop) :
    UplinkTFTrailer.deserialize envelop.commitTF.buf (envelop.lenOfCurrentTF.toNat - 2) =
      envelop.commitTF.tfTrailer := by
  have hread := @PackedRecord.deserialize_serialize _ UplinkTFTrailer.format
    envelop.commitTF.tfTrailer
  rw [PackedRecord.cut_of_fits] at hread
  · exact hread _ _
  · exact List.forall_mem_singleton.mpr envelop.commitTF.tfTrailer.crc.toNat_lt

/-- What the receiver finds in a frame that is complete. -/
structure Complete (buf : Memory UInt8) (packets : List (UplinkSPHeader × List UInt8))
    (lenTF : Nat) : Prop where
  laid : Laid UplinkSPHeader.format buf 6 packets (lenTF - 2)
  le_lenTF : 8 ≤ lenTF
  lenTF_le : lenTF ≤ TF_MAX_LEN
  frameLen_eq : frameLen buf = lenTF
  checked : Checked buf lenTF (UplinkTFTrailer.deserialize buf (lenTF - 2)).crc

theorem Holds.commitTF (h : Holds envelop packets) :
    Complete envelop.commitTF.buf packets envelop.commitTF.lenOfCurrentTF.toNat := by
  change Complete _ _ envelop.lenOfCurrentTF.toNat
  have hmax : TF_MAX_LEN = 1024 := rfl
  have hindex := h.index_le
  have hsix := h.laid.le
  have hlenTF := h.lenOfCurrentTF_eq
  have htrailerAt : envelop.lenOfCurrentTF.toNat - 2 = envelop.indexOfCurrentSP.toNat := by omega
  refine ⟨?_, by omega, by omega, ?_, ?_⟩
  · rw [htrailerAt]
    refine h.laid.congr fun index hlow hhigh => ?_
    rw [commitTF_before (by omega)]
    exact @PackedRecord.serialize_outside _ UplinkTFHeader.format _ _ _ _ (.inr hlow)
  · have hheader : UplinkTFHeader.deserialize envelop.commitTF.buf 0 =
        UplinkTFHeader.format.cut (tfHeaderOf envelop) := by
      rw [← @PackedRecord.deserialize_serialize _ UplinkTFHeader.format (tfHeaderOf envelop)
        envelop.buf 0]
      refine @PackedRecord.deserialize_congr _ UplinkTFHeader.format _ _ _ fun index _ hhigh => ?_
      have hsize : index < 0 + 6 := hhigh
      exact commitTF_before (by omega)
    have hless : (envelop.lenOfCurrentTF - 1).toNat = envelop.lenOfCurrentTF.toNat - 1 := by
      rw [UInt16.toNat_sub_of_le]
      · rfl
      · rw [UInt16.le_iff_toNat_le]
        change 1 ≤ _
        omega
    rw [frameLen, hheader]
    change (UInt16.ofNat ((envelop.lenOfCurrentTF - 1).toNat % 2 ^ 10)).toNat + 1 = _
    rw [hless, Nat.mod_eq_of_lt (by omega), toNat_ofNat_of_small (by omega)]
    omega
  · rw [commitTF_trailer]
    exact commitTF_checked envelop

end commitTF

/-- The receiver needs the bytes of the frame only. -/
theorem Complete.congr {buf other : Memory UInt8} {lenTF : Nat} (h : Complete buf packets lenTF)
    (hsame : ∀ index < lenTF, other index = buf index) : Complete other packets lenTF := by
  have hle := h.le_lenTF
  refine ⟨h.laid.congr fun index _ hhigh => hsame index (by omega), hle, h.lenTF_le, ?_, ?_⟩
  · have hheader : UplinkTFHeader.deserialize other 0 = UplinkTFHeader.deserialize buf 0 := by
      refine @PackedRecord.deserialize_congr _ UplinkTFHeader.format _ _ _ fun index _ hhigh => ?_
      have hsize : index < 0 + 6 := hhigh
      exact hsame index (by omega)
    rw [← h.frameLen_eq, frameLen, frameLen, hheader]
  · have htrailer : UplinkTFTrailer.deserialize other (lenTF - 2) =
        UplinkTFTrailer.deserialize buf (lenTF - 2) := by
      refine @PackedRecord.deserialize_congr _ UplinkTFTrailer.format _ _ _ fun index _ hhigh => ?_
      have hsize : index < lenTF - 2 + 2 := hhigh
      exact hsame index (by omega)
    rw [htrailer, ← h.checked]
    refine congrArg (crcChecker.computeCRC · CRC_SEED) (Memory.front_congr fun index hbefore => ?_)
    exact hsame index (by omega)

/-- A frame with these packets is accepted, and they are taken out of it. -/
theorem Complete.received {lenTF : Nat} {receiver : UplinkEnvelop}
    (h : Complete receiver.buf packets lenTF)
    (haccepted : ∀ packet ∈ packets, packet.1.applicationId ≠ 0x7ff ∧
      packet.1.length.toNat + 7 = 10 + packet.2.length) :
    ∃ after, receiver.checkoutTF = some (true, after) ∧
      Yields checkoutNextSP (fun after => (after.spHeader, after.userData)) after packets := by
  have hframe : (UplinkTFHeader.deserialize receiver.buf 0).frameLength ≠ 0 := by
    intro hzero
    have hlen := h.frameLen_eq
    have hle := h.le_lenTF
    rw [frameLen, hzero] at hlen
    change 0 + 1 = lenTF at hlen
    omega
  have hintact : Intact receiver.buf := by
    rw [Intact, trailerOf, h.frameLen_eq]
    exact ⟨Nat.le_trans (by decide) h.le_lenTF, h.checked⟩
  have hlenTF : receiver.opened.lenOfCurrentTF.toNat = lenTF :=
    (toNat_lenOfCurrentTF receiver.buf).trans h.frameLen_eq
  have hnext : checkoutNextSP = nextPacket uplinkPackets := funext checkoutNextSP_uplink
  refine ⟨receiver.opened, ?_, ?_⟩
  · rw [checkoutTF_eq receiver hframe, decide_eq_true hintact]
  · have hle := h.le_lenTF
    have hmax := h.lenTF_le
    rw [hnext]
    refine yields_of_laid h.laid rfl (by decide) ?_ ?_ ?_ ?_
    · rw [hlenTF]
      exact hmax
    · rw [hlenTF]
      change lenTF - 2 + 2 ≤ lenTF
      omega
    · intro packet hpacket
      obtain ⟨hidle, hlength⟩ := haccepted packet hpacket
      exact ⟨decide_eq_false hidle, hlength⟩
    · refine .inl ?_
      rw [hlenTF]
      change lenTF - 2 + 10 + 2 > lenTF
      omega

theorem taken_out (ground receiver : UplinkEnvelop)
    {packets : List (UplinkSPHeader × List UInt8)} (hroom : ground.beginNewTF.Fits packets)
    (hheaders : ∀ packet ∈ packets, packet.1.Sent)
    (hsent : ∀ index < (ground.build packets).lenOfCurrentTF.toNat,
      receiver.buf index = (ground.build packets).buf index) :
    ∃ after, receiver.checkoutTF = some (true, after) ∧
      Yields checkoutNextSP (fun after => (after.spHeader, after.userData)) after
        (packets.map committed) := by
  have hholds := (holds_beginNewTF ground).foldl hroom fun packet hpacket =>
    (hheaders packet hpacket).2
  have hcomplete := hholds.commitTF.congr hsent
  refine hcomplete.received fun packet hpacket => ?_
  obtain ⟨original, horiginal, rfl⟩ := List.mem_map.mp hpacket
  have hmax : TF_MAX_LEN = 1024 := rfl
  have hlen := hcomplete.laid.length_le hpacket
  have hlenTF := hcomplete.lenTF_le
  have hshort : original.2.length ≤ 1024 := Nat.le_trans hlen (by omega)
  refine ⟨(hheaders original horiginal).1, ?_⟩
  change (UInt16.ofNat (original.2.length + 3)).toNat + 7 = 10 + original.2.length
  rw [toNat_ofNat_of_small (by omega)]
  omega

end UplinkEnvelop

end Rodos.Ccsds
