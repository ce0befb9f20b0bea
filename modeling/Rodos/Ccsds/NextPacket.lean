import Mathlib.Logic.Relation
import Rodos.Ccsds.DownlinkEnvelop
import Rodos.Ccsds.UplinkEnvelop

/-! One definition of how both sides go from packet to packet, and what it returns: the packets that
lie in the frame, or an idle one at the end. -/
namespace Rodos.Ccsds
open Library Support

/-- What the packets of a direction differ in. -/
structure PacketFormat (SPHeader : Type) where
  record : PackedRecord SPHeader
  trailerSize : Nat
  /-- The length field. -/
  length : SPHeader → UInt16
  /-- The packet is idle, or none at all. -/
  refused : SPHeader → Bool

def uplinkPackets : PacketFormat UplinkSPHeader where
  record := UplinkSPHeader.format
  trailerSize := 2
  length header := header.length
  refused header := header.applicationId = 0x7ff

def downlinkPackets : PacketFormat DownlinkSPHeader where
  record := DownlinkSPHeader.format
  trailerSize := 6
  length header := header.dataPackLen
  refused header := header.typeId ≠ 0 || header.applicationId = 0x7ff

section walk

variable {TFHeader SPHeader TFTrailer : Type} (format : PacketFormat SPHeader)

/-- Where the next packet is looked for. -/
def nextIndex (envelop : CCSDSEnvelop TFHeader SPHeader TFTrailer) : UInt16 :=
  if envelop.indexOfCurrentSP = 0 then 6 else envelop.indexOfCurrentSP + envelop.lenOfCurrentSP

/-- The envelope at a packet. -/
def atPacket (envelop : CCSDSEnvelop TFHeader SPHeader TFTrailer) (index : UInt16)
    (spHeader : SPHeader) : CCSDSEnvelop TFHeader SPHeader TFTrailer :=
  { envelop with
    indexOfCurrentSP := index
    spHeader := spHeader
    lenOfCurrentSP := format.length spHeader + 7
    lenOfCurrentUserData := format.length spHeader + 7 - .ofNat format.record.size
    indexOfCurrentUserData := index + .ofNat format.record.size
    userDataBuf := (index + .ofNat format.record.size).toNat }

def nextPacket (envelop : CCSDSEnvelop TFHeader SPHeader TFTrailer) :
    Option (Bool × CCSDSEnvelop TFHeader SPHeader TFTrailer) :=
  let index := nextIndex envelop
  if index.toNat + format.record.size + format.trailerSize > envelop.lenOfCurrentTF.toNat then
    some (false, { envelop with indexOfCurrentSP := index })
  else
    (readAt index.toNat format.record.size (format.record.deserialize envelop.buf)).map
      fun header => (!format.refused header &&
          index.toNat + (format.length header + 7).toNat ≤ envelop.lenOfCurrentTF.toNat,
        atPacket format envelop index header)

end walk

theorem ite_some {α : Type} {condition : Prop} [Decidable condition] {success : Bool}
    (hsuccess : success = true ↔ ¬ condition) (after : α) :
    (if condition then some (false, after) else some (true, after)) = some (success, after) := by
  by_cases hcondition : condition
  · rw [if_pos hcondition, Bool.eq_false_iff.mpr fun htrue => hsuccess.mp htrue hcondition]
  · rw [if_neg hcondition, hsuccess.mpr hcondition]

theorem checkoutNextSP_uplink (envelop : UplinkEnvelop) :
    envelop.checkoutNextSP = nextPacket uplinkPackets envelop := by
  have hheader : UplinkSPHeader.HEADER_SIZE.toNat = uplinkPackets.record.size := rfl
  have htrailer : UplinkTFTrailer.HEADER_SIZE.toNat = uplinkPackets.trailerSize := rfl
  have hindex : (if envelop.indexOfCurrentSP = 0 then UplinkTFHeader.HEADER_SIZE
      else envelop.indexOfCurrentSP + envelop.lenOfCurrentSP) = nextIndex envelop := rfl
  have hread : UplinkSPHeader.deserialize = uplinkPackets.record.deserialize := rfl
  simp only [UplinkEnvelop.checkoutNextSP, nextPacket, hheader, htrailer, hindex, hread]
  by_cases hbeyond : (nextIndex envelop).toNat + uplinkPackets.record.size +
      uplinkPackets.trailerSize > envelop.lenOfCurrentTF.toNat
  · rw [if_pos hbeyond, if_pos hbeyond]
  · rw [if_neg hbeyond, if_neg hbeyond]
    rcases readAt (nextIndex envelop).toNat uplinkPackets.record.size
      (uplinkPackets.record.deserialize envelop.buf) with - | header
    · rfl
    · have huser : header.length + 1 - (UplinkSPHeader.HEADER_SIZE - 6) =
          header.length + 7 - 10 := by
        unfold UplinkSPHeader.HEADER_SIZE
        grind
      have hpacket : header.length + 7 - 10 + UplinkSPHeader.HEADER_SIZE = header.length + 7 := by
        unfold UplinkSPHeader.HEADER_SIZE
        grind
      simp only [huser, hpacket, Option.map_some]
      refine ite_some ?_ (atPacket uplinkPackets envelop (nextIndex envelop) header)
      simp [uplinkPackets]

theorem checkoutNextSP_downlink (envelop : DownlinkEnvelop) :
    envelop.checkoutNextSP = nextPacket downlinkPackets envelop := by
  have hheader : DownlinkSPHeader.HEADER_SIZE.toNat = downlinkPackets.record.size := rfl
  have htrailer : DownlinkTFTrailer.HEADER_SIZE.toNat = downlinkPackets.trailerSize := rfl
  have hindex : (if envelop.indexOfCurrentSP = 0 then DownlinkTFHeader.HEADER_SIZE
      else envelop.indexOfCurrentSP + envelop.lenOfCurrentSP) = nextIndex envelop := rfl
  have hread : DownlinkSPHeader.deserialize = downlinkPackets.record.deserialize := rfl
  simp only [DownlinkEnvelop.checkoutNextSP, nextPacket, hheader, htrailer, hindex, hread]
  by_cases hbeyond : (nextIndex envelop).toNat + downlinkPackets.record.size +
      downlinkPackets.trailerSize > envelop.lenOfCurrentTF.toNat
  · rw [if_pos hbeyond, if_pos hbeyond]
  · rw [if_neg hbeyond, if_neg hbeyond]
    rcases readAt (nextIndex envelop).toNat downlinkPackets.record.size
      (downlinkPackets.record.deserialize envelop.buf) with - | header
    · rfl
    · have hpacket : header.dataPackLen + 6 + 1 = header.dataPackLen + 7 := by grind
      simp only [hpacket, Option.map_some]
      refine ite_some ?_ (atPacket downlinkPackets envelop (nextIndex envelop) header)
      simp [downlinkPackets, and_assoc]

section walk

variable {TFHeader SPHeader TFTrailer : Type} {format : PacketFormat SPHeader}
  {envelop : CCSDSEnvelop TFHeader SPHeader TFTrailer} {buf : Memory UInt8} {lenTF start stop : Nat}

theorem readAt_inside {α : Type} {index count : Nat} (hinside : index + count ≤ BUF_LEN)
    (value : Nat → α) : readAt index count value = some (value index) :=
  if_pos ⟨Int.natCast_nonneg index, by exact_mod_cast hinside⟩

theorem nextPacket_beyond
    (hbeyond : (nextIndex envelop).toNat + format.record.size + format.trailerSize >
      envelop.lenOfCurrentTF.toNat) :
    ∃ after, nextPacket format envelop = some (false, after) :=
  ⟨_, if_pos hbeyond⟩

/-- The next packet, when there is room for its header and the trailer. -/
theorem nextPacket_at (hlenTF : envelop.lenOfCurrentTF.toNat ≤ TF_MAX_LEN)
    (hroom : (nextIndex envelop).toNat + format.record.size + format.trailerSize ≤
      envelop.lenOfCurrentTF.toNat) :
    let header := format.record.deserialize envelop.buf (nextIndex envelop).toNat
    nextPacket format envelop =
      some (!format.refused header &&
          (nextIndex envelop).toNat + (format.length header + 7).toNat ≤
            envelop.lenOfCurrentTF.toNat,
        atPacket format envelop (nextIndex envelop) header) := by
  intro header
  have hinside : (nextIndex envelop).toNat + format.record.size ≤ BUF_LEN := by
    unfold BUF_LEN
    omega
  rw [nextPacket, if_neg (Nat.not_lt.mpr hroom), readAt_inside hinside, Option.map_some]

theorem nextIndex_atPacket {index : UInt16} (hindex : index ≠ 0) (header : SPHeader) :
    nextIndex (atPacket format envelop index header) = index + (format.length header + 7) :=
  if_neg hindex

theorem ne_zero_of_pos {index : UInt16} (hpos : 0 < index.toNat) : index ≠ 0 := by
  rintro rfl
  cases hpos

/-- No sum of positions and lengths in a frame wraps around. -/
theorem toNat_add_of_small {a b : UInt16} (hsmall : a.toNat + b.toNat < 65536) :
    (a + b).toNat = a.toNat + b.toNat := by
  rw [UInt16.toNat_add]
  exact Nat.mod_eq_of_lt hsmall

theorem toNat_ofNat_of_small {size : Nat} (hsmall : size < 65536) :
    (UInt16.ofNat size).toNat = size :=
  UInt16.toNat_ofNat_of_lt' hsmall

theorem toNat_index_add {index : UInt16} {size : Nat}
    (hindex : index.toNat + size ≤ TF_MAX_LEN + 64) :
    (index + UInt16.ofNat size).toNat = index.toNat + size := by
  have hmax : TF_MAX_LEN = 1024 := rfl
  have hsize := @toNat_ofNat_of_small size (by omega)
  rw [toNat_add_of_small (by omega), hsize]

/-- The room that `beginNewSP` computes with signed numbers. -/
theorem toNat_maxUserLen {limit index trailer : Nat} (hlimit : limit ≤ TF_MAX_LEN) :
    (UInt16.ofNat (if (limit : Int) - index - trailer < 0 then 0
      else (limit : Int) - index - trailer).toNat).toNat = limit - (index + trailer) := by
  have hmax : TF_MAX_LEN = 1024 := rfl
  have hroom : (if (limit : Int) - index - trailer < 0 then 0
      else (limit : Int) - index - trailer).toNat = limit - (index + trailer) := by
    split <;> omega
  rw [hroom]
  exact toNat_ofNat_of_small (by omega)

/-- The packets that lie in a frame are returned one after the other. -/
theorem yields_of_laid {packets : List (SPHeader × List UInt8)}
    (hlaid : Laid format.record envelop.buf start packets stop)
    (hstart : (nextIndex envelop).toNat = start) (hpos : 0 < start)
    (hlenTF : envelop.lenOfCurrentTF.toNat ≤ TF_MAX_LEN)
    (hstop : stop + format.trailerSize ≤ envelop.lenOfCurrentTF.toNat)
    (hpackets : ∀ packet ∈ packets, format.refused packet.1 = false ∧
      (format.length packet.1).toNat + 7 = format.record.size + packet.2.length)
    (hend : stop + format.record.size + format.trailerSize > envelop.lenOfCurrentTF.toNat ∨
      format.refused (format.record.deserialize envelop.buf stop) = true) :
    Yields (nextPacket format) (fun after => (after.spHeader, after.userData)) envelop packets := by
  induction packets generalizing envelop start with
  | nil =>
    have hsame : start = stop := hlaid
    subst hsame
    by_cases hroom : start + format.record.size + format.trailerSize ≤ envelop.lenOfCurrentTF.toNat
    · have hrefused := hend.resolve_left (Nat.not_lt.mpr hroom)
      rw [← hstart] at hroom hrefused
      exact ⟨_, by rw [nextPacket_at hlenTF hroom, hrefused]; rfl⟩
    · rw [← hstart] at hroom
      exact nextPacket_beyond (Nat.not_le.mp hroom)
  | cons packet packets ih =>
    obtain ⟨header, data⟩ := packet
    obtain ⟨hheader, hdata, hrest⟩ := hlaid
    obtain ⟨⟨haccepted, hlength⟩, hlater⟩ := List.forall_mem_cons.mp hpackets
    change (format.length header).toNat + 7 = format.record.size + data.length at hlength
    have hle := hrest.le
    have hmax : TF_MAX_LEN = 1024 := rfl
    have hroom : (nextIndex envelop).toNat + format.record.size + format.trailerSize ≤
        envelop.lenOfCurrentTF.toNat := by omega
    have hseven : (format.length header + 7).toNat = (format.length header).toNat + 7 :=
      toNat_add_of_small (by change _ + 7 < 65536; omega)
    have hsize : (UInt16.ofNat format.record.size).toNat = format.record.size :=
      toNat_ofNat_of_small (by omega)
    have hlast : (nextIndex envelop).toNat + (format.length header + 7).toNat ≤
        envelop.lenOfCurrentTF.toNat := by omega
    have hnext := nextPacket_at hlenTF hroom
    simp only [hstart, hheader, haccepted] at hnext
    rw [← hstart] at hnext
    refine ⟨atPacket format envelop (nextIndex envelop) header, ?_, ?_, ?_⟩
    · rw [hnext, decide_eq_true hlast]
      rfl
    · have huser : (format.length header + 7 - UInt16.ofNat format.record.size).toNat =
          data.length := by
        rw [UInt16.toNat_sub_of_le, hseven, hsize, hlength, Nat.add_sub_cancel_left]
        rw [UInt16.le_iff_toNat_le, hseven, hsize]
        omega
      have hbuf : (nextIndex envelop + UInt16.ofNat format.record.size).toNat =
          start + format.record.size := by
        rw [toNat_add_of_small (by omega), hsize, hstart]
      refine Prod.ext rfl ?_
      rw [← hbuf, ← huser] at hdata
      exact hdata
    · refine ih hrest ?_ (by omega) hlenTF hstop hlater hend
      rw [nextIndex_atPacket (ne_zero_of_pos (by omega)), toNat_add_of_small (by omega), hseven,
        hlength, hstart, ← Nat.add_assoc]

end walk

end Rodos.Ccsds
