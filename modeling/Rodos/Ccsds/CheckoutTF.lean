import Rodos.Ccsds.NextPacket

/-! Which frames are accepted: those with the right checksum, and on board only if the length in the
header can be that of a frame. -/
namespace Rodos.Ccsds
open Library Support

/-- The checksum in the trailer is that of the bytes before it. -/
def Checked (buf : Memory UInt8) (lenTF : Nat) (crc : UInt16) : Prop :=
  crcChecker.computeCRC (buf.front (lenTF - 2)) CRC_SEED = crc

instance (buf : Memory UInt8) (lenTF : Nat) (crc : UInt16) : Decidable (Checked buf lenTF crc) :=
  inferInstanceAs (Decidable (_ = _))

namespace UplinkEnvelop

/-- The length of the frame, as its header tells. -/
def frameLen (buf : Memory UInt8) : Nat :=
  (UplinkTFHeader.deserialize buf 0).frameLength.toNat + 1

def trailerOf (buf : Memory UInt8) : UplinkTFTrailer :=
  UplinkTFTrailer.deserialize buf (frameLen buf - 2)

/-- The frame has a length that is possible, and its checksum is right. -/
def Intact (buf : Memory UInt8) : Prop :=
  6 ≤ frameLen buf ∧ Checked buf (frameLen buf) (trailerOf buf).crc

instance (buf : Memory UInt8) : Decidable (Intact buf) := inferInstanceAs (Decidable (_ ∧ _))

/-- The envelope when its frame has been looked at. -/
def opened (envelop : UplinkEnvelop) : UplinkEnvelop :=
  { envelop with
    indexOfCurrentSP := 0
    tfHeader := UplinkTFHeader.deserialize envelop.buf 0
    lenOfCurrentTF := (UplinkTFHeader.deserialize envelop.buf 0).frameLength + 1
    tfTrailer := trailerOf envelop.buf }

theorem frameLength_lt (buf : Memory UInt8) :
    (UplinkTFHeader.deserialize buf 0).frameLength.toNat < 2 ^ 10 := by
  have hread := buf.bits.read_lt 22 10
  change (getBitField buf 0 22 10).toUInt16.toNat < _
  rw [toUInt16_getBitField buf 0 22 (by decide)]
  exact Nat.lt_of_le_of_lt (Nat.mod_le _ _) hread

theorem frameLen_le (buf : Memory UInt8) : frameLen buf ≤ TF_MAX_LEN := frameLength_lt buf

theorem toNat_lenOfCurrentTF (buf : Memory UInt8) :
    ((UplinkTFHeader.deserialize buf 0).frameLength + 1).toNat = frameLen buf := by
  have hlt := frameLength_lt buf
  exact toNat_add_of_small (by change _ + 1 < 65536; omega)

variable (envelop : UplinkEnvelop)

theorem readAt_header : readAt 0 UplinkTFHeader.HEADER_SIZE.toNat
    (UplinkTFHeader.deserialize envelop.buf) = some (UplinkTFHeader.deserialize envelop.buf 0) :=
  rfl

/-- A frame that seems to be one byte long has a trailer that begins before the buffer. -/
theorem checkoutTF_outside
    (hframe : (UplinkTFHeader.deserialize envelop.buf 0).frameLength = 0) :
    envelop.checkoutTF = none := by
  rw [checkoutTF, readAt_header]
  simp only [hframe]
  rfl

theorem checkoutTF_eq (hframe : (UplinkTFHeader.deserialize envelop.buf 0).frameLength ≠ 0) :
    envelop.checkoutTF = some (decide (Intact envelop.buf), envelop.opened) := by
  have hmax := frameLen_le envelop.buf
  have hmin : 2 ≤ frameLen envelop.buf := by
    have hpos : (UplinkTFHeader.deserialize envelop.buf 0).frameLength.toNat ≠ 0 := fun hzero =>
      hframe (UInt16.toNat_inj.mp hzero)
    unfold frameLen
    omega
  have hsmall : TF_MAX_LEN = 1024 := rfl
  have hlen : BUF_LEN = 1034 := rfl
  have htrailer : readAt (frameLen envelop.buf - UplinkTFTrailer.HEADER_SIZE.toNat : Int)
      UplinkTFTrailer.HEADER_SIZE.toNat (UplinkTFTrailer.deserialize envelop.buf) =
        some (trailerOf envelop.buf) := by
    have hindex : (frameLen envelop.buf - UplinkTFTrailer.HEADER_SIZE.toNat : Int) =
        ((frameLen envelop.buf - 2 : Nat) : Int) := by
      change (frameLen envelop.buf : Int) - 2 = _
      omega
    rw [hindex]
    exact readAt_inside (by change frameLen envelop.buf - 2 + 2 ≤ BUF_LEN; omega) _
  have hcrc (value : UInt16) : readAt 0 (frameLen envelop.buf - 2) (fun _ => value) = some value :=
    @readAt_inside _ 0 _ (by omega) _
  rw [checkoutTF, readAt_header]
  simp only [toNat_lenOfCurrentTF, htrailer, hcrc]
  rw [if_neg (Nat.not_lt.mpr hmax)]
  have hshort : (UplinkTFHeader.deserialize envelop.buf 0).frameLength + 1 <
      UplinkTFHeader.HEADER_SIZE ↔ frameLen envelop.buf < 6 := by
    rw [UInt16.lt_iff_toNat_lt, toNat_lenOfCurrentTF]
    rfl
  by_cases hsix : frameLen envelop.buf < 6
  · have hbad : ¬ Intact envelop.buf := fun hintact => Nat.not_le.mpr hsix hintact.1
    rw [if_pos (hshort.mpr hsix), decide_eq_false hbad]
    rfl
  · have hsame : Intact envelop.buf ↔
        crcChecker.computeCRC (envelop.buf.front (frameLen envelop.buf - 2)) CRC_SEED =
          (trailerOf envelop.buf).crc :=
      and_iff_right (Nat.not_lt.mp hsix)
    rw [if_neg (mt hshort.mp hsix), decide_eq_decide.mpr hsame]
    rfl

end UplinkEnvelop

namespace DownlinkEnvelop

def trailerOf (buf : Memory UInt8) : DownlinkTFTrailer := DownlinkTFTrailer.deserialize buf 994

/-- The checksum of the frame is right. -/
def Intact (buf : Memory UInt8) : Prop := Checked buf 1000 (trailerOf buf).crc

instance (buf : Memory UInt8) : Decidable (Intact buf) :=
  inferInstanceAs (Decidable (Checked _ _ _))

variable (envelop : DownlinkEnvelop)

/-- The envelope when its frame has been looked at. -/
def opened : DownlinkEnvelop :=
  { envelop with
    indexOfCurrentSP := 0
    tfHeader := DownlinkTFHeader.deserialize envelop.buf 0
    lenOfCurrentTF := DOWNLINK_TF_LEN
    tfTrailer := trailerOf envelop.buf }

theorem checkoutTF_eq :
    envelop.checkoutTF = some (decide (Intact envelop.buf), envelop.opened) := by
  have hheader : readAt 0 DownlinkTFHeader.HEADER_SIZE.toNat
      (DownlinkTFHeader.deserialize envelop.buf) =
        some (DownlinkTFHeader.deserialize envelop.buf 0) := rfl
  have htrailer : readAt (DOWNLINK_TF_LEN.toNat - DownlinkTFTrailer.HEADER_SIZE.toNat : Int)
      DownlinkTFTrailer.HEADER_SIZE.toNat (DownlinkTFTrailer.deserialize envelop.buf) =
        some (trailerOf envelop.buf) := rfl
  have hcrc (value : UInt16) : readAt 0 (DOWNLINK_TF_LEN.toNat - 2) (fun _ => value) = some value :=
    rfl
  rw [checkoutTF, hheader]
  simp only [htrailer, hcrc]
  rfl

end DownlinkEnvelop

end Rodos.Ccsds
