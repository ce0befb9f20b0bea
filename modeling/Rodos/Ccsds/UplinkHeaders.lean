import Rodos.Library.PackedRecord
import Rodos.Support.StreamBytesex

/-! The headers of telecommand frames and packets, as the generated serializers write them: fields
of bits one behind the other. -/
namespace Rodos.Ccsds
open Library Support

structure UplinkTFHeader where
  version : UInt8 := 0
  bypassFlag : UInt8 := 0
  controllCommandFlag : UInt8 := 0
  spare1 : UInt8 := 0
  spacecraftID : UInt16 := 0
  virtualChannelID : UInt8 := 0
  frameLength : UInt16 := 0
  frameSequenceNr : UInt8 := 0
  sequenceFlags : UInt8 := 0
  multiplexAceessPoint : UInt8 := 0

namespace UplinkTFHeader

def HEADER_SIZE : UInt16 := 6

def serialize (header : UplinkTFHeader) (buf : Memory UInt8) (start : Nat) : Memory UInt8 :=
  let buf := setBitField buf start 0 2 header.version.toUInt32
  let buf := setBitField buf start 2 1 header.bypassFlag.toUInt32
  let buf := setBitField buf start 3 1 header.controllCommandFlag.toUInt32
  let buf := setBitField buf start 4 2 header.spare1.toUInt32
  let buf := setBitField buf start 6 10 header.spacecraftID.toUInt32
  let buf := setBitField buf start 16 6 header.virtualChannelID.toUInt32
  let buf := setBitField buf start 22 10 header.frameLength.toUInt32
  let buf := buf.store (start + 4) header.frameSequenceNr
  let buf := setBitField buf start 40 2 header.sequenceFlags.toUInt32
  setBitField buf start 42 6 header.multiplexAceessPoint.toUInt32

def deserialize (buf : Memory UInt8) (start : Nat) : UplinkTFHeader where
  version := (getBitField buf start 0 2).toUInt8
  bypassFlag := (getBitField buf start 2 1).toUInt8
  controllCommandFlag := (getBitField buf start 3 1).toUInt8
  spare1 := (getBitField buf start 4 2).toUInt8
  spacecraftID := (getBitField buf start 6 10).toUInt16
  virtualChannelID := (getBitField buf start 16 6).toUInt8
  frameLength := (getBitField buf start 22 10).toUInt16
  frameSequenceNr := buf (start + 4)
  sequenceFlags := (getBitField buf start 40 2).toUInt8
  multiplexAceessPoint := (getBitField buf start 42 6).toUInt8

def fields (header : UplinkTFHeader) : List (Nat × Nat) :=
  [(2, header.version.toNat), (1, header.bypassFlag.toNat), (1, header.controllCommandFlag.toNat),
    (2, header.spare1.toNat), (10, header.spacecraftID.toNat), (6, header.virtualChannelID.toNat),
    (10, header.frameLength.toNat), (8, header.frameSequenceNr.toNat),
    (2, header.sequenceFlags.toNat), (6, header.multiplexAceessPoint.toNat)]

def ofValues : List Nat → UplinkTFHeader
  | [version, bypassFlag, controllCommandFlag, spare1, spacecraftID, virtualChannelID, frameLength,
      frameSequenceNr, sequenceFlags, multiplexAceessPoint] =>
    { version := .ofNat version
      bypassFlag := .ofNat bypassFlag
      controllCommandFlag := .ofNat controllCommandFlag
      spare1 := .ofNat spare1
      spacecraftID := .ofNat spacecraftID
      virtualChannelID := .ofNat virtualChannelID
      frameLength := .ofNat frameLength
      frameSequenceNr := .ofNat frameSequenceNr
      sequenceFlags := .ofNat sequenceFlags
      multiplexAceessPoint := .ofNat multiplexAceessPoint }
  | _ => {}

def format : PackedRecord UplinkTFHeader where
  size := 6
  widths := [2, 1, 1, 2, 10, 6, 10, 8, 2, 6]
  fields := fields
  ofValues := ofValues
  serialize := serialize
  deserialize := deserialize
  sum_widths := rfl
  map_fields _ := rfl
  ofValues_fields header := by simp [fields, ofValues]
  bits_serialize header buf start := by
    simp (disch := decide) [serialize, fields, Bits.pack, bits_setBitField, Memory.bits_store,
      Nat.add_assoc, Nat.mul_add]
  deserialize_eq buf start := by
    simp (disch := decide) [deserialize, ofValues, Bits.unpack, toUInt8_getBitField,
      toUInt16_getBitField, Nat.add_assoc]
    exact buf.byte_eq_read (start + 4)

end UplinkTFHeader

structure UplinkSPHeader where
  version : UInt8 := 0
  type : UInt8 := 0
  secondaryHeaderFlag : UInt8 := 0
  applicationId : UInt16 := 0
  sequenceFlags : UInt8 := 0
  sequenceCounter : UInt16 := 0
  length : UInt16 := 0
  pusSecondaryHeaderFlag : UInt8 := 0
  pusVersion : UInt8 := 0
  ackType : UInt8 := 0
  serviceType : UInt8 := 0
  serviceSubtype : UInt8 := 0
  sourceID : UInt8 := 0
deriving DecidableEq

namespace UplinkSPHeader

def HEADER_SIZE : UInt16 := 10

def serialize (header : UplinkSPHeader) (buf : Memory UInt8) (start : Nat) : Memory UInt8 :=
  let buf := setBitField buf start 0 3 header.version.toUInt32
  let buf := setBitField buf start 3 1 header.type.toUInt32
  let buf := setBitField buf start 4 1 header.secondaryHeaderFlag.toUInt32
  let buf := setBitField buf start 5 11 header.applicationId.toUInt32
  let buf := setBitField buf start 16 2 header.sequenceFlags.toUInt32
  let buf := setBitField buf start 18 14 header.sequenceCounter.toUInt32
  let buf := buf.storeBigEndian (start + 4) 2 header.length.toNat
  let buf := setBitField buf start 48 1 header.pusSecondaryHeaderFlag.toUInt32
  let buf := setBitField buf start 49 3 header.pusVersion.toUInt32
  let buf := setBitField buf start 52 4 header.ackType.toUInt32
  let buf := buf.store (start + 7) header.serviceType
  let buf := buf.store (start + 8) header.serviceSubtype
  buf.store (start + 9) header.sourceID

def deserialize (buf : Memory UInt8) (start : Nat) : UplinkSPHeader where
  version := (getBitField buf start 0 3).toUInt8
  type := (getBitField buf start 3 1).toUInt8
  secondaryHeaderFlag := (getBitField buf start 4 1).toUInt8
  applicationId := (getBitField buf start 5 11).toUInt16
  sequenceFlags := (getBitField buf start 16 2).toUInt8
  sequenceCounter := (getBitField buf start 18 14).toUInt16
  length := .ofNat (buf.loadBigEndian (start + 4) 2)
  pusSecondaryHeaderFlag := (getBitField buf start 48 1).toUInt8
  pusVersion := (getBitField buf start 49 3).toUInt8
  ackType := (getBitField buf start 52 4).toUInt8
  serviceType := buf (start + 7)
  serviceSubtype := buf (start + 8)
  sourceID := buf (start + 9)

def fields (header : UplinkSPHeader) : List (Nat × Nat) :=
  [(3, header.version.toNat), (1, header.type.toNat), (1, header.secondaryHeaderFlag.toNat),
    (11, header.applicationId.toNat), (2, header.sequenceFlags.toNat),
    (14, header.sequenceCounter.toNat), (16, header.length.toNat),
    (1, header.pusSecondaryHeaderFlag.toNat), (3, header.pusVersion.toNat),
    (4, header.ackType.toNat), (8, header.serviceType.toNat), (8, header.serviceSubtype.toNat),
    (8, header.sourceID.toNat)]

def ofValues : List Nat → UplinkSPHeader
  | [version, type, secondaryHeaderFlag, applicationId, sequenceFlags, sequenceCounter, length,
      pusSecondaryHeaderFlag, pusVersion, ackType, serviceType, serviceSubtype, sourceID] =>
    { version := .ofNat version
      type := .ofNat type
      secondaryHeaderFlag := .ofNat secondaryHeaderFlag
      applicationId := .ofNat applicationId
      sequenceFlags := .ofNat sequenceFlags
      sequenceCounter := .ofNat sequenceCounter
      length := .ofNat length
      pusSecondaryHeaderFlag := .ofNat pusSecondaryHeaderFlag
      pusVersion := .ofNat pusVersion
      ackType := .ofNat ackType
      serviceType := .ofNat serviceType
      serviceSubtype := .ofNat serviceSubtype
      sourceID := .ofNat sourceID }
  | _ => {}

def format : PackedRecord UplinkSPHeader where
  size := 10
  widths := [3, 1, 1, 11, 2, 14, 16, 1, 3, 4, 8, 8, 8]
  fields := fields
  ofValues := ofValues
  serialize := serialize
  deserialize := deserialize
  sum_widths := rfl
  map_fields _ := rfl
  ofValues_fields header := by simp [fields, ofValues]
  bits_serialize header buf start := by
    simp (disch := decide) [serialize, fields, Bits.pack, bits_setBitField, Memory.bits_store,
      Memory.bits_storeBigEndian, Nat.add_assoc, Nat.mul_add]
  deserialize_eq buf start := by
    simp (disch := decide) [deserialize, ofValues, Bits.unpack, toUInt8_getBitField,
      toUInt16_getBitField, Memory.loadBigEndian_eq_read, Nat.add_assoc, Nat.mul_add]
    exact ⟨buf.byte_eq_read (start + 7), buf.byte_eq_read (start + 8), buf.byte_eq_read (start + 9)⟩

end UplinkSPHeader

structure UplinkTFTrailer where
  crc : UInt16 := 0

namespace UplinkTFTrailer

def HEADER_SIZE : UInt16 := 2

def serialize (trailer : UplinkTFTrailer) (buf : Memory UInt8) (start : Nat) : Memory UInt8 :=
  buf.storeBigEndian start 2 trailer.crc.toNat

def deserialize (buf : Memory UInt8) (start : Nat) : UplinkTFTrailer where
  crc := .ofNat (buf.loadBigEndian start 2)

def ofValues : List Nat → UplinkTFTrailer
  | [crc] => { crc := .ofNat crc }
  | _ => {}

def format : PackedRecord UplinkTFTrailer where
  size := 2
  widths := [16]
  fields trailer := [(16, trailer.crc.toNat)]
  ofValues := ofValues
  serialize := serialize
  deserialize := deserialize
  sum_widths := rfl
  map_fields _ := rfl
  ofValues_fields trailer := by simp [ofValues]
  bits_serialize trailer buf start := by
    simp [serialize, Bits.pack, Memory.bits_storeBigEndian]
  deserialize_eq buf start := by
    simp [deserialize, ofValues, Bits.unpack, Memory.loadBigEndian_eq_read]

end UplinkTFTrailer

end Rodos.Ccsds
