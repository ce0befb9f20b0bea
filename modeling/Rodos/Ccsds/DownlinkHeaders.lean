import Rodos.Library.PackedRecord
import Rodos.Support.StreamBytesex

/-! The headers of telemetry frames and packets, as the generated serializers write them: fields of
bits one behind the other. -/
namespace Rodos.Ccsds
open Library Support

structure DownlinkTFHeader where
  version : UInt8 := 0
  spaceCraftId : UInt16 := 0
  virtualChanId : UInt8 := 0
  opControlFlag : UInt8 := 0
  masterChanFrameCnt : UInt8 := 0
  virtualChanFrameCnt : UInt8 := 0
  secondHeaderFlag : UInt8 := 0
  synchFlag : UInt8 := 0
  packetOrderFlag : UInt8 := 0
  segmentLenId : UInt8 := 0
  firstHeaderPtr : UInt16 := 0

namespace DownlinkTFHeader

def HEADER_SIZE : UInt16 := 6

def serialize (header : DownlinkTFHeader) (buf : Memory UInt8) (start : Nat) : Memory UInt8 :=
  let buf := setBitField buf start 0 2 header.version.toUInt32
  let buf := setBitField buf start 2 10 header.spaceCraftId.toUInt32
  let buf := setBitField buf start 12 3 header.virtualChanId.toUInt32
  let buf := setBitField buf start 15 1 header.opControlFlag.toUInt32
  let buf := buf.store (start + 2) header.masterChanFrameCnt
  let buf := buf.store (start + 3) header.virtualChanFrameCnt
  let buf := setBitField buf start 32 1 header.secondHeaderFlag.toUInt32
  let buf := setBitField buf start 33 1 header.synchFlag.toUInt32
  let buf := setBitField buf start 34 1 header.packetOrderFlag.toUInt32
  let buf := setBitField buf start 35 2 header.segmentLenId.toUInt32
  setBitField buf start 37 11 header.firstHeaderPtr.toUInt32

def deserialize (buf : Memory UInt8) (start : Nat) : DownlinkTFHeader where
  version := (getBitField buf start 0 2).toUInt8
  spaceCraftId := (getBitField buf start 2 10).toUInt16
  virtualChanId := (getBitField buf start 12 3).toUInt8
  opControlFlag := (getBitField buf start 15 1).toUInt8
  masterChanFrameCnt := buf (start + 2)
  virtualChanFrameCnt := buf (start + 3)
  secondHeaderFlag := (getBitField buf start 32 1).toUInt8
  synchFlag := (getBitField buf start 33 1).toUInt8
  packetOrderFlag := (getBitField buf start 34 1).toUInt8
  segmentLenId := (getBitField buf start 35 2).toUInt8
  firstHeaderPtr := (getBitField buf start 37 11).toUInt16

def fields (header : DownlinkTFHeader) : List (Nat × Nat) :=
  [(2, header.version.toNat), (10, header.spaceCraftId.toNat), (3, header.virtualChanId.toNat),
    (1, header.opControlFlag.toNat), (8, header.masterChanFrameCnt.toNat),
    (8, header.virtualChanFrameCnt.toNat), (1, header.secondHeaderFlag.toNat),
    (1, header.synchFlag.toNat), (1, header.packetOrderFlag.toNat), (2, header.segmentLenId.toNat),
    (11, header.firstHeaderPtr.toNat)]

def ofValues : List Nat → DownlinkTFHeader
  | [version, spaceCraftId, virtualChanId, opControlFlag, masterChanFrameCnt, virtualChanFrameCnt,
      secondHeaderFlag, synchFlag, packetOrderFlag, segmentLenId, firstHeaderPtr] =>
    { version := .ofNat version
      spaceCraftId := .ofNat spaceCraftId
      virtualChanId := .ofNat virtualChanId
      opControlFlag := .ofNat opControlFlag
      masterChanFrameCnt := .ofNat masterChanFrameCnt
      virtualChanFrameCnt := .ofNat virtualChanFrameCnt
      secondHeaderFlag := .ofNat secondHeaderFlag
      synchFlag := .ofNat synchFlag
      packetOrderFlag := .ofNat packetOrderFlag
      segmentLenId := .ofNat segmentLenId
      firstHeaderPtr := .ofNat firstHeaderPtr }
  | _ => {}

def format : PackedRecord DownlinkTFHeader where
  size := 6
  widths := [2, 10, 3, 1, 8, 8, 1, 1, 1, 2, 11]
  fields := fields
  ofValues := ofValues
  serialize := serialize
  deserialize := deserialize
  sum_widths := rfl
  map_fields _ := rfl
  ofValues_fields header := by simp [fields, ofValues]
  bits_serialize header buf start := by
    simp (disch := decide) [serialize, fields, Bits.pack, bits_setBitField, Memory.bits_store,
      Nat.add_assoc, Nat.mul_add]
  deserialize_eq buf start := by
    simp (disch := decide) [deserialize, ofValues, Bits.unpack, toUInt8_getBitField,
      toUInt16_getBitField, Nat.add_assoc]
    exact ⟨buf.byte_eq_read (start + 2), buf.byte_eq_read (start + 3)⟩

end DownlinkTFHeader

structure DownlinkSPHeader where
  version : UInt8 := 0
  typeId : UInt8 := 0
  secHeaderFlag : UInt8 := 0
  applicationId : UInt16 := 0
  groupingFlags : UInt8 := 0
  sourceSeqCnt : UInt16 := 0
  dataPackLen : UInt16 := 0
  secondaryFlag : UInt8 := 0
  pusVersion : UInt8 := 0
  spare : UInt8 := 0
  service : UInt8 := 0
  subservice : UInt8 := 0
  destination : UInt8 := 0
  timeStampSeconds : UInt32 := 0
  timeStampFraction : UInt16 := 0
deriving DecidableEq

namespace DownlinkSPHeader

def HEADER_SIZE : UInt16 := 16

def serialize (header : DownlinkSPHeader) (buf : Memory UInt8) (start : Nat) : Memory UInt8 :=
  let buf := setBitField buf start 0 3 header.version.toUInt32
  let buf := setBitField buf start 3 1 header.typeId.toUInt32
  let buf := setBitField buf start 4 1 header.secHeaderFlag.toUInt32
  let buf := setBitField buf start 5 11 header.applicationId.toUInt32
  let buf := setBitField buf start 16 2 header.groupingFlags.toUInt32
  let buf := setBitField buf start 18 14 header.sourceSeqCnt.toUInt32
  let buf := buf.storeBigEndian (start + 4) 2 header.dataPackLen.toNat
  let buf := setBitField buf start 48 1 header.secondaryFlag.toUInt32
  let buf := setBitField buf start 49 3 header.pusVersion.toUInt32
  let buf := setBitField buf start 52 4 header.spare.toUInt32
  let buf := buf.store (start + 7) header.service
  let buf := buf.store (start + 8) header.subservice
  let buf := buf.store (start + 9) header.destination
  let buf := buf.storeBigEndian (start + 10) 4 header.timeStampSeconds.toNat
  buf.storeBigEndian (start + 14) 2 header.timeStampFraction.toNat

def deserialize (buf : Memory UInt8) (start : Nat) : DownlinkSPHeader where
  version := (getBitField buf start 0 3).toUInt8
  typeId := (getBitField buf start 3 1).toUInt8
  secHeaderFlag := (getBitField buf start 4 1).toUInt8
  applicationId := (getBitField buf start 5 11).toUInt16
  groupingFlags := (getBitField buf start 16 2).toUInt8
  sourceSeqCnt := (getBitField buf start 18 14).toUInt16
  dataPackLen := .ofNat (buf.loadBigEndian (start + 4) 2)
  secondaryFlag := (getBitField buf start 48 1).toUInt8
  pusVersion := (getBitField buf start 49 3).toUInt8
  spare := (getBitField buf start 52 4).toUInt8
  service := buf (start + 7)
  subservice := buf (start + 8)
  destination := buf (start + 9)
  timeStampSeconds := .ofNat (buf.loadBigEndian (start + 10) 4)
  timeStampFraction := .ofNat (buf.loadBigEndian (start + 14) 2)

def fields (header : DownlinkSPHeader) : List (Nat × Nat) :=
  [(3, header.version.toNat), (1, header.typeId.toNat), (1, header.secHeaderFlag.toNat),
    (11, header.applicationId.toNat), (2, header.groupingFlags.toNat),
    (14, header.sourceSeqCnt.toNat), (16, header.dataPackLen.toNat),
    (1, header.secondaryFlag.toNat), (3, header.pusVersion.toNat), (4, header.spare.toNat),
    (8, header.service.toNat), (8, header.subservice.toNat), (8, header.destination.toNat),
    (32, header.timeStampSeconds.toNat), (16, header.timeStampFraction.toNat)]

def ofValues : List Nat → DownlinkSPHeader
  | [version, typeId, secHeaderFlag, applicationId, groupingFlags, sourceSeqCnt, dataPackLen,
      secondaryFlag, pusVersion, spare, service, subservice, destination, timeStampSeconds,
      timeStampFraction] =>
    { version := .ofNat version
      typeId := .ofNat typeId
      secHeaderFlag := .ofNat secHeaderFlag
      applicationId := .ofNat applicationId
      groupingFlags := .ofNat groupingFlags
      sourceSeqCnt := .ofNat sourceSeqCnt
      dataPackLen := .ofNat dataPackLen
      secondaryFlag := .ofNat secondaryFlag
      pusVersion := .ofNat pusVersion
      spare := .ofNat spare
      service := .ofNat service
      subservice := .ofNat subservice
      destination := .ofNat destination
      timeStampSeconds := .ofNat timeStampSeconds
      timeStampFraction := .ofNat timeStampFraction }
  | _ => {}

def format : PackedRecord DownlinkSPHeader where
  size := 16
  widths := [3, 1, 1, 11, 2, 14, 16, 1, 3, 4, 8, 8, 8, 32, 16]
  fields := fields
  ofValues := ofValues
  serialize := serialize
  deserialize := deserialize
  sum_widths := rfl
  map_fields _ := rfl
  ofValues_fields header := by simp [fields, ofValues]
  bits_serialize header buf start := by
    simp (disch := decide) [serialize, fields, Bits.pack, bits_setBitField, Memory.bits_store,
      Memory.bits_storeBigEndian, Nat.add_assoc, Nat.mul_add]
  deserialize_eq buf start := by
    simp (disch := decide) [deserialize, ofValues, Bits.unpack, toUInt8_getBitField,
      toUInt16_getBitField, Memory.loadBigEndian_eq_read, Nat.add_assoc, Nat.mul_add]
    exact ⟨buf.byte_eq_read (start + 7), buf.byte_eq_read (start + 8), buf.byte_eq_read (start + 9)⟩

end DownlinkSPHeader

structure DownlinkTFTrailer where
  control : UInt8 := 0
  version : UInt8 := 0
  status : UInt8 := 0
  commandOpProcedure : UInt8 := 0
  virtualChanel : UInt8 := 0
  spare1 : UInt8 := 0
  noRF : UInt8 := 0
  noBitLock : UInt8 := 0
  lockOut : UInt8 := 0
  wait : UInt8 := 0
  retransmit : UInt8 := 0
  farmBCnt : UInt8 := 0
  spare2 : UInt8 := 0
  reportValue : UInt8 := 0
  crc : UInt16 := 0

namespace DownlinkTFTrailer

def HEADER_SIZE : UInt16 := 6

def serialize (trailer : DownlinkTFTrailer) (buf : Memory UInt8) (start : Nat) : Memory UInt8 :=
  let buf := setBitField buf start 0 1 trailer.control.toUInt32
  let buf := setBitField buf start 1 2 trailer.version.toUInt32
  let buf := setBitField buf start 3 3 trailer.status.toUInt32
  let buf := setBitField buf start 6 2 trailer.commandOpProcedure.toUInt32
  let buf := setBitField buf start 8 6 trailer.virtualChanel.toUInt32
  let buf := setBitField buf start 14 2 trailer.spare1.toUInt32
  let buf := setBitField buf start 16 1 trailer.noRF.toUInt32
  let buf := setBitField buf start 17 1 trailer.noBitLock.toUInt32
  let buf := setBitField buf start 18 1 trailer.lockOut.toUInt32
  let buf := setBitField buf start 19 1 trailer.wait.toUInt32
  let buf := setBitField buf start 20 1 trailer.retransmit.toUInt32
  let buf := setBitField buf start 21 2 trailer.farmBCnt.toUInt32
  let buf := setBitField buf start 23 1 trailer.spare2.toUInt32
  let buf := buf.store (start + 3) trailer.reportValue
  buf.storeBigEndian (start + 4) 2 trailer.crc.toNat

def deserialize (buf : Memory UInt8) (start : Nat) : DownlinkTFTrailer where
  control := (getBitField buf start 0 1).toUInt8
  version := (getBitField buf start 1 2).toUInt8
  status := (getBitField buf start 3 3).toUInt8
  commandOpProcedure := (getBitField buf start 6 2).toUInt8
  virtualChanel := (getBitField buf start 8 6).toUInt8
  spare1 := (getBitField buf start 14 2).toUInt8
  noRF := (getBitField buf start 16 1).toUInt8
  noBitLock := (getBitField buf start 17 1).toUInt8
  lockOut := (getBitField buf start 18 1).toUInt8
  wait := (getBitField buf start 19 1).toUInt8
  retransmit := (getBitField buf start 20 1).toUInt8
  farmBCnt := (getBitField buf start 21 2).toUInt8
  spare2 := (getBitField buf start 23 1).toUInt8
  reportValue := buf (start + 3)
  crc := .ofNat (buf.loadBigEndian (start + 4) 2)

def fields (trailer : DownlinkTFTrailer) : List (Nat × Nat) :=
  [(1, trailer.control.toNat), (2, trailer.version.toNat), (3, trailer.status.toNat),
    (2, trailer.commandOpProcedure.toNat), (6, trailer.virtualChanel.toNat),
    (2, trailer.spare1.toNat), (1, trailer.noRF.toNat), (1, trailer.noBitLock.toNat),
    (1, trailer.lockOut.toNat), (1, trailer.wait.toNat), (1, trailer.retransmit.toNat),
    (2, trailer.farmBCnt.toNat), (1, trailer.spare2.toNat), (8, trailer.reportValue.toNat),
    (16, trailer.crc.toNat)]

def ofValues : List Nat → DownlinkTFTrailer
  | [control, version, status, commandOpProcedure, virtualChanel, spare1, noRF, noBitLock, lockOut,
      wait, retransmit, farmBCnt, spare2, reportValue, crc] =>
    { control := .ofNat control
      version := .ofNat version
      status := .ofNat status
      commandOpProcedure := .ofNat commandOpProcedure
      virtualChanel := .ofNat virtualChanel
      spare1 := .ofNat spare1
      noRF := .ofNat noRF
      noBitLock := .ofNat noBitLock
      lockOut := .ofNat lockOut
      wait := .ofNat wait
      retransmit := .ofNat retransmit
      farmBCnt := .ofNat farmBCnt
      spare2 := .ofNat spare2
      reportValue := .ofNat reportValue
      crc := .ofNat crc }
  | _ => {}

def format : PackedRecord DownlinkTFTrailer where
  size := 6
  widths := [1, 2, 3, 2, 6, 2, 1, 1, 1, 1, 1, 2, 1, 8, 16]
  fields := fields
  ofValues := ofValues
  serialize := serialize
  deserialize := deserialize
  sum_widths := rfl
  map_fields _ := rfl
  ofValues_fields trailer := by simp [fields, ofValues]
  bits_serialize trailer buf start := by
    simp (disch := decide) [serialize, fields, Bits.pack, bits_setBitField, Memory.bits_store,
      Memory.bits_storeBigEndian, Nat.add_assoc, Nat.mul_add]
  deserialize_eq buf start := by
    simp (disch := decide) [deserialize, ofValues, Bits.unpack, toUInt8_getBitField,
      Memory.loadBigEndian_eq_read, Nat.add_assoc, Nat.mul_add]
    exact buf.byte_eq_read (start + 3)

end DownlinkTFTrailer

end Rodos.Ccsds
