import Rodos.Ccsds.CcsdsEnvelop
import Rodos.Ccsds.DownlinkHeaders

/-! The envelope of telemetry: the spacecraft builds the frames, the ground takes them apart. -/
namespace Rodos.Ccsds
open Library Support

def SECONDS : Int64 := 1000 * 1000 * 1000

/-- The counters of the spacecraft. -/
structure DownlinkCounters where
  apidSequenceCounter : UInt16 → UInt32 := fun _ => 0
  virtualChanFrameCnt : UInt8 → UInt32 := fun _ => 0
  masterFramecounter : UInt32 := 0

abbrev DownlinkEnvelop := CCSDSEnvelop DownlinkTFHeader DownlinkSPHeader DownlinkTFTrailer

namespace DownlinkEnvelop

section spacecraft

-- the part of a second in 2^-16, which the spacecraft computes with floating point numbers
variable (timeFraction : Int64 → UInt16)

variable (envelop : DownlinkEnvelop) (counters : DownlinkCounters)

def initDefaultSPHeader : DownlinkEnvelop :=
  { envelop with
    spHeader :=
      { secHeaderFlag := 1, groupingFlags := 0x3, dataPackLen := 9, service := 3
        subservice := 25 } }

def beginNewTF : DownlinkEnvelop :=
  { envelop with
    buf := filled envelop.buf
    lenOfCurrentSP := 0
    lenOfCurrentUserData := 0
    indexOfCurrentUserData := 0
    lenOfCurrentTF := DOWNLINK_TF_LEN
    indexOfCurrentSP := DownlinkTFHeader.HEADER_SIZE }

/-- The most user data that a packet can have, and the envelope for this packet. -/
def beginNewSP : UInt16 × DownlinkEnvelop :=
  let indexOfCurrentUserData := envelop.indexOfCurrentSP + DownlinkSPHeader.HEADER_SIZE
  let maxUserLen : Int := DOWNLINK_TF_LEN.toNat - indexOfCurrentUserData.toNat -
    DownlinkTFTrailer.HEADER_SIZE.toNat
  let maxUserLen := if maxUserLen < 0 then 0 else maxUserLen
  (.ofNat maxUserLen.toNat,
    { envelop with
      indexOfCurrentUserData := indexOfCurrentUserData
      userDataBuf := indexOfCurrentUserData.toNat
      lenOfCurrentSP := 0
      lenOfCurrentUserData := 0 })

/-- `timeNow` is what `sysTime.getUTC` returns. -/
def commitSP (timeNow : Int64) : DownlinkEnvelop × DownlinkCounters :=
  if envelop.lenOfCurrentUserData = 0 then ({ envelop with lenOfCurrentSP := 0 }, counters)
  else
    let lenOfCurrentSP := DownlinkSPHeader.HEADER_SIZE + envelop.lenOfCurrentUserData
    let apid := envelop.spHeader.applicationId &&& 2047
    let spHeader := { envelop.spHeader with
      dataPackLen := lenOfCurrentSP - 6 - 1
      timeStampSeconds := (timeNow / SECONDS).toUInt64.toUInt32
      timeStampFraction := timeFraction (timeNow % SECONDS)
      sourceSeqCnt := (counters.apidSequenceCounter apid).toUInt16 }
    ({ envelop with
        lenOfCurrentSP := lenOfCurrentSP
        spHeader := spHeader
        buf := spHeader.serialize envelop.buf envelop.indexOfCurrentSP.toNat
        indexOfCurrentSP := envelop.indexOfCurrentSP + lenOfCurrentSP },
      { counters with
        apidSequenceCounter := Function.update counters.apidSequenceCounter apid
          (counters.apidSequenceCounter apid + 1) })

/-- The rest to the end of the frame has to be an idle packet. -/
def addIdleSP (timeNow : Int64) : DownlinkEnvelop × DownlinkCounters :=
  let (restLen, envelop) := envelop.beginNewSP
  if restLen = 0 then (envelop, counters)
  else
    let envelop := initDefaultSPHeader envelop
    let spHeader := { envelop.spHeader with applicationId := 0x7ff }
    commitSP timeFraction { envelop with spHeader := spHeader, lenOfCurrentUserData := restLen }
      counters timeNow

def commitClcwToTF : DownlinkEnvelop :=
  let trailerAt := envelop.lenOfCurrentTF.toNat - DownlinkTFTrailer.HEADER_SIZE.toNat
  let buf := envelop.tfTrailer.serialize envelop.buf trailerAt
  let myCrc := crcChecker.computeCRC (buf.front (envelop.lenOfCurrentTF.toNat - 2)) CRC_SEED
  let tfTrailer := { envelop.tfTrailer with crc := myCrc }
  { envelop with
    tfTrailer := tfTrailer
    buf := tfTrailer.serialize buf trailerAt }

def commitTF (timeNow : Int64) : DownlinkEnvelop × DownlinkCounters :=
  let (envelop, counters) := addIdleSP timeFraction envelop counters timeNow
  let channel := envelop.tfHeader.virtualChanId &&& 7
  let tfHeader := { envelop.tfHeader with
    masterChanFrameCnt := counters.masterFramecounter.toUInt8
    virtualChanFrameCnt := (counters.virtualChanFrameCnt channel).toUInt8 }
  (commitClcwToTF { envelop with tfHeader := tfHeader, buf := tfHeader.serialize envelop.buf 0 },
    { counters with
      masterFramecounter := counters.masterFramecounter + 1
      virtualChanFrameCnt := Function.update counters.virtualChanFrameCnt channel
        (counters.virtualChanFrameCnt channel + 1) })

end spacecraft

section ground

variable (envelop : DownlinkEnvelop)

def checkoutTF : Option (Bool × DownlinkEnvelop) :=
  match readAt 0 DownlinkTFHeader.HEADER_SIZE.toNat (DownlinkTFHeader.deserialize envelop.buf) with
  | none => none
  | some tfHeader =>
    let lenOfCurrentTF := DOWNLINK_TF_LEN
    match readAt (lenOfCurrentTF.toNat - DownlinkTFTrailer.HEADER_SIZE.toNat : Int)
        DownlinkTFTrailer.HEADER_SIZE.toNat (DownlinkTFTrailer.deserialize envelop.buf) with
    | none => none
    | some tfTrailer =>
      let envelop := { envelop with
        indexOfCurrentSP := 0
        tfHeader := tfHeader
        lenOfCurrentTF := lenOfCurrentTF
        tfTrailer := tfTrailer }
      let crcLen := lenOfCurrentTF.toNat - 2
      match readAt 0 crcLen fun _ =>
          crcChecker.computeCRC (envelop.buf.front crcLen) CRC_SEED with
      | none => none
      | some myCrc => some (myCrc = tfTrailer.crc, envelop)

def checkoutNextSP : Option (Bool × DownlinkEnvelop) :=
  let indexOfCurrentSP :=
    if envelop.indexOfCurrentSP = 0 then DownlinkTFHeader.HEADER_SIZE
    else envelop.indexOfCurrentSP + envelop.lenOfCurrentSP
  let envelop := { envelop with indexOfCurrentSP := indexOfCurrentSP }
  if indexOfCurrentSP.toNat + DownlinkSPHeader.HEADER_SIZE.toNat +
      DownlinkTFTrailer.HEADER_SIZE.toNat > envelop.lenOfCurrentTF.toNat then
    some (false, envelop)
  else
    match readAt indexOfCurrentSP.toNat DownlinkSPHeader.HEADER_SIZE.toNat
        (DownlinkSPHeader.deserialize envelop.buf) with
    | none => none
    | some spHeader =>
      let lenOfCurrentSP := spHeader.dataPackLen + 6 + 1
      let lenOfCurrentUserData := lenOfCurrentSP - DownlinkSPHeader.HEADER_SIZE
      let indexOfCurrentUserData := indexOfCurrentSP + DownlinkSPHeader.HEADER_SIZE
      let envelop := { envelop with
        spHeader := spHeader
        lenOfCurrentSP := lenOfCurrentSP
        lenOfCurrentUserData := lenOfCurrentUserData
        indexOfCurrentUserData := indexOfCurrentUserData
        userDataBuf := indexOfCurrentUserData.toNat }
      if spHeader.typeId ≠ 0 ∨ spHeader.applicationId = 0x7ff ∨
          indexOfCurrentSP.toNat + lenOfCurrentSP.toNat > envelop.lenOfCurrentTF.toNat then
        some (false, envelop)
      else some (true, envelop)

end ground

end DownlinkEnvelop

end Rodos.Ccsds
