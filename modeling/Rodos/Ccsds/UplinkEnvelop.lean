import Rodos.Ccsds.CcsdsEnvelop
import Rodos.Ccsds.UplinkHeaders

/-! The envelope of telecommands: the ground builds the frames, the spacecraft takes them apart. -/
namespace Rodos.Ccsds
open Library Support

abbrev UplinkEnvelop := CCSDSEnvelop UplinkTFHeader UplinkSPHeader UplinkTFTrailer

namespace UplinkEnvelop

variable (envelop : UplinkEnvelop)

def beginNewTF : UplinkEnvelop :=
  { envelop with
    buf := filled envelop.buf
    lenOfCurrentSP := 0
    lenOfCurrentUserData := 0
    indexOfCurrentUserData := 0
    lenOfCurrentTF := UplinkTFHeader.HEADER_SIZE + UplinkTFTrailer.HEADER_SIZE
    indexOfCurrentSP := UplinkTFHeader.HEADER_SIZE }

/-- The most user data that a packet can have, and the envelope for this packet. -/
def beginNewSP : UInt16 × UplinkEnvelop :=
  let indexOfCurrentUserData := envelop.indexOfCurrentSP + UplinkSPHeader.HEADER_SIZE
  let maxUserLen : Int :=
    TF_MAX_LEN - indexOfCurrentUserData.toNat - UplinkTFTrailer.HEADER_SIZE.toNat
  let maxUserLen := if maxUserLen < 0 then 0 else maxUserLen
  (.ofNat maxUserLen.toNat,
    { envelop with
      indexOfCurrentUserData := indexOfCurrentUserData
      userDataBuf := indexOfCurrentUserData.toNat
      lenOfCurrentSP := 0
      lenOfCurrentUserData := 0 })

def commitSP : UplinkEnvelop :=
  if envelop.lenOfCurrentUserData = 0 then { envelop with lenOfCurrentSP := 0 }
  else
    let lenOfCurrentSP := UplinkSPHeader.HEADER_SIZE + envelop.lenOfCurrentUserData
    let spHeader := { envelop.spHeader with
      length := (UplinkSPHeader.HEADER_SIZE - 6) + envelop.lenOfCurrentUserData - 1 }
    { envelop with
      lenOfCurrentSP := lenOfCurrentSP
      spHeader := spHeader
      buf := spHeader.serialize envelop.buf envelop.indexOfCurrentSP.toNat
      indexOfCurrentSP := envelop.indexOfCurrentSP + lenOfCurrentSP
      lenOfCurrentTF := envelop.lenOfCurrentTF + lenOfCurrentSP }

def commitTF : UplinkEnvelop :=
  let tfHeader := { envelop.tfHeader with frameLength := envelop.lenOfCurrentTF - 1 }
  let trailerAt := envelop.lenOfCurrentTF.toNat - UplinkTFTrailer.HEADER_SIZE.toNat
  let buf := tfHeader.serialize envelop.buf 0
  let buf := envelop.tfTrailer.serialize buf trailerAt
  let myCrc := crcChecker.computeCRC (buf.front (envelop.lenOfCurrentTF.toNat - 2)) CRC_SEED
  let tfTrailer := { envelop.tfTrailer with crc := myCrc }
  { envelop with
    tfHeader := tfHeader
    tfTrailer := tfTrailer
    buf := tfTrailer.serialize buf trailerAt }

def checkoutTF : Option (Bool × UplinkEnvelop) :=
  match readAt 0 UplinkTFHeader.HEADER_SIZE.toNat (UplinkTFHeader.deserialize envelop.buf) with
  | none => none
  | some tfHeader =>
    let lenOfCurrentTF := tfHeader.frameLength + 1
    match readAt (lenOfCurrentTF.toNat - UplinkTFTrailer.HEADER_SIZE.toNat : Int)
        UplinkTFTrailer.HEADER_SIZE.toNat (UplinkTFTrailer.deserialize envelop.buf) with
    | none => none
    | some tfTrailer =>
      let envelop := { envelop with
        indexOfCurrentSP := 0
        tfHeader := tfHeader
        lenOfCurrentTF := lenOfCurrentTF
        tfTrailer := tfTrailer }
      if lenOfCurrentTF.toNat > TF_MAX_LEN then some (false, envelop)
      else if lenOfCurrentTF < UplinkTFHeader.HEADER_SIZE then some (false, envelop)
      else
        let crcLen := lenOfCurrentTF.toNat - 2
        match readAt 0 crcLen fun _ =>
            crcChecker.computeCRC (envelop.buf.front crcLen) CRC_SEED with
        | none => none
        | some myCrc => some (myCrc = tfTrailer.crc, envelop)

def checkoutNextSP : Option (Bool × UplinkEnvelop) :=
  let indexOfCurrentSP :=
    if envelop.indexOfCurrentSP = 0 then UplinkTFHeader.HEADER_SIZE
    else envelop.indexOfCurrentSP + envelop.lenOfCurrentSP
  let envelop := { envelop with indexOfCurrentSP := indexOfCurrentSP }
  if indexOfCurrentSP.toNat + UplinkSPHeader.HEADER_SIZE.toNat +
      UplinkTFTrailer.HEADER_SIZE.toNat > envelop.lenOfCurrentTF.toNat then
    some (false, envelop)
  else
    match readAt indexOfCurrentSP.toNat UplinkSPHeader.HEADER_SIZE.toNat
        (UplinkSPHeader.deserialize envelop.buf) with
    | none => none
    | some spHeader =>
      let lenOfCurrentUserData := spHeader.length + 1 - (UplinkSPHeader.HEADER_SIZE - 6)
      let lenOfCurrentSP := lenOfCurrentUserData + UplinkSPHeader.HEADER_SIZE
      let indexOfCurrentUserData := indexOfCurrentSP + UplinkSPHeader.HEADER_SIZE
      let envelop := { envelop with
        spHeader := spHeader
        lenOfCurrentUserData := lenOfCurrentUserData
        lenOfCurrentSP := lenOfCurrentSP
        indexOfCurrentUserData := indexOfCurrentUserData
        userDataBuf := indexOfCurrentUserData.toNat }
      if spHeader.applicationId = 0x7ff ∨
          indexOfCurrentSP.toNat + lenOfCurrentSP.toNat > envelop.lenOfCurrentTF.toNat then
        some (false, envelop)
      else some (true, envelop)

end UplinkEnvelop

end Rodos.Ccsds
