import Rodos.Library.PacketStream
import Rodos.Library.Runs
import Rodos.Support.Checksumes

/-! What the envelopes of telecommands and of telemetry share: the buffer with one transfer frame,
and the position in it. -/
namespace Rodos.Ccsds
open Library Support

def TF_MAX_LEN : Nat := 1024
def DOWNLINK_TF_LEN : UInt16 := 1000
def CRC_SEED : UInt16 := 0xffff

/-- The buffer is ten bytes longer than any frame. -/
def BUF_LEN : Nat := TF_MAX_LEN + 10

def crcChecker : CRC := CRC.new

/-- What is read from so many bytes at `buf + index`. Nothing when not all of them are in the
buffer. -/
def readAt {α : Type} (index : Int) (count : Nat) (value : Nat → α) : Option α :=
  if 0 ≤ index ∧ index + count ≤ BUF_LEN then some (value index.toNat) else none

structure CCSDSEnvelop (TFHeader SPHeader TFTrailer : Type) where
  buf : Memory UInt8
  indexOfCurrentUserData : UInt16
  lenOfCurrentTF : UInt16
  lenOfCurrentSP : UInt16
  lenOfCurrentUserData : UInt16
  indexOfCurrentSP : UInt16
  /-- The pointer, as an index of `buf`. -/
  userDataBuf : Nat
  tfHeader : TFHeader
  spHeader : SPHeader
  tfTrailer : TFTrailer

/-- `memset(buf, '\xff', TF_MAX_LEN)` -/
def filled (buf : Memory UInt8) : Memory UInt8 := fun index =>
  if index < TF_MAX_LEN then 0xff else buf index

/-- The user data that the pointer leads to. -/
def CCSDSEnvelop.userData {TFHeader SPHeader TFTrailer : Type}
    (envelop : CCSDSEnvelop TFHeader SPHeader TFTrailer) : List UInt8 :=
  envelop.buf.slice envelop.userDataBuf
    (envelop.userDataBuf + envelop.lenOfCurrentUserData.toNat)

/-- What a user does between `beginNewSP` and `commitSP`. -/
def CCSDSEnvelop.fillSP {TFHeader SPHeader TFTrailer : Type}
    (envelop : CCSDSEnvelop TFHeader SPHeader TFTrailer) (spHeader : SPHeader)
    (userData : List UInt8) : CCSDSEnvelop TFHeader SPHeader TFTrailer :=
  { envelop with
    buf := envelop.buf.storeAll envelop.userDataBuf userData
    lenOfCurrentUserData := .ofNat userData.length
    spHeader := spHeader }

end Rodos.Ccsds
