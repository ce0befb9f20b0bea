import Rodos.S3p.Frame

/-! The receiver driven by the UART, which pushes the arrived bytes one by one. -/
namespace Rodos.S3p
open Library

structure S3pReceiverAsynchronous where
  len : Int := -1
  /-- `none` is the null pointer. -/
  msg : Option (Memory UInt8) := none
  maxLen : Int := 1300
  dualByte : UInt16 := 0

namespace S3pReceiverAsynchronous

/-- The upcall `requestBufferToWrite`: the buffer offered and the updated `maxLen`. -/
abbrev RequestBuffer := Int → Option (Memory UInt8) × Int

/-- `if(msg == 0) msg = requestBufferToWrite(maxLen);` -/
def requestBuffer (request : RequestBuffer) (self : S3pReceiverAsynchronous) :
    S3pReceiverAsynchronous :=
  match self.msg with
  | some _ => self
  | none => { self with msg := (request self.maxLen).1, maxLen := (request self.maxLen).2 }

/-- `if(msg != 0 && len >= 0 && len < maxLen) msg[len++] = value;` -/
def storeByte (value : UInt8) (self : S3pReceiverAsynchronous) : S3pReceiverAsynchronous :=
  match self.msg with
  | some msg =>
    if self.len ≥ 0 ∧ self.len < self.maxLen then
      { self with msg := some (msg.store self.len.toNat value), len := self.len + 1 }
    else self
  | none => self

/-- `endOfMessage` hands over the first `len` bytes of the buffer in use. -/
def endOfMessage (self : S3pReceiverAsynchronous) : S3pReceiverAsynchronous × List Event :=
  if self.len ≥ 0 then
    ({ self with msg := none, len := -1 },
      [.message ((self.msg.getD fun _ => 0).front self.len.toNat)])
  else (self, [])

/-- The switch over a complete code; 0 stands for a data byte. -/
def dispatch (dualByte : UInt16) (inputByte : UInt8) (self : S3pReceiverAsynchronous) :
    S3pReceiverAsynchronous × List Event :=
  if dualByte = 0 then (self.storeByte inputByte, [])
  else if dualByte = STUFF then (self.storeByte markByte, [])
  else if dualByte = EOM then self.endOfMessage
  else if dualByte = BOM then (if self.msg.isSome then { self with len := 0 } else self, [])
  else (self, [.command dualByte])

def putByte (request : RequestBuffer) (inputByte : UInt8) (self : S3pReceiverAsynchronous) :
    S3pReceiverAsynchronous × List Event :=
  let self := self.requestBuffer request
  let dualByte := self.dualByte <<< 8 ||| inputByte.toUInt16
  if inputByte.toUInt16 = MARK then ({ self with dualByte := dualByte }, [])
  else
    let code := if msb dualByte = 0 then 0 else dualByte
    let handled := self.dispatch code inputByte
    ({ handled.1 with dualByte := 0 }, handled.2)

/-- All upcalls while the bytes of a line arrive. The application answers the `k`-th
call of `requestBufferToWrite` with `requests k`, one possible call for each byte. -/
def receive (requests : Nat → RequestBuffer) (self : S3pReceiverAsynchronous) :
    List UInt8 → List Event
  | [] => []
  | inputByte :: line =>
    let handled := self.putByte (requests 0) inputByte
    handled.2 ++ handled.1.receive (fun k => requests (k + 1)) line

end S3pReceiverAsynchronous

end Rodos.S3p
