import Rodos.S3p.Frame

/-! The synchronous sender and receiver. -/
namespace Rodos.S3p
open Library

namespace Sender

/-- The bytes handed to the upcall `putByte`. -/
def putCommand (c : UInt16) : List UInt8 :=
  if c = NODATA then [] else [msb c, lsb c]

def putDataByte (c : UInt8) : List UInt8 :=
  if c.toUInt16 = MARK then putCommand STUFF else [c]

def sendMsg (len : Int) (s : Memory UInt8) : List UInt8 :=
  putCommand BOM ++ (s.front len.toNat).flatMap putDataByte ++ putCommand EOM

end Sender

/-- What one call of `getMsg` does with the bytes that `getByte` supplies. -/
structure GetMsg where
  /-- The arguments of `executeCommand`, in order. -/
  executed : List UInt16
  msg : Memory UInt8
  /-- The returned length and the unread bytes, or `none` while it waits in `getByte`. -/
  returned : Option (Int × List UInt8)

def GetMsg.execute (dualByte : UInt16) (call : GetMsg) : GetMsg :=
  { call with executed := dualByte :: call.executed }

/-- The body of `while(1)`. -/
def getMsgLoop (maxLen len : Int) (msg : Memory UInt8) : List UInt8 → GetMsg
  | [] => ⟨[], msg, none⟩
  | c :: line =>
    if c.toUInt16 ≠ MARK ∧ len ≥ 0 ∧ len < maxLen then
      getMsgLoop maxLen (len + 1) (msg.store len.toNat c) line
    else if c.toUInt16 = MARK then
      match line with
      | [] => ⟨[], msg, none⟩
      | low :: line =>
        let dualByte := COMMAND ||| low.toUInt16
        if dualByte = BOM then getMsgLoop maxLen 0 msg line
        else if dualByte = EOM then
          if len ≥ 0 then ⟨[], msg, some (len, line)⟩ else getMsgLoop maxLen len msg line
        else if dualByte = STUFF then
          if len ≥ 0 ∧ len < maxLen then
            getMsgLoop maxLen (len + 1) (msg.store len.toNat markByte) line
          else getMsgLoop maxLen len msg line
        else (getMsgLoop maxLen len msg line).execute dualByte
    else getMsgLoop maxLen len msg line

def getMsg (maxLen : Int) (msg : Memory UInt8) (line : List UInt8) : GetMsg :=
  getMsgLoop maxLen (-1) msg line

theorem getMsgLoop_rest_lt (maxLen len : Int) (msg : Memory UInt8) (line : List UInt8) :
    ∀ result ∈ (getMsgLoop maxLen len msg line).returned, result.2.length < line.length := by
  fun_induction getMsgLoop maxLen len msg line <;> grind [GetMsg.execute]

/-- `getMsg` called again and again with one buffer on the bytes of a line. -/
def receiveSynchronous (maxLen : Int) (msg : Memory UInt8) (line : List UInt8) : List Event :=
  let call := getMsg maxLen msg line
  call.executed.map .command ++
    match _hreturned : call.returned with
    | none => []
    | some (len, rest) =>
      .message (call.msg.front len.toNat) :: receiveSynchronous maxLen call.msg rest
termination_by line.length
decreasing_by exact getMsgLoop_rest_lt maxLen (-1) msg line _ _hreturned

end Rodos.S3p
