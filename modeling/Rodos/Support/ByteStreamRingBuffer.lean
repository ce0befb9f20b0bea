import Rodos.Library.Memory
import Rodos.Library.Cyclic

/-! `ByteStreamRingBuffer`: objects of any byte length in a ring of 32-bit words, each behind
a word that holds its length. Sources and destinations are addressed by words. -/
namespace Rodos.Support
open Library

/-- Long words of an object of that many bytes, rounded up. -/
def wordsInObject (bytes : Int) : Int := (bytes + 3).tdiv 4

structure ByteStreamRingBuffer where
  buffer : Int → Int := fun _ => 0
  writeX : Int := 0
  readX : Int := 0

namespace ByteStreamRingBuffer

variable (WORDS : Int)

def writeWord (val : Int) (self : ByteStreamRingBuffer) : ByteStreamRingBuffer :=
  let self := { self with
    buffer := Function.update self.buffer self.writeX val
    writeX := (self.writeX + 1).tmod WORDS }
  if self.writeX = self.readX then
    { self with
      readX := (self.readX + 1 + wordsInObject (self.buffer self.readX)).tmod WORDS }
  else self

def readWord (self : ByteStreamRingBuffer) : Int × ByteStreamRingBuffer :=
  (self.buffer self.readX, { self with readX := (self.readX + 1).tmod WORDS })

def isEmpty (self : ByteStreamRingBuffer) : Bool := self.readX == self.writeX

def reset (self : ByteStreamRingBuffer) : ByteStreamRingBuffer :=
  { self with readX := 0, writeX := 0 }

/-- `for(; len > 0; len -= 4) writeWord(*source++);` -/
def writeWords (source : Memory Int) (len : Int) (self : ByteStreamRingBuffer) :
    ByteStreamRingBuffer :=
  if len > 0 then
    writeWords (fun i => source (i + 1)) (len - 4) (self.writeWord WORDS (source 0))
  else self
termination_by len.toNat

def write (buf : Memory Int) (len : Int) (self : ByteStreamRingBuffer) :
    Bool × ByteStreamRingBuffer :=
  if wordsInObject len ≥ WORDS then (false, self)
  else if len = 0 then (true, self)
  else (true, (self.writeWord WORDS len).writeWords WORDS buf len)

/-- `for(; len > 0; len -= 4) *destination++ = readWord();`, `destination` being `buf + index`. -/
def readWords (buf : Memory Int) (index : Nat) (len : Int) (self : ByteStreamRingBuffer) :
    Memory Int × ByteStreamRingBuffer :=
  if len > 0 then
    let (val, self) := self.readWord WORDS
    readWords (buf.store index val) (index + 1) (len - 4) self
  else (buf, self)
termination_by len.toNat

/-- The returned number, the destination and the ring afterwards. -/
def read (buf : Memory Int) (maxLen : Int) (self : ByteStreamRingBuffer) :
    Int × Memory Int × ByteStreamRingBuffer :=
  if self.isEmpty then (0, buf, self)
  else
    let (objectLen, self) := self.readWord WORDS
    if objectLen > maxLen then
      (-1, buf, { self with readX := (self.readX + wordsInObject objectLen).tmod WORDS })
    else
      let (buf, self) := self.readWords WORDS buf 0 objectLen
      (objectLen, buf, self)

end ByteStreamRingBuffer

end Rodos.Support
