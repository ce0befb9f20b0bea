import Rodos.Library.Runs
import Mathlib.Logic.Function.Basic

/-! `CommBuffer`: one thread puts values and another gets them, in any interleaving of their
accesses. Copying a value is one access for each of its cells. -/
namespace Rodos.Support
open Library

abbrev Value (Cell : Type) (size : Nat) := Fin size → Cell

/-- `writer`, `reader` and `intermediate` are indices of `buffer`. -/
structure CommBuffer (Cell : Type) (size : Nat) where
  buffer : Fin 3 → Value Cell size
  writer : Fin 3 := 0
  reader : Fin 3 := 1
  intermediate : Fin 3 := 2
  readingNow : Bool := false
  newDataAvailable : Bool := false
  writeCnt : UInt64 := 0
  readCnt : UInt64 := 0

/-- The statement of `put` that comes next. -/
inductive Put (Cell : Type) (size : Nat) where
  | returned
  | storeData (data : Value Cell size) (stored : Nat)
  | swapGetsReader
  | readerGetsWriter (swap : Fin 3)
  | writerGetsSwap (swap : Fin 3)
  | ifReadingNow
  | swapGetsWriter
  | writerGetsIntermediate (swap : Fin 3)
  | intermediateGetsSwap (swap : Fin 3)
  | countWrite
  | setNewDataAvailable

/-- The statement of `get` that comes next; `data` is the variable of the caller. -/
inductive Get (Cell : Type) (size : Nat) where
  | returned
  | clearNewDataAvailable (data : Value Cell size)
  | setReadingNow (data : Value Cell size)
  | readerTmpGetsReader (data : Value Cell size)
  | copyData (readerTmp : Fin 3) (data : Value Cell size) (copied : Nat)
  | clearReadingNow (data : Value Cell size)
  | countRead (data : Value Cell size)

/-- The last three fields are not in the program: the values that were passed to `put`, those that
`get` has returned, and how many times `put` has replaced `reader` since `get` read it. -/
structure Exchange (Cell : Type) (size : Nat) where
  comm : CommBuffer Cell size
  put : Put Cell size
  get : Get Cell size
  passed : List (Value Cell size)
  gotten : List (Value Cell size)
  replaced : Nat

/-- A call of one of the two, or its next access. -/
inductive Access (Cell : Type) (size : Nat) where
  | put (data : Value Cell size)
  | putStep
  | get (data : Value Cell size)
  | getStep

variable {Cell : Type} {size : Nat}

def Access.isPutStep : Access Cell size → Bool
  | .putStep => true
  | _ => false

namespace Exchange

def start (buffer : Fin 3 → Value Cell size) : Exchange Cell size where
  comm := { buffer := buffer }
  put := .returned
  get := .returned
  passed := []
  gotten := []
  replaced := 0

def putStep (self : Exchange Cell size) : Option (Exchange Cell size) :=
  let comm := self.comm
  match self.put with
  | .returned => none
  | .storeData data stored =>
    if h : stored < size then
      some { self with
        comm := { comm with
          buffer := Function.update comm.buffer comm.writer
            (Function.update (comm.buffer comm.writer) ⟨stored, h⟩ (data ⟨stored, h⟩)) }
        put := .storeData data (stored + 1) }
    else some { self with put := .swapGetsReader }
  | .swapGetsReader => some { self with put := .readerGetsWriter comm.reader }
  | .readerGetsWriter swap =>
    some { self with
      comm := { comm with reader := comm.writer }
      put := .writerGetsSwap swap
      replaced := self.replaced + 1 }
  | .writerGetsSwap swap =>
    some { self with comm := { comm with writer := swap }, put := .ifReadingNow }
  | .ifReadingNow =>
    some { self with put := if comm.readingNow then .swapGetsWriter else .countWrite }
  | .swapGetsWriter => some { self with put := .writerGetsIntermediate comm.writer }
  | .writerGetsIntermediate swap =>
    some { self with
      comm := { comm with writer := comm.intermediate }
      put := .intermediateGetsSwap swap }
  | .intermediateGetsSwap swap =>
    some { self with comm := { comm with intermediate := swap }, put := .countWrite }
  | .countWrite =>
    some { self with
      comm := { comm with writeCnt := comm.writeCnt + 1 }
      put := .setNewDataAvailable }
  | .setNewDataAvailable =>
    some { self with comm := { comm with newDataAvailable := true }, put := .returned }

def getStep (self : Exchange Cell size) : Option (Exchange Cell size) :=
  let comm := self.comm
  match self.get with
  | .returned => none
  | .clearNewDataAvailable data =>
    some { self with
      comm := { comm with newDataAvailable := false }
      get := .setReadingNow data }
  | .setReadingNow data =>
    some { self with
      comm := { comm with readingNow := true }
      get := .readerTmpGetsReader data }
  | .readerTmpGetsReader data =>
    some { self with get := .copyData comm.reader data 0, replaced := 0 }
  | .copyData readerTmp data copied =>
    if h : copied < size then
      some { self with
        get := .copyData readerTmp
          (Function.update data ⟨copied, h⟩ (comm.buffer readerTmp ⟨copied, h⟩)) (copied + 1) }
    else some { self with get := .clearReadingNow data }
  | .clearReadingNow data =>
    some { self with comm := { comm with readingNow := false }, get := .countRead data }
  | .countRead data =>
    some { self with
      comm := { comm with readCnt := comm.readCnt + 1 }
      get := .returned
      gotten := self.gotten ++ [data] }

/-- There is one thread that calls `put` and one that calls `get`. -/
def step (self : Exchange Cell size) : Access Cell size → Option (Exchange Cell size)
  | .put data =>
    match self.put with
    | .returned => some { self with put := .storeData data 0, passed := self.passed ++ [data] }
    | _ => none
  | .putStep => self.putStep
  | .get data =>
    match self.get with
    | .returned => some { self with get := .clearNewDataAvailable data }
    | _ => none
  | .getStep => self.getStep

/-- `put` is about to store a cell while `get` still copies, from a buffer that has not been
`reader` any more since the put before last. -/
def overtakes (self : Exchange Cell size) : Bool :=
  match self.put, self.get with
  | .storeData _ stored, .copyData _ _ copied =>
    stored < size && copied < size && 2 ≤ self.replaced
  | _, _ => false

/-- The access is not such a store. -/
def KeepsBehind (self : Exchange Cell size) (access : Access Cell size) : Prop :=
  access.isPutStep = true → self.overtakes = false

instance (self : Exchange Cell size) (access : Access Cell size) :
    Decidable (self.KeepsBehind access) := inferInstanceAs (Decidable (_ → _))

end Exchange

end Rodos.Support
