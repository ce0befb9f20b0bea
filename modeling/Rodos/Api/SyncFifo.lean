import Rodos.Library.Runs
import Rodos.BareMetal.Scheduler
import Rodos.Api.FifoAccess

/-! A fifo whose writer and reader suspend themselves until they can proceed. A section under
`PRIORITY_CEILER_IN_SCOPE` is one step up to its `suspendCallerUntil`; outside of the sections
the threads may be switched between any two accesses. -/
namespace Rodos.Api
open Library BareMetal

structure SyncFifo (Value : Type) extends Fifo Value where
  suspendedReader : Option ThreadId := none
  suspendedWriter : Option ThreadId := none

/-- How far a thread has come in a call of `syncPut` or `syncGet` with the given argument. -/
inductive SyncAt (Argument Call : Type) where
  | outside
  /-- The first section comes next. -/
  | attempting (argument : Argument) (timeout : Int)
  /-- In `suspendCallerUntil` of the first section. -/
  | waiting (argument : Argument) (timeout : Int)
  /-- Behind the first section. -/
  | yielding (argument : Argument) (timeout : Int) (ok : Bool)
  /-- In a call of `put` or `get` outside of any section. -/
  | accessing (call : Call)
  /-- The section that resumes the other thread comes next. -/
  | resuming
  | returning (ok : Bool)
deriving DecidableEq

namespace SyncAt

variable {Argument Call : Type}

/-- `if(ok)` at the end of each of the calls. -/
def concluding (ok : Bool) : SyncAt Argument Call := if ok then .resuming else .returning false

def IsWaiting : SyncAt Argument Call → Prop
  | .waiting _ _ => True
  | _ => False

end SyncAt

structure SyncSystem (Value : Type) where
  kernel : Kernel
  fifo : SyncFifo Value
  writerThread : ThreadId
  readerThread : ThreadId
  writer : SyncAt Value (PutAt Value) := .outside
  reader : SyncAt Unit (GetAt Value) := .outside
  /-- The values that `syncPut` has been called with. -/
  handed : List Value := []
  /-- The values put so far, those of calls that fail left out. -/
  passed : List Value := []
  gotten : List Value := []
  /-- What the calls that are over returned. -/
  returned : List Bool := []

inductive SyncAction (Value : Type) where
  | syncPut (val : Value) (timeout : Int)
  | putGeneric (val : Value)
  | syncGet (timeout : Int)
  /-- The writer takes the next step of its call. -/
  | writer
  /-- The reader takes the next step of its call. -/
  | reader
  | advance (duration : Nat)
  /-- Some other thread or an interrupt server resumes a thread. -/
  | resume (thread : ThreadId)

namespace SyncSystem

variable {Value : Type} (len : Nat)

def reactivationTime (kernel : Kernel) (timeout : Int) : Int :=
  if timeout = END_OF_TIME then END_OF_TIME else kernel.timeNow + timeout

def resumePartner (kernel : Kernel) (partner : Option ThreadId) : Kernel :=
  match partner with
  | none => kernel
  | some partner => kernel.resume partner

/-- The first section of `syncPut` up to `suspendCallerUntil`, or to its end. -/
def putSection (system : SyncSystem Value) (val : Value) (timeout : Int) : SyncSystem Value :=
  let (ok, fifo) := system.fifo.put len val
  if ok then
    { system with
      fifo := { system.fifo with toFifo := fifo }
      writer := .yielding val timeout true
      passed := system.passed ++ [val] }
  else if timeout = 0 then
    { system with
      fifo := { system.fifo with toFifo := fifo, suspendedWriter := none }
      writer := .yielding val timeout false }
  else
    { system with
      kernel := system.kernel.suspendCaller (reactivationTime system.kernel timeout) none
      fifo := { system.fifo with
        toFifo := fifo
        suspendedWriter := some system.kernel.currentThread }
      writer := .waiting val timeout }

/-- The next step of the writer; `putGeneric` is but the second attempt of `syncPut`. -/
def writerStep (system : SyncSystem Value) : Option (SyncSystem Value) :=
  match system.writer with
  | .outside => none
  | .attempting val timeout => some (system.putSection len val timeout)
  | .waiting val timeout =>
    some { system with
      kernel := system.kernel.endWaiting
      fifo := { system.fifo with suspendedWriter := none }
      writer := .yielding val timeout false }
  | .yielding val timeout ok =>
    some { system with
      writer :=
        if ¬ ok ∧ timeout > 0 then .accessing (.called val) else SyncAt.concluding ok }
  | .accessing (.returning ok) => some { system with writer := SyncAt.concluding ok }
  | .accessing place =>
    let (fifo, next) := place.step len system.fifo.toFifo
    some { system with
      fifo := { system.fifo with toFifo := fifo }
      writer := .accessing next
      passed := system.passed ++ place.publishes }
  | .resuming =>
    some { system with
      kernel := resumePartner system.kernel system.fifo.suspendedReader
      writer := .returning true }
  | .returning ok => some { system with writer := .outside, returned := system.returned ++ [ok] }

/-- The first section of `syncGet` up to `suspendCallerUntil`, or to its end. -/
def getSection (system : SyncSystem Value) (timeout : Int) : SyncSystem Value :=
  let (val, fifo) := system.fifo.get len
  match val with
  | some val =>
    { system with
      fifo := { system.fifo with toFifo := fifo }
      reader := .yielding () timeout true
      gotten := system.gotten ++ [val] }
  | none =>
    if timeout = 0 then
      { system with
        fifo := { system.fifo with toFifo := fifo, suspendedReader := none }
        reader := .yielding () timeout false }
    else
      { system with
        kernel := system.kernel.suspendCaller (reactivationTime system.kernel timeout) none
        fifo := { system.fifo with
          toFifo := fifo
          suspendedReader := some system.kernel.currentThread }
        reader := .waiting () timeout }

/-- The next step of the reader. -/
def readerStep (system : SyncSystem Value) : Option (SyncSystem Value) :=
  match system.reader with
  | .outside => none
  | .attempting _ timeout => some (system.getSection len timeout)
  | .waiting _ timeout =>
    some { system with
      kernel := system.kernel.endWaiting
      fifo := { system.fifo with suspendedReader := none }
      reader := .yielding () timeout false }
  | .yielding _ timeout ok =>
    some { system with
      reader := if ¬ ok ∧ timeout > 0 then .accessing .called else SyncAt.concluding ok }
  | .accessing (.returning val) => some { system with reader := SyncAt.concluding val.isSome }
  | .accessing place =>
    let (fifo, next) := place.step len system.fifo.toFifo
    some { system with
      fifo := { system.fifo with toFifo := fifo }
      reader := .accessing next
      gotten := system.gotten ++ place.releases }
  | .resuming =>
    some { system with
      kernel := resumePartner system.kernel system.fifo.suspendedWriter
      reader := .returning true }
  | .returning ok => some { system with reader := .outside, returned := system.returned ++ [ok] }

/-- The scheduler lets the thread run, for which it must be ready. -/
def dispatch (system : SyncSystem Value) (thread : ThreadId) : Option (SyncSystem Value) :=
  if system.kernel.IsReady thread then
    some { system with kernel := system.kernel.activate thread }
  else none

def step (system : SyncSystem Value) : SyncAction Value → Option (SyncSystem Value)
  | .syncPut val timeout =>
    match system.writer with
    | .outside =>
      some { system with writer := .attempting val timeout, handed := system.handed ++ [val] }
    | _ => none
  | .putGeneric val =>
    match system.writer with
    | .outside => some { system with writer := .accessing (.called val) }
    | _ => none
  | .syncGet timeout =>
    match system.reader with
    | .outside => some { system with reader := .attempting () timeout }
    | _ => none
  | .writer => (system.dispatch system.writerThread).bind (writerStep len)
  | .reader => (system.dispatch system.readerThread).bind (readerStep len)
  | .advance duration =>
    -- The clock is an `int64_t`.
    if system.kernel.timeNow + duration ≤ END_OF_TIME then
      some { system with
        kernel := { system.kernel with timeNow := system.kernel.timeNow + duration } }
    else none
  | .resume thread => some { system with kernel := system.kernel.resume thread }

/-- Two threads outside of their calls and an empty fifo. -/
structure Initial (system : SyncSystem Value) : Prop where
  threads_ne : system.writerThread ≠ system.readerThread
  timeNow_le : system.kernel.timeNow ≤ END_OF_TIME
  fifo_eq : ∃ buffer, system.fifo = { buffer := buffer }
  writer_eq : system.writer = .outside
  reader_eq : system.reader = .outside
  handed_eq : system.handed = []
  passed_eq : system.passed = []
  gotten_eq : system.gotten = []
  returned_eq : system.returned = []

/-- Two threads that are ready to run. -/
def twoThreads : SyncSystem Nat where
  kernel := { threadList := [idlethread, 1, 2], thread := fun _ => {}, timeNow := 1 }
  fifo := { buffer := fun _ => 0 }
  writerThread := 1
  readerThread := 2

theorem twoThreads_initial : twoThreads.Initial := by
  constructor
  case fifo_eq => exact ⟨_, rfl⟩
  all_goals decide

end SyncSystem

end Rodos.Api
