import Rodos.Library.LinkedList
import Rodos.Library.Runs
import Rodos.Gateway.Reassembly

/-! The receiving side of `LinkinterfaceCAN`: a fixed set of telegram buffers, a stack of the free
ones and a linked list of telegrams that wait for the message in progress to be finished. Pointers
to buffers are indices of `BufferedCANMessage_memory`; a step is impossible where the program would
follow a null pointer or leave an array. -/
namespace Rodos.Gateway
open Library

def CAN_MSG_BUFFER_SIZE : Nat := 128

/-- There is no telegram in the buffer while its `len` is -1. -/
structure BufferedCANMessage where
  telegram : Option Telegram
  next : Option Nat

/-- `can` holds what the driver has received. `mostBuffered` is not in the program: the largest
number of telegrams that were in the linked list at one time. -/
structure LinkinterfaceCAN where
  isBroadcastLink : Bool
  can : List Telegram
  bufferedCANMessageMemory : Memory BufferedCANMessage
  emptyBufferedCANMessages : Memory Nat
  emptyBufferedCANMessagesPos : Int
  bufferedCANMsgsStart : Option Nat
  bufferedCANMsgsEnd : Option Nat
  currentMsgSet : Bool
  reassembly : Reassembly
  mostBuffered : Nat

namespace LinkinterfaceCAN

/-- The constructor leaves the other members of the object as they are in memory. -/
def construct (memory : LinkinterfaceCAN) : LinkinterfaceCAN :=
  { memory with
    currentMsgSet := false
    bufferedCANMsgsStart := none
    bufferedCANMsgsEnd := none
    can := []
    mostBuffered := 0
    reassembly := { memory.reassembly with
      currentReceiveCANId := 0
      message := 0
      storedFor := fun _ => none
      handed := [] } }

def init (self : LinkinterfaceCAN) : LinkinterfaceCAN :=
  { self with
    isBroadcastLink := true
    emptyBufferedCANMessages := fun i =>
      if i < CAN_MSG_BUFFER_SIZE then i else self.emptyBufferedCANMessages i
    emptyBufferedCANMessagesPos := CAN_MSG_BUFFER_SIZE - 1 }

/-- An object in memory that was cleared before. -/
def zeroed : LinkinterfaceCAN where
  isBroadcastLink := false
  can := []
  bufferedCANMessageMemory := fun _ => ⟨none, none⟩
  emptyBufferedCANMessages := fun _ => 0
  emptyBufferedCANMessagesPos := 0
  bufferedCANMsgsStart := none
  bufferedCANMsgsEnd := none
  currentMsgSet := false
  reassembly := ⟨⟨fun _ => 0, fun _ => 0⟩, 0, 0, 0, 0, 0, fun _ => none, []⟩
  mostBuffered := 0

/-- `msg->next = next`. -/
def setNext (self : LinkinterfaceCAN) (msg : Nat) (next : Option Nat) : LinkinterfaceCAN :=
  { self with
    bufferedCANMessageMemory := self.bufferedCANMessageMemory.store msg
      { self.bufferedCANMessageMemory msg with next := next } }

/-- `emptyBufferedCANMessages[++emptyBufferedCANMessagesPos] = msg`, the position being asserted to
stay inside the array. -/
def release (self : LinkinterfaceCAN) (msg : Nat) : Option LinkinterfaceCAN :=
  let pos := self.emptyBufferedCANMessagesPos + 1
  if pos < 0 ∨ pos ≥ CAN_MSG_BUFFER_SIZE then none
  else some { self with
    emptyBufferedCANMessagesPos := pos
    emptyBufferedCANMessages := self.emptyBufferedCANMessages.store pos.toNat msg }

/-- `while(msg->next!=0)`: the last buffer of the linked list and the one before it. -/
def findLast (memory : Memory BufferedCANMessage) :
    (fuel : Nat) → (previous : Option Nat) → (msg : Nat) → Option (Option Nat × Nat)
  | 0, _, _ => none
  | fuel + 1, previous, msg =>
    match (memory msg).next with
    | none => some (previous, msg)
    | some next => findLast memory fuel (some msg) next

/-- No buffer is free: the last one is taken out of the linked list. -/
def stealLast (self : LinkinterfaceCAN) : Option (Nat × LinkinterfaceCAN) :=
  match self.bufferedCANMsgsStart with
  | none => none
  | some start =>
    match findLast self.bufferedCANMessageMemory CAN_MSG_BUFFER_SIZE none start with
    | some (some previous, msg) =>
      some (msg, { self.setNext previous none with bufferedCANMsgsEnd := some previous })
    | _ => none

/-- `can.read(msg->data, &msg->canID)`, which stores -1 as the length when nothing was received. -/
def read (self : LinkinterfaceCAN) (msg : Nat) : LinkinterfaceCAN :=
  { self with
    can := self.can.tail
    bufferedCANMessageMemory := self.bufferedCANMessageMemory.store msg
      { self.bufferedCANMessageMemory msg with telegram := self.can.head? } }

def receiveCANMessage (self : LinkinterfaceCAN) : Option (Option Nat × LinkinterfaceCAN) :=
  if !self.isBroadcastLink then some (none, self)
  else
    let taken :=
      if self.emptyBufferedCANMessagesPos < 0 then self.stealLast
      else
        some (self.emptyBufferedCANMessages self.emptyBufferedCANMessagesPos.toNat, self)
    taken.bind fun (msg, self) =>
      let received := self.can ≠ []
      let self := self.read msg
      if received then
        if self.emptyBufferedCANMessagesPos < 0 then some (some msg, self)
        else
          some (some msg,
            { self with emptyBufferedCANMessagesPos := self.emptyBufferedCANMessagesPos - 1 })
      else if self.emptyBufferedCANMessagesPos < 0 then
        (self.release msg).map fun self => (none, self)
      else some (none, self)

variable (NOW : Nat → Int64)

def appendCANMsgToCurrentNetMsg (self : LinkinterfaceCAN) (canMsg : Nat) :
    Option (Bool × LinkinterfaceCAN) :=
  if !self.currentMsgSet then some (false, self)
  else
    (self.release canMsg).bind fun self =>
      match (self.bufferedCANMessageMemory canMsg).telegram with
      | none => none
      | some telegram =>
        let (complete, reassembly) := self.reassembly.append NOW telegram
        some (complete, { self with reassembly := reassembly })

/-- `bufElement` is taken out of the linked list. -/
def remove (self : LinkinterfaceCAN) (prevBufElement : Option Nat) (bufElement : Nat) :
    LinkinterfaceCAN :=
  let next := (self.bufferedCANMessageMemory bufElement).next
  let self :=
    match prevBufElement with
    | none => { self with bufferedCANMsgsStart := next }
    | some prev => self.setNext prev next
  if next = none then { self with bufferedCANMsgsEnd := prevBufElement } else self

/-- `while(bufElement !=0)`. -/
def scanBuffer :
    (fuel : Nat) → (prevBufElement bufElement : Option Nat) → LinkinterfaceCAN →
      Option (Bool × LinkinterfaceCAN)
  | _, _, none, self => some (false, self)
  | 0, _, some _, _ => none
  | fuel + 1, prevBufElement, some bufElement, self =>
    match (self.bufferedCANMessageMemory bufElement).telegram with
    | none => none
    | some telegram =>
      let current := self.reassembly.currentReceiveCANId
      if telegram.canID = current ∨ current = 0 then
        ((self.remove prevBufElement bufElement).appendCANMsgToCurrentNetMsg NOW bufElement).bind
          fun (complete, self) =>
            if complete then some (true, self)
            else scanBuffer fuel prevBufElement (self.bufferedCANMessageMemory bufElement).next self
      else
        scanBuffer fuel (some bufElement) (self.bufferedCANMessageMemory bufElement).next self

/-- `msg` becomes the last buffer of the linked list. -/
def park (self : LinkinterfaceCAN) (msg : Nat) : LinkinterfaceCAN :=
  let self := self.setNext msg none
  let self :=
    match self.bufferedCANMsgsEnd with
    | none => { self with bufferedCANMsgsStart := some msg }
    | some last => self.setNext last (some msg)
  { self with
    bufferedCANMsgsEnd := some msg
    mostBuffered := max self.mostBuffered
      (CAN_MSG_BUFFER_SIZE - 1 - self.emptyBufferedCANMessagesPos).toNat }

/-- `while(1)`. Every round but the last takes a telegram from the driver. -/
def receiveLoop : (fuel : Nat) → LinkinterfaceCAN → Option (Bool × LinkinterfaceCAN)
  | 0, _ => none
  | fuel + 1, self =>
    self.receiveCANMessage.bind fun (msg, self) =>
      match msg with
      | none => some (false, self)
      | some msg =>
        match (self.bufferedCANMessageMemory msg).telegram with
        | none => none
        | some telegram =>
          let current := self.reassembly.currentReceiveCANId
          if telegram.canID = current ∨ current = 0 then
            (self.appendCANMsgToCurrentNetMsg NOW msg).bind fun (complete, self) =>
              if complete then some (true, self) else receiveLoop fuel self
          else receiveLoop fuel (self.park msg)

/-- The value returned, `numberOfReceivedBytes` and the object afterwards. -/
def getNetworkMsg (self : LinkinterfaceCAN) : Option (Bool × Int × LinkinterfaceCAN) :=
  let numberOfReceivedBytes := -1
  let self := { self with currentMsgSet := true }
  let scanned :=
    if self.reassembly.currentReceiveCANId = 0 then
      self.scanBuffer NOW CAN_MSG_BUFFER_SIZE none self.bufferedCANMsgsStart
    else some (false, self)
  (scanned.bind fun (complete, self) =>
    if complete then some (true, self) else self.receiveLoop NOW (self.can.length + 1)).map
      fun (returned, self) => (returned, numberOfReceivedBytes, self)

end LinkinterfaceCAN

/-- The link together with its gateway thread: `delivered` are the messages for which
`getNetworkMsg` returned true, each as it was then, and `returned` is what the last call gave. -/
structure Session where
  link : LinkinterfaceCAN
  delivered : List Reassembly
  returned : Option Bool

inductive Action where
  | arrive (telegram : Telegram)
  | getNetworkMsg

namespace Session

def start (memory : LinkinterfaceCAN) : Session := ⟨memory.construct.init, [], none⟩

def step (NOW : Nat → Int64) (session : Session) : Action → Option Session
  | .arrive telegram =>
    some { session with link := { session.link with can := session.link.can ++ [telegram] } }
  | .getNetworkMsg =>
    (session.link.getNetworkMsg NOW).map fun (returned, _, link) =>
      { link := link
        delivered := if returned then session.delivered ++ [link.reassembly] else session.delivered
        returned := some returned }

end Session

end Rodos.Gateway
