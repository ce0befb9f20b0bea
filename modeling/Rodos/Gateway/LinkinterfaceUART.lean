import Rodos.S3p.RoundTrip
import Rodos.Gateway.CarriedMessage

/-! `LinkinterfaceUART`: messages as S3P frames on a serial line. -/
namespace Rodos.Gateway
open Library

namespace NetworkMessage

/-- The object as the bytes that the encoder and the decoder see. -/
def bytes (self : NetworkMessage) : Memory UInt8 := fun index =>
  if index < HEADER_SIZE then self.header index else self.userDataC (index - HEADER_SIZE)

/-- The object when its bytes have been written through such a pointer. -/
def withBytes (self : NetworkMessage) (bytes : Memory UInt8) : NetworkMessage where
  header := fun index => if index < HEADER_SIZE then bytes index else self.header index
  userDataC := fun index => bytes (HEADER_SIZE + index)

theorem withBytes_copy (self source : NetworkMessage) (count : Nat) :
    self.withBytes (Memory.copy self.bytes source.bytes 0 0 count) =
      self.overwrite source count := by
  have hheader : (self.withBytes (Memory.copy self.bytes source.bytes 0 0 count)).header =
      (self.overwrite source count).header := by
    funext index
    simp only [withBytes, overwrite, Memory.copy_start, bytes]
    by_cases hindex : index < HEADER_SIZE
    · by_cases hcount : index < count
      · rw [if_pos hindex, if_pos hcount, if_pos hindex, if_pos (by omega)]
      · rw [if_pos hindex, if_neg hcount, if_pos hindex, if_neg (by omega)]
    · rw [if_neg hindex, if_neg (by omega)]
  have huserData : (self.withBytes (Memory.copy self.bytes source.bytes 0 0 count)).userDataC =
      (self.overwrite source count).userDataC := by
    funext index
    have hbehind : ¬ HEADER_SIZE + index < HEADER_SIZE := by omega
    simp only [withBytes, overwrite, Memory.copy_start, bytes, if_neg hbehind,
      Nat.add_sub_cancel_left]
    by_cases hcount : index < count - HEADER_SIZE
    · rw [if_pos (by omega), if_pos hcount]
    · rw [if_neg (by omega), if_neg hcount]
  exact congrArg₂ NetworkMessage.mk hheader huserData

end NetworkMessage

/-- The sending side, with the number of failing attempts before the UART takes the next byte. -/
structure LinkinterfaceUART where
  maxNumOfRetriesPerWrite : Nat
  failures : Nat → Nat

/-- What a call of `sendNetworkMsg` returns and leaves on the line. -/
structure SentByUart where
  returned : Bool
  line : List UInt8

namespace LinkinterfaceUART

/-- The retry loop of `putByte`, which sets `errFLag` when it gives up. -/
def retry (self : LinkinterfaceUART) (errCnt : Nat) : Nat → Bool
  | 0 => false
  | failing + 1 =>
    if errCnt + 1 ≥ self.maxNumOfRetriesPerWrite then true else self.retry (errCnt + 1) failing

/-- `putByte` for one byte after the other, each of which is on the line unless it is given up. -/
def putBytes (self : LinkinterfaceUART) (written : Nat) : List UInt8 → SentByUart
  | [] => ⟨true, []⟩
  | c :: later =>
    let sent := self.putBytes (written + 1) later
    if self.retry 0 (self.failures written) then { sent with returned := false }
    else { sent with line := c :: sent.line }

def sendNetworkMsg (self : LinkinterfaceUART) (outgoingMessage : NetworkMessage) : SentByUart :=
  self.putBytes 0
    (S3p.Sender.sendMsg outgoingMessage.numberOfBytesToSend.toNat outgoingMessage.bytes)

/-- `inMsg` and `numberOfReceivedBytes` with the unread bytes, or no number while it waits. -/
def getNetworkMsg (inMsg : NetworkMessage) (line : List UInt8) :
    NetworkMessage × Option (Int × List UInt8) :=
  let call := S3p.getMsg MAX_UART_MESSAGE_LENGTH inMsg.bytes line
  (inMsg.withBytes call.msg, call.returned)

/-- No byte is given up. -/
def Lossless (self : LinkinterfaceUART) : Prop := ∀ k, self.retry 0 (self.failures k) = false

variable {self : LinkinterfaceUART}

theorem Lossless.putBytes (h : self.Lossless) (written : Nat) (line : List UInt8) :
    self.putBytes written line = ⟨true, line⟩ := by
  induction line generalizing written with
  | nil => rfl
  | cons c later ih => simp only [LinkinterfaceUART.putBytes, h written, ih, Bool.false_eq_true,
      if_false]

/-- What arrives is what the UART link carries, cut off at its capacity. -/
theorem Lossless.getNetworkMsg (h : self.Lossless) (slot inMsg outMsg : NetworkMessage)
    (NOW : Int64) (later : List UInt8) :
    (self.sendNetworkMsg outMsg).returned ∧
      LinkinterfaceUART.getNetworkMsg inMsg ((self.sendNetworkMsg outMsg).line ++ later) =
        (LinkType.uart.carry NOW slot inMsg outMsg,
          some (LinkType.uart.reportedSize outMsg, later)) := by
  rw [sendNetworkMsg, h.putBytes]
  refine ⟨rfl, ?_⟩
  unfold LinkinterfaceUART.getNetworkMsg
  rw [S3p.getMsg_sendMsg, Nat.min_comm]
  dsimp only
  rw [NetworkMessage.withBytes_copy, LinkType.reportedSize, ← Nat.cast_min]
  rfl

/-- The message arrives as it was sent, with its size, and the gateway goes on with it. -/
def Arrives (outMsg inMsg : NetworkMessage) (size : Int) : Prop :=
  inMsg.header.front HEADER_SIZE = outMsg.header.front HEADER_SIZE ∧
    inMsg.userData = outMsg.userData ∧
    size = outMsg.numberOfBytesToSend.toNat ∧ Gateway.sizeAccepted inMsg size

/-- Exactly the messages that fit into `MAX_UART_MESSAGE_LENGTH` with their header make the round
trip, whatever follows them on the line. -/
theorem uart_round_trip_iff (hlossless : self.Lossless) (inMsg outMsg : NetworkMessage)
    (later : List UInt8) (hlen : outMsg.getLen.toNat ≤ MAX_NETWORK_MESSAGE_LENGTH) :
    ((self.sendNetworkMsg outMsg).returned ∧ ∃ received size,
      getNetworkMsg inMsg ((self.sendNetworkMsg outMsg).line ++ later) =
        (received, some (size, later)) ∧ Arrives outMsg received size) ↔
      HEADER_SIZE + outMsg.getLen.toNat ≤ MAX_UART_MESSAGE_LENGTH := by
  have hcount := NetworkMessage.toNat_numberOfBytesToSend_of_le hlen
  obtain ⟨hreturned, hreceived⟩ := hlossless.getNetworkMsg inMsg inMsg outMsg 0 later
  have hsize : LinkType.uart.reportedSize outMsg =
      min MAX_UART_MESSAGE_LENGTH (HEADER_SIZE + outMsg.getLen.toNat) := by
    rw [LinkType.reportedSize, hcount, Nat.cast_min]
  rw [hreceived]
  constructor
  · rintro ⟨_, received, size, hresult, hheader, huserData, hnumber, haccepted⟩
    rw [Prod.mk.injEq, Option.some.injEq, Prod.mk.injEq] at hresult
    rw [← hresult.2.1, hsize, hcount] at hnumber
    omega
  · intro hfits
    have hmax : MAX_UART_MESSAGE_LENGTH = 1300 := rfl
    have hheaderSize : HEADER_SIZE = 36 := rfl
    have hcarried := LinkType.uart.carried 0 inMsg inMsg
      (show outMsg.getLen.toNat ≤ LinkType.uart.longestUserData from Nat.le_sub_of_add_le' hfits)
    refine ⟨hreturned, _, _, rfl, ?_, ?_, ?_, ?_⟩
    · apply Memory.front_congr
      intro index hindex
      exact NetworkMessage.overwrite_header (by omega) hindex
    · unfold NetworkMessage.userData
      rw [hcarried.len]
      exact Memory.front_congr hcarried.received
    · omega
    · rw [Gateway.sizeAccepted_iff, hcarried.len]
      omega

/-- A line on which every byte is taken at the first attempt. -/
def ready : LinkinterfaceUART where
  maxNumOfRetriesPerWrite := 1000
  failures := fun _ => 0

/-- A message that says it has so many bytes. -/
def ofLength (len : UInt16) : NetworkMessage :=
  (NetworkMessage.mk (fun _ => 0) (fun _ => 0xFE)).putLen len

theorem uart_round_trip_iff_longest :
    (ready.sendNetworkMsg (ofLength 1264)).returned ∧ ∃ received size,
      getNetworkMsg (ofLength 0) ((ready.sendNetworkMsg (ofLength 1264)).line ++ []) =
        (received, some (size, [])) ∧ Arrives (ofLength 1264) received size :=
  (uart_round_trip_iff (fun _ => rfl) (ofLength 0) (ofLength 1264) [] (by decide)).mpr (by decide)

/-- One byte more, and the gateway is told 1300 instead of 1301. -/
theorem uart_message_dropped :
    (ofLength 1265).getLen.toNat ≤ MAX_NETWORK_MESSAGE_LENGTH ∧
      ∃ received, getNetworkMsg (ofLength 0) (ready.sendNetworkMsg (ofLength 1265)).line =
        (received, some (1300, [])) ∧
      (ofLength 1265).numberOfBytesToSend = 1301 ∧ ¬ Gateway.sizeAccepted received 1300 := by
  have hready : ready.Lossless := fun _ => rfl
  obtain ⟨_, hreceived⟩ := hready.getNetworkMsg (ofLength 0) (ofLength 0) (ofLength 1265) 0 []
  rw [List.append_nil] at hreceived
  refine ⟨by decide, _, hreceived, by decide, ?_⟩
  have hlen : (LinkType.uart.carry 0 (ofLength 0) (ofLength 0) (ofLength 1265)).getLen = 1265 := by
    refine (NetworkMessage.getLen_of_cells fun index _ hindex => ?_).trans
      (show (ofLength 1265).getLen = 1265 by decide)
    exact NetworkMessage.overwrite_header (by decide) (by unfold HEADER_SIZE; omega)
  rw [Gateway.sizeAccepted_iff, hlen]
  decide

end LinkinterfaceUART

end Rodos.Gateway
