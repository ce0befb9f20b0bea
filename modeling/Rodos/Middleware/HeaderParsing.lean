import Rodos.Middleware.NetworkMessage

/-! How the Python middleware makes a message of received bytes: `__init__` parses the header and
sets the fields to zero afterwards. -/
namespace Rodos.Middleware
open Library

/-! ### `struct.unpack` -/

/-- The number whose digits are the bytes. -/
def bigEndianValue (bytes : List UInt8) : Nat :=
  bytes.foldl (fun value byte => value * 256 + byte.toNat) 0

namespace Format

def unpack (format : Format) (bytes : List UInt8) : Int :=
  let value := bigEndianValue bytes
  match format with
  | .i => if value < 2 ^ 31 then value else value - 2 ^ 32
  | .h => if value < 2 ^ 15 then value else value - 2 ^ 16
  | .I | .H | .Q => value

end Format

/-- `none` is an exception: the bytes are not as many as the formats need. -/
def structUnpack : List Format → List UInt8 → Option (List Int)
  | [], [] => some []
  | [], _ :: _ => none
  | format :: formats, bytes =>
    if bytes.length < format.size then none
    else do
      let values ← structUnpack formats (bytes.drop format.size)
      some (format.unpack (bytes.take format.size) :: values)

namespace NetworkMessage

/-- The assignments of `parseHeader`. -/
def setFields (self : NetworkMessage) (unpacked : List Int) : NetworkMessage :=
  { self with
    receiverNode := unpacked.getD 0 0
    receiverNodeBitMap := unpacked.getD 1 0
    maxStepsToForward := unpacked.getD 2 0
    checksum := unpacked.getD 3 0
    type := unpacked.getD 4 0
    len := unpacked.getD 5 0
    senderNode := unpacked.getD 6 0
    sentTime := unpacked.getD 7 0
    senderThreadId := unpacked.getD 8 0
    topicid := unpacked.getD 9 0 }

def parseHeader (self : NetworkMessage) (rawMsg : List UInt8) : Option NetworkMessage := do
  let unpacked ← structUnpack PARSE_STRING (rawMsg.take 36)
  let self ← (self.setFields unpacked).updateHeader
  some { self with userDataC := rawMsg.drop 36 }

/-- `__init__`. -/
def new (rawBytes : List UInt8) : Option NetworkMessage := do
  let self : NetworkMessage := {}
  let self ← if rawBytes.length ≠ 0 then self.parseHeader rawBytes else some self
  some { self with
    receiverNode := 0
    receiverNodeBitMap := 0
    maxStepsToForward := 0
    checksum := 0
    type := 0
    len := 0
    senderNode := 0
    sentTime := 0
    senderThreadId := 0
    topicid := 0 }

end NetworkMessage

/-- What the getters of a node read, in the order of the header. -/
def getterFields (message : Rodos.Gateway.NetworkMessage) : List Int :=
  [message.getReceiverNode.toInt, message.getReceiverNodesBitMap.toNat,
    message.getMaxStepsToForward.toInt, message.getChecksum.toNat, message.getType.toNat,
    message.getLen.toNat, message.getSenderNode.toInt, message.getSentTime.toInt,
    message.getSenderThreadId.toNat, message.getTopicId.toNat]

/-- The message made of the bytes has the fields that a node reads from them, and gives the bytes
back. -/
def ParsesWhatItIsGiven (buffer : Rodos.Gateway.NetworkMessage) (raw : List UInt8) : Prop :=
  ∃ message, NetworkMessage.new raw = some message ∧
    message.fields = getterFields (receive buffer raw) ∧ message.getBinaryMsg = some raw

/-! ### Numbers read and packed again -/

theorem bigEndianValue_append_singleton (bytes : List UInt8) (byte : UInt8) :
    bigEndianValue (bytes ++ [byte]) = bigEndianValue bytes * 256 + byte.toNat := by
  rw [bigEndianValue, List.foldl_append]
  rfl

theorem bigEndianValue_lt (bytes : List UInt8) : bigEndianValue bytes < 256 ^ bytes.length := by
  induction bytes using List.reverseRecOn with
  | nil => decide
  | append_singleton bytes byte ih =>
    have hbyte := byte.toNat_lt
    rw [bigEndianValue_append_singleton, List.length_append, List.length_singleton, Nat.pow_succ]
    omega

theorem bigEndianBytes_bigEndianValue (bytes : List UInt8) :
    Memory.bigEndianBytes bytes.length (bigEndianValue bytes) = bytes := by
  induction bytes using List.reverseRecOn with
  | nil => rfl
  | append_singleton bytes byte ih =>
    have hbyte := byte.toNat_lt
    have hfront : (bigEndianValue bytes * 256 + byte.toNat) / 256 = bigEndianValue bytes := by omega
    have hlast : UInt8.ofNat (bigEndianValue bytes * 256 + byte.toNat) = byte := by
      apply UInt8.toNat_inj.mp
      rw [UInt8.toNat_ofNat']
      omega
    rw [bigEndianValue_append_singleton, List.length_append, List.length_singleton,
      Memory.bigEndianBytes, hfront, hlast, ih]

/-- A number that has been read is accepted, and its lowest bytes are those it was read from. -/
theorem unpack_spec (format : Format) {bytes : List UInt8} (hlength : bytes.length = format.size) :
    format.Accepts (format.unpack bytes) ∧
      (format.unpack bytes % 256 ^ format.size).toNat = bigEndianValue bytes := by
  have hlt := bigEndianValue_lt bytes
  rw [hlength] at hlt
  unfold Format.unpack
  cases format with
  | i => simp only [Format.size, Format.Accepts] at hlt ⊢; split <;> omega
  | I => simp only [Format.size, Format.Accepts] at hlt ⊢; omega
  | h => simp only [Format.size, Format.Accepts] at hlt ⊢; split <;> omega
  | H => simp only [Format.size, Format.Accepts] at hlt ⊢; omega
  | Q => simp only [Format.size, Format.Accepts] at hlt ⊢; omega

/-- As many bytes as the formats need are read, and packed again to the same. -/
theorem structUnpack_spec {formats : List Format} {bytes : List UInt8}
    (hlength : bytes.length = (formats.map Format.size).sum) :
    ∃ values, structUnpack formats bytes = some values ∧
      List.Forall₂ (fun format value => format.Accepts value) formats values ∧
      packed formats values = bytes := by
  induction formats generalizing bytes with
  | nil =>
    have hnil := List.eq_nil_of_length_eq_zero hlength
    subst hnil
    exact ⟨[], rfl, .nil, rfl⟩
  | cons format formats ih =>
    rw [List.map_cons, List.sum_cons] at hlength
    have htake : (bytes.take format.size).length = format.size := by
      rw [List.length_take]
      omega
    obtain ⟨values, hvalues, haccepts, hpacked⟩ := @ih (bytes.drop format.size) (by
      rw [List.length_drop]
      omega)
    obtain ⟨hfirst, hbytes⟩ := unpack_spec format htake
    refine ⟨format.unpack (bytes.take format.size) :: values, ?_, .cons hfirst haccepts, ?_⟩
    · rw [structUnpack, if_neg (by omega), hvalues]
      rfl
    · have hfront := bigEndianBytes_bigEndianValue (bytes.take format.size)
      rw [htake] at hfront
      show Memory.bigEndianBytes format.size _ ++ packed formats values = bytes
      rw [hbytes, hfront, hpacked, List.take_append_drop]

/-! ### The message made of the bytes -/

namespace NetworkMessage

theorem fields_setFields (self : NetworkMessage) {unpacked : List Int}
    (hlength : unpacked.length = 10) : (self.setFields unpacked).fields = unpacked :=
  match unpacked, hlength with
  | [_, _, _, _, _, _, _, _, _, _], _ => rfl

/-- The message with the numbers that have been read from its header. -/
def parsed (raw : List UInt8) (values : List Int) : NetworkMessage :=
  { setFields {} values with
    header := (setFields {} values).fields
    rawHeader := raw.take 36
    userDataC := raw.drop 36 }

theorem fields_parsed (raw : List UInt8) (values : List Int) :
    (parsed raw values).fields = (setFields {} values).fields := rfl

/-- What the parsing alone makes of the bytes would give them back. -/
theorem parseHeader_spec {raw : List UInt8} (hlength : 36 ≤ raw.length) :
    ∃ message, parseHeader {} raw = some message ∧ message.header.length = 10 ∧
      message.userDataC = raw.drop 36 ∧ message.getBinaryMsg = some raw := by
  have hheader : (raw.take 36).length = (PARSE_STRING.map Format.size).sum := by
    rw [List.length_take, Nat.min_eq_left hlength]
    rfl
  obtain ⟨values, hunpack, haccepts, hpacked⟩ := structUnpack_spec hheader
  have hten : values.length = 10 := haccepts.length_eq.symm
  have hfields := fields_setFields {} hten
  have hpack : structPack PARSE_STRING (setFields {} values).fields = some (raw.take 36) := by
    rw [hfields, structPack_of_accepts haccepts, hpacked]
  have hparse : parseHeader {} raw = some (parsed raw values) := by
    rw [parseHeader, hunpack]
    show ((setFields {} values).updateHeader.bind fun self =>
      some { self with userDataC := raw.drop 36 }) = _
    rw [updateHeader_eq hpack]
    rfl
  have hlengthHeader : (parsed raw values).header.length = 10 := by
    rw [parsed, hfields]
    exact hten
  rw [← fields_parsed raw] at hpack
  refine ⟨parsed raw values, hparse, hlengthHeader, rfl, ?_⟩
  rw [getBinaryMsg_eq hlengthHeader hpack]
  exact congrArg some (List.take_append_drop 36 raw)

/-- The header made of fields that are zero. -/
theorem structPack_zero :
    structPack PARSE_STRING (List.replicate 10 0) = some (List.replicate 36 0) := by
  decide

/-- Whatever the header is, it is replaced by zeros. -/
theorem new_spec {raw : List UInt8} (hlength : 36 ≤ raw.length) :
    ∃ message, new raw = some message ∧ message.fields = List.replicate 10 0 ∧
      message.getBinaryMsg = some (List.replicate 36 0 ++ raw.drop 36) := by
  obtain ⟨parsed, hparse, hheader, huserData, -⟩ := parseHeader_spec hlength
  rw [new, if_pos (show raw.length ≠ 0 by omega), hparse]
  refine ⟨_, rfl, rfl, ?_⟩
  rw [← huserData]
  exact getBinaryMsg_eq hheader structPack_zero

end NetworkMessage

/-- A node reads zeros from a header of zeros. -/
theorem getterFields_of_zero {message : Rodos.Gateway.NetworkMessage}
    (hzero : ∀ index < 36, message.header index = 0) :
    getterFields message = List.replicate 10 0 := by
  have hload (offset width : Nat) (hinside : offset + width ≤ 36) :
      message.header.loadBigEndian offset width =
        Memory.loadBigEndian (fun _ => 0) offset width := by
    apply Memory.loadBigEndian_congr
    intro index _ hindex
    exact hzero index (by omega)
  simp (disch := decide) only [getterFields, Rodos.Gateway.NetworkMessage.getReceiverNode,
    Rodos.Gateway.NetworkMessage.getReceiverNodesBitMap,
    Rodos.Gateway.NetworkMessage.getMaxStepsToForward, Rodos.Gateway.NetworkMessage.getChecksum,
    Rodos.Gateway.NetworkMessage.getType, Rodos.Gateway.NetworkMessage.getLen,
    Rodos.Gateway.NetworkMessage.getSenderNode, Rodos.Gateway.NetworkMessage.getSentTime,
    Rodos.Gateway.NetworkMessage.getSenderThreadId, Rodos.Gateway.NetworkMessage.getTopicId,
    hload]
  decide

/-- The fields and the bytes come back exactly if the header has only zeros, which is all that
`__init__` leaves of any header. -/
theorem parsesWhatItIsGiven_iff (buffer : Rodos.Gateway.NetworkMessage) (raw : List UInt8)
    (hlength : 36 ≤ raw.length) :
    ParsesWhatItIsGiven buffer raw ↔ raw.take 36 = List.replicate 36 0 := by
  obtain ⟨message, hnew, hfields, hbinary⟩ := NetworkMessage.new_spec hlength
  constructor
  · rintro ⟨message', hnew', -, hbinary'⟩
    rw [hnew] at hnew'
    cases hnew'
    rw [hbinary] at hbinary'
    have hraw : List.replicate 36 0 ++ raw.drop 36 = raw := Option.some.inj hbinary'
    rw [← hraw]
    exact List.take_left' (List.length_replicate ..)
  · intro hzero
    have hraw : List.replicate 36 0 ++ raw.drop 36 = raw := by
      rw [← hzero, List.take_append_drop]
    have hheader := @receive_header buffer (List.replicate 36 0) (List.length_replicate ..)
      (raw.drop 36)
    rw [hraw] at hheader
    refine ⟨message, hnew, ?_, by rw [hbinary, hraw]⟩
    rw [hfields, getterFields_of_zero]
    intro index hindex
    have hcell := hheader index (by rwa [List.length_replicate])
    rw [List.getElem?_replicate, if_pos hindex, Nat.zero_add] at hcell
    exact (Option.some.inj hcell).symm

theorem parsesWhatItIsGiven_iff_empty :
    ParsesWhatItIsGiven ⟨fun _ => 0, fun _ => 0⟩ (List.replicate 36 0) ↔
      (List.replicate 36 (0 : UInt8)).take 36 = List.replicate 36 0 :=
  parsesWhatItIsGiven_iff ⟨fun _ => 0, fun _ => 0⟩ (List.replicate 36 0) (by decide)

/-- A header without user data, of a message for the topic 1000. -/
def headerOfTopic : List UInt8 := List.replicate 34 0 ++ [0x03, 0xE8]

/-- Nodes read the topic, and that there is no user data. The message has the topic 0. -/
theorem topic_is_lost :
    (receive ⟨fun _ => 0, fun _ => 0⟩ headerOfTopic).getTopicId = 1000 ∧
      (receive ⟨fun _ => 0, fun _ => 0⟩ headerOfTopic).getLen.toNat = headerOfTopic.length - 36 ∧
      ¬ ParsesWhatItIsGiven ⟨fun _ => 0, fun _ => 0⟩ headerOfTopic := by
  refine ⟨by decide, by decide, ?_⟩
  rintro ⟨message, hnew, -, hbinary⟩
  obtain ⟨message', hnew', -, hbinary'⟩ := @NetworkMessage.new_spec headerOfTopic (by decide)
  rw [hnew] at hnew'
  cases hnew'
  rw [hbinary] at hbinary'
  exact absurd hbinary' (by decide)

end Rodos.Middleware
