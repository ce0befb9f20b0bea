import Rodos.Gateway.MessageHeader
import Rodos.Gateway.LinkinterfaceUART
import Rodos.Gateway.ErrorDetection

/-! The network messages of the Python middleware: how the gateway builds one, and what a node reads
of its bytes. -/
namespace Rodos.Middleware
open Library

/-! ### `struct.pack` -/

/-- A character of a format string, in network byte order. -/
inductive Format where
  | i | I | h | H | Q

namespace Format

def size : Format → Nat
  | .i | .I => 4
  | .h | .H => 2
  | .Q => 8

/-- Packing any other number raises `struct.error`. -/
def Accepts (value : Int) : Format → Prop
  | .i => -2 ^ 31 ≤ value ∧ value < 2 ^ 31
  | .I => 0 ≤ value ∧ value < 2 ^ 32
  | .h => -2 ^ 15 ≤ value ∧ value < 2 ^ 15
  | .H => 0 ≤ value ∧ value < 2 ^ 16
  | .Q => 0 ≤ value ∧ value < 2 ^ 64

instance (value : Int) : (format : Format) → Decidable (format.Accepts value)
  | .i | .I | .h | .H | .Q => inferInstanceAs (Decidable (_ ∧ _))

def pack (format : Format) (value : Int) : Option (List UInt8) :=
  if format.Accepts value then
    some (Memory.bigEndianBytes format.size (value % 256 ^ format.size).toNat)
  else none

end Format

/-- `none` is an exception. -/
def structPack : List Format → List Int → Option (List UInt8)
  | [], [] => some []
  | format :: formats, value :: values => do
    let front ← format.pack value
    let back ← structPack formats values
    some (front ++ back)
  | _, _ => none

/-! ### `checksums.py` -/

def rotateRight (checksum : Nat) : Nat :=
  (if checksum &&& 0x01 ≠ 0 then ((checksum &&& 0xFFFF) >>> 1) ||| 0x8000
    else (checksum &&& 0xFFFF) >>> 1) &&& 0xFFFF

/-- The body of the loop of `calcCheckSum`. -/
def addByte (data : List UInt8) (checksum cnt : Nat) : Option Nat := do
  let checksum := rotateRight (checksum &&& 0xFFFF)
  let byte ← data[cnt]?
  some ((checksum &&& 0xFFFF) + (byte.toNat &&& 0xFF))

/-- `length` is 0 for the whole string. -/
def calcCheckSum (data : List UInt8) (length : Nat) : Option Nat := do
  let length := if length = 0 then data.length else length
  let checksum ← (List.range length).foldlM (addByte data) 0
  some (checksum &&& 0xFFFF)

/-! ### `networkmessage.py` and `gateway.py` -/

structure NetworkMessage where
  header : List Int := List.replicate 10 0
  rawHeader : List UInt8 := []
  userDataC : List UInt8 := []
  receiverNode : Int := 0
  receiverNodeBitMap : Int := 0
  maxStepsToForward : Int := 0
  checksum : Int := 0
  type : Int := 0
  len : Int := 0
  senderNode : Int := 0
  sentTime : Int := 0
  senderThreadId : Int := 0
  topicid : Int := 0

namespace NetworkMessage

def PARSE_STRING : List Format := [.i, .I, .h, .H, .H, .H, .i, .Q, .I, .I]

def updateHeader (self : NetworkMessage) : Option NetworkMessage := do
  let header := [self.receiverNode, self.receiverNodeBitMap, self.maxStepsToForward,
    self.checksum, self.type, self.len, self.senderNode, self.sentTime, self.senderThreadId,
    self.topicid]
  let rawHeader ← structPack PARSE_STRING header
  some { self with header := header, rawHeader := rawHeader }

def getBinaryMsg (self : NetworkMessage) : Option (List UInt8) :=
  if self.header.length < 10 then some []
  else do
    let self ← self.updateHeader
    let packedHeader ← structPack PARSE_STRING self.header
    some (packedHeader ++ self.userDataC)

def getUserData (self : NetworkMessage) : List UInt8 := self.userDataC.take 1300

def calcChecksum (self : NetworkMessage) : Option Nat :=
  calcCheckSum ((self.rawHeader ++ self.getUserData).drop 12) 0

end NetworkMessage

structure Gateway where
  nodeNumber : Int

namespace Gateway

/-- The message that is passed to the link; `timeNs` is what the clock shows. -/
def sendNetworkMessage (self : Gateway) (timeNs : Int) (msg : NetworkMessage) :
    Option NetworkMessage := do
  let msg := { msg with sentTime := timeNs }
  let msg := { msg with senderNode := self.nodeNumber }
  let msg ← msg.updateHeader
  let checksum ← msg.calcChecksum
  some { msg with checksum := checksum }

def forwardHandler (self : Gateway) (timeNs : Int) (data : List UInt8) (topicId : Int) :
    Option NetworkMessage := do
  let msg : NetworkMessage := {}
  let msg := { msg with topicid := topicId }
  let msg := { msg with len := data.length }
  let msg := { msg with userDataC := data }
  let msg := { msg with senderNode := 0xFF }
  let msg ← msg.updateHeader
  self.sendNetworkMessage timeNs msg

end Gateway

/-! ### Packed numbers -/

/-- The bytes of numbers that their formats accept. -/
def packed (formats : List Format) (values : List Int) : List UInt8 :=
  (List.zipWith (fun format value =>
    Memory.bigEndianBytes format.size (value % 256 ^ format.size).toNat) formats values).flatten

theorem structPack_of_accepts {formats : List Format} {values : List Int}
    (h : List.Forall₂ (fun format value => format.Accepts value) formats values) :
    structPack formats values = some (packed formats values) := by
  induction h with
  | nil => rfl
  | cons haccepts _ ih =>
    rw [structPack, Format.pack, if_pos haccepts, ih]
    rfl

/-! ### The checksum -/

theorem and_ones (value : Nat) : value &&& 0xFFFF = value % 2 ^ 16 :=
  Nat.and_two_pow_sub_one_eq_mod value 16

theorem rotateRight_eq (checksum : Nat) :
    rotateRight checksum = checksum % 2 ^ 16 / 2 + 2 ^ 15 * (checksum % 2) := by
  have hbit : checksum &&& 0x01 = checksum % 2 := Nat.and_one_is_mod checksum
  have hhalf : (checksum % 2 ^ 16) >>> 1 = checksum % 2 ^ 16 / 2 :=
    Nat.shiftRight_eq_div_pow _ 1
  have hsmall : checksum % 2 ^ 16 / 2 < 2 ^ 15 := by omega
  rw [rotateRight, hbit, and_ones, and_ones, hhalf]
  split
  · next hset =>
    have hor : checksum % 2 ^ 16 / 2 ||| 0x8000 = checksum % 2 ^ 16 / 2 + 2 ^ 15 := by
      rw [Nat.or_comm, Nat.add_comm]
      exact (Nat.two_pow_add_eq_or_of_lt hsmall 1).symm
    rw [hor]
    omega
  · omega

theorem rotateRight_toNat (c : UInt16) :
    rotateRight c.toNat = (Rodos.Gateway.rotateRight c).toNat := by
  have hsmall : c.toNat % 2 ^ 16 = c.toNat := Nat.mod_eq_of_lt c.toNat_lt
  rw [rotateRight_eq, Rodos.Gateway.toNat_rotateRight, hsmall]

theorem checkSum_snoc (data : List UInt8) (byte : UInt8) :
    (Rodos.Gateway.checkSum (data ++ [byte])).toNat =
      ((Rodos.Gateway.rotateRight (Rodos.Gateway.checkSum data)).toNat + byte.toNat) % 2 ^ 16 := by
  rw [Rodos.Gateway.checkSum, List.foldl_append]
  exact UInt16.toNat_add _ _

/-- The loop keeps the checksum of the bytes so far, with a carry above its 16 bits. -/
theorem calcCheckSum_loop (data : List UInt8) {count : Nat} (hcount : count ≤ data.length) :
    ∃ checksum, (List.range count).foldlM (addByte data) 0 = some checksum ∧
      checksum % 2 ^ 16 = (Rodos.Gateway.checkSum (data.take count)).toNat := by
  induction count with
  | zero => exact ⟨0, rfl, rfl⟩
  | succ count ih =>
    obtain ⟨checksum, hloop, hsame⟩ := ih (by omega)
    have hbyte : data[count]? = some data[count] := List.getElem?_eq_getElem (by omega)
    have hsmall : data[count].toNat &&& 0xFF = data[count].toNat := by
      rw [Nat.and_two_pow_sub_one_eq_mod _ 8]
      exact Nat.mod_eq_of_lt data[count].toNat_lt
    refine ⟨(rotateRight (checksum &&& 0xFFFF) &&& 0xFFFF) + (data[count].toNat &&& 0xFF), ?_, ?_⟩
    · rw [List.range_succ, List.foldlM_append, hloop]
      simp [addByte, hbyte]
    · rw [← List.take_concat_get' _ _ (by omega), checkSum_snoc, hsmall, and_ones, and_ones, hsame,
        rotateRight_toNat, Nat.mod_add_mod]

theorem calcCheckSum_eq (data : List UInt8) :
    calcCheckSum data 0 = some (Rodos.Gateway.checkSum data).toNat := by
  obtain ⟨checksum, hloop, hsame⟩ := calcCheckSum_loop data (Nat.le_refl _)
  rw [List.take_length] at hsame
  rw [calcCheckSum, if_pos rfl, hloop, ← hsame, ← and_ones]
  rfl

/-! ### The message on the wire -/

/-- The numbers of the header of a forwarded message. -/
def forwardedFields (checksum : Nat) (len : Nat) (nodeNumber timeNs topicId : Int) : List Int :=
  [0, 0, 0, checksum, 0, len, nodeNumber, timeNs, 0, topicId]

/-- `struct.pack` accepts the numbers of the header. -/
structure InRange (len : Nat) (nodeNumber timeNs topicId : Int) : Prop where
  len : len < 2 ^ 16
  nodeNumber : Format.i.Accepts nodeNumber
  timeNs : Format.Q.Accepts timeNs
  topicId : Format.I.Accepts topicId

theorem InRange.accepts {len : Nat} {nodeNumber timeNs topicId : Int}
    (h : InRange len nodeNumber timeNs topicId) {checksum : Nat} (hchecksum : checksum < 2 ^ 16) :
    List.Forall₂ (fun format value => format.Accepts value) NetworkMessage.PARSE_STRING
      (forwardedFields checksum len nodeNumber timeNs topicId) := by
  have hlen := h.len
  simp only [NetworkMessage.PARSE_STRING, forwardedFields, List.forall₂_cons]
  refine ⟨by decide, by decide, by decide, ?_, by decide, ?_, h.nodeNumber, h.timeNs, by decide,
    h.topicId, .nil⟩
  · exact ⟨by omega, by omega⟩
  · exact ⟨by omega, by omega⟩

/-- The header behind the checksum, and with it all of the header that the checksum covers. -/
def protectedHeader (len : Nat) (nodeNumber timeNs topicId : Int) : List UInt8 :=
  packed [.H, .H, .i, .Q, .I, .I] [0, len, nodeNumber, timeNs, 0, topicId]

theorem packed_forwardedFields (checksum len : Nat) (nodeNumber timeNs topicId : Int) :
    packed NetworkMessage.PARSE_STRING (forwardedFields checksum len nodeNumber timeNs topicId) =
      packed [.i, .I, .h, .H] [0, 0, 0, checksum] ++
        protectedHeader len nodeNumber timeNs topicId := by
  simp [packed, protectedHeader, NetworkMessage.PARSE_STRING, forwardedFields]

theorem drop_packed_forwardedFields (checksum len : Nat) (nodeNumber timeNs topicId : Int)
    (data : List UInt8) :
    (packed NetworkMessage.PARSE_STRING (forwardedFields checksum len nodeNumber timeNs topicId) ++
      data).drop 12 = protectedHeader len nodeNumber timeNs topicId ++ data := by
  rw [packed_forwardedFields, List.append_assoc]
  apply List.drop_left'
  simp [packed, Format.size]

variable {data : List UInt8} {nodeNumber timeNs topicId : Int}

theorem toNat_lt_two_pow (checksum : UInt16) : checksum.toNat < 2 ^ 16 := checksum.toNat_lt

theorem calcCheckSum_forwarded (hdata : data.length ≤ 1300) :
    calcCheckSum ((packed NetworkMessage.PARSE_STRING
        (forwardedFields 0 data.length nodeNumber timeNs topicId) ++ data.take 1300).drop 12) 0 =
      some (Rodos.Gateway.checkSum
        (protectedHeader data.length nodeNumber timeNs topicId ++ data)).toNat := by
  rw [List.take_of_length_le hdata, drop_packed_forwardedFields, calcCheckSum_eq]

namespace NetworkMessage

variable {self : NetworkMessage} {bytes : List UInt8}

/-- In the order of the header. -/
def fields (self : NetworkMessage) : List Int :=
  [self.receiverNode, self.receiverNodeBitMap, self.maxStepsToForward, self.checksum, self.type,
    self.len, self.senderNode, self.sentTime, self.senderThreadId, self.topicid]

theorem updateHeader_eq (hbytes : structPack PARSE_STRING self.fields = some bytes) :
    self.updateHeader = some { self with header := self.fields, rawHeader := bytes } := by
  rw [fields] at hbytes
  rw [updateHeader, hbytes]
  rfl

theorem getBinaryMsg_eq (hheader : self.header.length = 10)
    (hbytes : structPack PARSE_STRING self.fields = some bytes) :
    self.getBinaryMsg = some (bytes ++ self.userDataC) := by
  rw [getBinaryMsg, if_neg (by omega), updateHeader_eq hbytes]
  show ((structPack PARSE_STRING self.fields).bind fun packedHeader =>
    some (packedHeader ++ self.userDataC)) = _
  rw [hbytes]
  rfl

end NetworkMessage

/-- The message with the values that it is sent with, before its checksum. -/
def Gateway.stamp (self : Gateway) (timeNs : Int) (msg : NetworkMessage) : NetworkMessage :=
  { msg with sentTime := timeNs, senderNode := self.nodeNumber }

theorem Gateway.sendNetworkMessage_eq {self : Gateway} {msg : NetworkMessage}
    {bytes : List UInt8} {checksum : Nat}
    (hbytes : structPack NetworkMessage.PARSE_STRING (self.stamp timeNs msg).fields = some bytes)
    (hchecksum : calcCheckSum ((bytes ++ msg.userDataC.take 1300).drop 12) 0 = some checksum) :
    self.sendNetworkMessage timeNs msg = some { self.stamp timeNs msg with
      header := (self.stamp timeNs msg).fields
      rawHeader := bytes
      checksum := checksum } := by
  show ((self.stamp timeNs msg).updateHeader.bind fun msg => msg.calcChecksum.bind fun checksum =>
    some { msg with checksum := checksum }) = _
  rw [NetworkMessage.updateHeader_eq hbytes, Option.bind_some]
  show (calcCheckSum ((bytes ++ msg.userDataC.take 1300).drop 12) 0).bind _ = _
  rw [hchecksum, Option.bind_some]

/-- The message as it is made, before the clock is read. -/
def created (data : List UInt8) (topicId : Int) : NetworkMessage where
  userDataC := data
  len := data.length
  senderNode := 0xFF
  topicid := topicId

theorem fields_created :
    (created data topicId).fields = forwardedFields 0 data.length 0xFF 0 topicId := rfl

theorem Gateway.forwardHandler_eq {self : Gateway} {bytes : List UInt8}
    (hbytes : structPack NetworkMessage.PARSE_STRING (created data topicId).fields = some bytes) :
    self.forwardHandler timeNs data topicId = self.sendNetworkMessage timeNs
      { created data topicId with
        header := (created data topicId).fields
        rawHeader := bytes } := by
  show ((created data topicId).updateHeader.bind fun msg => self.sendNetworkMessage timeNs msg) = _
  rw [NetworkMessage.updateHeader_eq hbytes, Option.bind_some]

theorem fields_stamped (header : List Int) (rawHeader : List UInt8) :
    (Gateway.stamp ⟨nodeNumber⟩ timeNs { created data topicId with
      header := header, rawHeader := rawHeader }).fields =
        forwardedFields 0 data.length nodeNumber timeNs topicId := rfl

/-- The header is packed four times, the last time with the checksum. -/
theorem getBinaryMsg_forwardHandler (h : InRange data.length nodeNumber timeNs topicId)
    (hdata : data.length ≤ 1300) {checksum : UInt16}
    (hchecksum : Rodos.Gateway.checkSum
      (protectedHeader data.length nodeNumber timeNs topicId ++ data) = checksum) :
    (Gateway.forwardHandler ⟨nodeNumber⟩ timeNs data topicId).bind NetworkMessage.getBinaryMsg =
      some (packed NetworkMessage.PARSE_STRING
        (forwardedFields checksum.toNat data.length nodeNumber timeNs topicId) ++ data) := by
  have hzero : 0 < 2 ^ 16 := by decide
  have hfirst : InRange data.length 0xFF 0 topicId := ⟨h.len, by decide, by decide, h.topicId⟩
  have hcreated := structPack_of_accepts (hfirst.accepts hzero)
  have hunchecked := structPack_of_accepts (h.accepts hzero)
  have hlast := structPack_of_accepts (h.accepts (toNat_lt_two_pow checksum))
  have hcalculated := @calcCheckSum_forwarded data nodeNumber timeNs topicId hdata
  rw [hchecksum] at hcalculated
  rw [← fields_created] at hcreated
  rw [← fields_stamped] at hunchecked
  rw [Gateway.forwardHandler_eq hcreated,
    Gateway.sendNetworkMessage_eq hunchecked hcalculated, Option.bind_some]
  exact NetworkMessage.getBinaryMsg_eq rfl hlast

/-! ### Read by a node -/

/-- A message object of a node into which the bytes have been received. -/
def receive (buffer : Rodos.Gateway.NetworkMessage) (bytes : List UInt8) :
    Rodos.Gateway.NetworkMessage :=
  buffer.withBytes (buffer.bytes.overlay bytes)

theorem receive_header {buffer : Rodos.Gateway.NetworkMessage} {header : List UInt8}
    (hlength : header.length = 36) (data : List UInt8) :
    (receive buffer (header ++ data)).header.Bears 0 header := by
  intro index hindex
  have hborne := (Memory.bears_append.mp (Memory.bears_overlay buffer.bytes (header ++ data))).1
  rw [hborne index hindex]
  exact congrArg some (if_pos (by unfold Rodos.Gateway.HEADER_SIZE; omega)).symm

theorem receive_userDataC {buffer : Rodos.Gateway.NetworkMessage} {header : List UInt8}
    (hlength : header.length = 36) (data : List UInt8) :
    (receive buffer (header ++ data)).userDataC.Bears 0 data := by
  intro index hindex
  have hborne := (Memory.bears_append.mp (Memory.bears_overlay buffer.bytes (header ++ data))).2
  rw [hborne index hindex, hlength, Nat.zero_add, Nat.zero_add]
  rfl

theorem length_packed_forwardedFields (checksum len : Nat) :
    (packed NetworkMessage.PARSE_STRING
      (forwardedFields checksum len nodeNumber timeNs topicId)).length = 36 := by
  simp [packed, NetworkMessage.PARSE_STRING, forwardedFields, Format.size]

theorem toNat_emod_int32 (x : Int32) : (x.toInt % 256 ^ 4).toNat = x.toUInt32.toNat := by
  have hlt := x.toUInt32.toNat_lt
  rw [Rodos.Gateway.toInt_eq_toNat_toUInt32]
  split <;> omega

/-- The fields of the header, each in the cells where the getters look for it. -/
theorem loads_of_bears {memory : Memory UInt8} {checksum len : Nat}
    (h : memory.Bears 0 (packed NetworkMessage.PARSE_STRING
      (forwardedFields checksum len nodeNumber timeNs topicId))) :
    memory.loadBigEndian 0 4 = 0 ∧ memory.loadBigEndian 4 4 = 0 ∧
      memory.loadBigEndian 10 2 = (checksum % 256 ^ 2 : Int).toNat % 256 ^ 2 ∧
      memory.loadBigEndian 12 2 = 0 ∧
      memory.loadBigEndian 14 2 = (len % 256 ^ 2 : Int).toNat % 256 ^ 2 ∧
      memory.loadBigEndian 16 4 = (nodeNumber % 256 ^ 4).toNat % 256 ^ 4 ∧
      memory.loadBigEndian 20 8 = (timeNs % 256 ^ 8).toNat % 256 ^ 8 ∧
      memory.loadBigEndian 28 4 = 0 ∧
      memory.loadBigEndian 32 4 = (topicId % 256 ^ 4).toNat % 256 ^ 4 := by
  simp only [packed, NetworkMessage.PARSE_STRING, forwardedFields, List.zipWith_cons_cons,
    List.flatten_cons, Memory.bears_append, Memory.length_bigEndianBytes, Format.size] at h
  obtain ⟨hreceiver, hbitMap, -, hchecksum, htype, hlen, hnode, htime, hthread, htopic, -⟩ := h
  exact ⟨Memory.loadBigEndian_of_bears hreceiver, Memory.loadBigEndian_of_bears hbitMap,
    Memory.loadBigEndian_of_bears hchecksum, Memory.loadBigEndian_of_bears htype,
    Memory.loadBigEndian_of_bears hlen, Memory.loadBigEndian_of_bears hnode,
    Memory.loadBigEndian_of_bears htime, Memory.loadBigEndian_of_bears hthread,
    Memory.loadBigEndian_of_bears htopic⟩

theorem toNat_emod_int64 (x : Int64) : (x.toInt % 256 ^ 8).toNat = x.toUInt64.toNat := by
  have hlt := x.toUInt64.toNat_lt
  have hint : x.toInt = if 2 * x.toUInt64.toNat < 2 ^ 64 then (x.toUInt64.toNat : Int)
      else x.toUInt64.toNat - 2 ^ 64 := BitVec.toInt_eq_toNat_cond _
  rw [hint]
  split <;> omega

section reading

variable {node : Int32} {sentTime : Int64} {topic : UInt32} {checksum : UInt16}
  {message : Rodos.Gateway.NetworkMessage}

theorem inRange_of_types (hdata : data.length ≤ 1300) (htime : 0 ≤ sentTime.toInt) :
    InRange data.length node.toInt sentTime.toInt topic.toNat := by
  have hnodeLow := node.le_toInt
  have hnodeHigh := node.toInt_lt
  have htimeHigh := sentTime.toInt_lt
  have htopic := topic.toNat_lt
  exact ⟨by omega, ⟨by omega, by omega⟩, ⟨htime, by omega⟩, ⟨by omega, by omega⟩⟩

theorem headerIs_of_bears
    (hheader : message.header.Bears 0 (packed NetworkMessage.PARSE_STRING
      (forwardedFields checksum.toNat data.length node.toInt sentTime.toInt topic.toNat))) :
    message.HeaderIs topic (UInt16.ofNat data.length) ⟨node, 0, sentTime, 0, 0, 0, 0⟩ := by
  obtain ⟨hreceiver, hbitMap, -, htype, hlen, hnode, htime, hthread, htopic⟩ :=
    loads_of_bears hheader
  refine .of_loads hreceiver hbitMap htype ?_ ?_ ?_ hthread ?_
  · rw [hlen, UInt16.toNat_ofNat']
    omega
  · rw [hnode, toNat_emod_int32]
  · rw [htime, toNat_emod_int64]
  · rw [htopic]
    omega

theorem isCheckSumOk_of_bears (hdata : data.length ≤ 1300)
    (hheader : message.header.Bears 0 (packed NetworkMessage.PARSE_STRING
      (forwardedFields checksum.toNat data.length node.toInt sentTime.toInt topic.toNat)))
    (huserData : message.userDataC.Bears 0 data)
    (hchecksum : Rodos.Gateway.checkSum
      (protectedHeader data.length node.toInt sentTime.toInt topic.toNat ++ data) = checksum) :
    message.isCheckSumOk := by
  have hfront := Memory.front_of_bears hheader
  rw [length_packed_forwardedFields] at hfront
  have hprotected : (message.header.front Rodos.Gateway.HEADER_SIZE).drop 12 =
      protectedHeader data.length node.toInt sentTime.toInt topic.toNat := by
    have hdrop := drop_packed_forwardedFields checksum.toNat data.length node.toInt
      sentTime.toInt topic.toNat []
    rw [List.append_nil, List.append_nil] at hdrop
    rw [Rodos.Gateway.HEADER_SIZE, hfront, hdrop]
  have hcalculated : message.calculateCheckSum = checksum := by
    rw [Rodos.Gateway.NetworkMessage.calculateCheckSum, hprotected,
      (headerIs_of_bears hheader).len, Rodos.Gateway.NetworkMessage.toNat_ofNat_len hdata,
      Memory.front_of_bears huserData, hchecksum]
  have hread : message.getChecksum = checksum := by
    have hload := (loads_of_bears hheader).2.2.1
    have hlt := checksum.toNat_lt
    apply UInt16.toNat_inj.mp
    rw [Rodos.Gateway.NetworkMessage.getChecksum, hload, UInt16.toNat_ofNat']
    omega
  rw [Rodos.Gateway.NetworkMessage.isCheckSumOk, hcalculated, hread]
  exact beq_self_eq_true _

end reading

/-- The nodes read from a forwarded message what the Python gateway was given, with a correct
checksum. -/
theorem forwardHandler_read_back (node : Int32) (sentTime : Int64) (topic : UInt32)
    (data : List UInt8) (buffer : Rodos.Gateway.NetworkMessage) (htime : 0 ≤ sentTime.toInt)
    (hdata : data.length ≤ Rodos.Gateway.MAX_NETWORK_MESSAGE_LENGTH) :
    ∃ bytes, (Gateway.forwardHandler ⟨node.toInt⟩ sentTime.toInt data topic.toNat).bind
        NetworkMessage.getBinaryMsg = some bytes ∧
      (receive buffer bytes).getTopicId = topic ∧
      (receive buffer bytes).getLen.toNat = data.length ∧
      (receive buffer bytes).getSenderNode = node ∧
      (receive buffer bytes).getSentTime = sentTime ∧
      (receive buffer bytes).userData = data ∧
      (receive buffer bytes).isCheckSumOk := by
  have hrange : InRange data.length node.toInt sentTime.toInt topic.toNat :=
    inRange_of_types hdata htime
  obtain ⟨checksum, hchecksum⟩ : ∃ checksum, Rodos.Gateway.checkSum
      (protectedHeader data.length node.toInt sentTime.toInt topic.toNat ++ data) = checksum :=
    ⟨_, rfl⟩
  refine ⟨_, getBinaryMsg_forwardHandler hrange hdata hchecksum, ?_⟩
  generalize hmessage : receive buffer _ = message
  have hheader : message.header.Bears 0 (packed NetworkMessage.PARSE_STRING
      (forwardedFields checksum.toNat data.length node.toInt sentTime.toInt topic.toNat)) := by
    rw [← hmessage]
    exact receive_header (length_packed_forwardedFields _ _) data
  have huserData : message.userDataC.Bears 0 data := by
    rw [← hmessage]
    exact receive_userDataC (length_packed_forwardedFields _ _) data
  have hread := headerIs_of_bears hheader
  have hlen : message.getLen.toNat = data.length := by
    rw [hread.len]
    exact Rodos.Gateway.NetworkMessage.toNat_ofNat_len hdata
  have hdataRead : message.userData = data := by
    rw [Rodos.Gateway.NetworkMessage.userData, hlen]
    exact Memory.front_of_bears huserData
  exact ⟨hread.topicId, hlen, hread.senderNode, hread.sentTime, hdataRead,
    isCheckSumOk_of_bears hdata hheader huserData hchecksum⟩

theorem forwardHandler_read_back_three :
    ∃ bytes, (Gateway.forwardHandler ⟨(255 : Int32).toInt⟩ (1 : Int64).toInt [1, 2, 3]
        (1000 : UInt32).toNat).bind NetworkMessage.getBinaryMsg = some bytes ∧
      (receive ⟨fun _ => 0, fun _ => 0⟩ bytes).getTopicId = 1000 ∧
      (receive ⟨fun _ => 0, fun _ => 0⟩ bytes).getLen.toNat = 3 ∧
      (receive ⟨fun _ => 0, fun _ => 0⟩ bytes).getSenderNode = 255 ∧
      (receive ⟨fun _ => 0, fun _ => 0⟩ bytes).getSentTime = 1 ∧
      (receive ⟨fun _ => 0, fun _ => 0⟩ bytes).userData = [1, 2, 3] ∧
      (receive ⟨fun _ => 0, fun _ => 0⟩ bytes).isCheckSumOk :=
  forwardHandler_read_back 255 1 1000 [1, 2, 3] ⟨fun _ => 0, fun _ => 0⟩ (by decide) (by decide)

end Rodos.Middleware
