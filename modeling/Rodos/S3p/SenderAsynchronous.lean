import Rodos.S3p.Synchronous

/-! The sender driven by the UART, which fetches the bytes one by one, and that it puts the same
bytes on the line as the synchronous sender. -/
namespace Rodos.S3p
open Library

/-- A buffer to read from and the number of its bytes. -/
structure Message where
  len : Nat
  s : Memory UInt8

structure S3pMsgSenderAsynchronous where
  pendingDualByte : UInt16
  isABytePendig : Bool := false
  len : Int := 0
  /-- The bytes from where the pointer stands; `none` is the null pointer. -/
  msg : Option (Memory UInt8) := none
  /-- What the application has handed over and `requestBufferToRead` has not given out yet. -/
  waiting : List Message := []

namespace S3pMsgSenderAsynchronous

/-- `msg = requestBufferToRead(len);` -/
def requestBufferToRead (self : S3pMsgSenderAsynchronous) : S3pMsgSenderAsynchronous :=
  match self.waiting with
  | [] => { self with msg := none, len := 0 }
  | message :: waiting =>
    { self with msg := some message.s, len := message.len, waiting := waiting }

def getDualByte (self : S3pMsgSenderAsynchronous) : UInt16 × S3pMsgSenderAsynchronous :=
  match self.msg with
  | none =>
    let self := self.requestBufferToRead
    match self.msg with
    | none => (NODATA, self)
    | some _ => (BOM, self)
  | some msg =>
    if self.len = 0 then (EOM, { self with msg := none })
    else
      ((msg 0).toUInt16, { self with len := self.len - 1, msg := some fun i => msg (i + 1) })

def getByteOrNODATA (self : S3pMsgSenderAsynchronous) : UInt16 × S3pMsgSenderAsynchronous :=
  if self.isABytePendig then
    ((lsb self.pendingDualByte).toUInt16, { self with isABytePendig := false })
  else
    let (dualByte, self) := self.getDualByte
    let self := { self with pendingDualByte := dualByte }
    if dualByte = NODATA then (NODATA, self)
    else if isCommand dualByte then ((msb dualByte).toUInt16, { self with isABytePendig := true })
    else if dualByte = MARK then
      ((msb STUFF).toUInt16, { self with pendingDualByte := STUFF, isABytePendig := true })
    else ((lsb dualByte).toUInt16, self)

/-- `while((dualByte = getByteOrNODATA()) != NODATA)`: the bytes fetched, and nothing when the
loop needs more turns than `fuel`. -/
def drain : Nat → S3pMsgSenderAsynchronous →
    Option (List UInt8 × S3pMsgSenderAsynchronous)
  | 0, _ => none
  | fuel + 1, self =>
    let (dualByte, next) := self.getByteOrNODATA
    if dualByte = NODATA then some ([], next)
    else (next.drain fuel).map fun drained => (lsb dualByte :: drained.1, drained.2)

/-- The application hands over a message, or the UART is ready for a byte. -/
inductive Action where
  | hand (message : Message)
  | getByteOrNODATA

/-- The sender and the bytes put on the line so far. -/
def act (line : S3pMsgSenderAsynchronous × List UInt8) :
    Action → S3pMsgSenderAsynchronous × List UInt8
  | .hand message => ({ line.1 with waiting := line.1.waiting ++ [message] }, line.2)
  | .getByteOrNODATA =>
    let (dualByte, next) := line.1.getByteOrNODATA
    (next, if dualByte = NODATA then line.2 else line.2 ++ [lsb dualByte])

def handed : List Action → List Message
  | [] => []
  | .hand message :: actions => message :: handed actions
  | .getByteOrNODATA :: actions => handed actions

/-! ### The bytes that are still to come -/

def sent (message : Message) : List UInt8 := Sender.sendMsg message.len message.s

/-- The rest of a message behind its `BOM`. -/
def body (len : Int) (msg : Memory UInt8) : List UInt8 :=
  (msg.front len.toNat).flatMap Sender.putDataByte ++ Sender.putCommand EOM

def remaining (self : S3pMsgSenderAsynchronous) : List UInt8 :=
  (if self.isABytePendig then [lsb self.pendingDualByte] else []) ++
    (match self.msg with
    | none => []
    | some msg => body self.len msg) ++
    self.waiting.flatMap sent

theorem sent_eq (message : Message) :
    sent message = msb BOM :: lsb BOM :: body message.len message.s := by
  rw [sent, Sender.sendMsg, body, List.append_assoc]
  rfl

theorem body_zero (msg : Memory UInt8) : body 0 msg = [msb EOM, lsb EOM] := rfl

theorem body_cons {len : Int} (hlen : 0 < len) (msg : Memory UInt8) :
    body len msg = Sender.putDataByte (msg 0) ++ body (len - 1) fun i => msg (i + 1) := by
  have hcount : len.toNat = (len - 1).toNat + 1 := by omega
  rw [body, hcount, Memory.front_cons, List.flatMap_cons, List.append_assoc]
  rfl

theorem byte_ne_nodata (byte : UInt8) : byte.toUInt16 ≠ NODATA := by
  intro hequal
  have hvalue := congrArg UInt16.toNat hequal
  have hbyte := byte.toNat_lt
  rw [UInt8.toNat_toUInt16] at hvalue
  rw [hvalue] at hbyte
  exact absurd hbyte (by decide)

theorem not_isCommand_byte (byte : UInt8) : isCommand byte.toUInt16 = false := by
  have hhigh : byte.toUInt16 &&& 0xff00 = 0 := by
    rw [← UInt16.toBitVec_inj]
    apply BitVec.eq_of_getLsbD_eq
    intro bit hbit
    interval_cases bit <;> simp
  rw [isCommand, hhigh]
  rfl

theorem lsb_byte (byte : UInt8) : lsb byte.toUInt16 = byte := by
  have hmask := Nat.and_two_pow_sub_one_eq_mod byte.toNat 8
  have hbyte := byte.toNat_lt
  rw [lsb, ← UInt8.toNat_inj]
  simp at hmask ⊢
  omega

/-- A call fetches the first of the bytes to come, or says that there is none. -/
def Fetches (before : S3pMsgSenderAsynchronous)
    (fetched : UInt16 × S3pMsgSenderAsynchronous) : Prop :=
  0 ≤ fetched.2.len ∧
    (before.remaining = [] ∧ fetched.1 = NODATA ∧ fetched.2.remaining = [] ∨
      ∃ byte : UInt8, before.remaining = byte :: fetched.2.remaining ∧ fetched.1 = byte.toUInt16)

theorem fetches_byte {self next : S3pMsgSenderAsynchronous} {byte : UInt8} (hlen : 0 ≤ next.len)
    (hremaining : self.remaining = byte :: next.remaining) :
    self.Fetches (byte.toUInt16, next) :=
  ⟨hlen, Or.inr ⟨byte, hremaining, rfl⟩⟩

/-- Between messages the next one is requested. -/
theorem fetches_next {self : S3pMsgSenderAsynchronous} (hpending : self.isABytePendig = false)
    (hmsg : self.msg = none) : self.Fetches self.getByteOrNODATA := by
  cases hwaiting : self.waiting with
  | nil =>
    have hfetched : self.getByteOrNODATA =
        (NODATA, { self with msg := none, len := 0, pendingDualByte := NODATA }) := by
      simp [getByteOrNODATA, getDualByte, requestBufferToRead, hpending, hmsg, hwaiting]
    rw [hfetched]
    refine ⟨Int.le_refl 0, Or.inl ⟨?_, rfl, ?_⟩⟩ <;> simp [remaining, hpending, hmsg, hwaiting]
  | cons message waiting =>
    have hcommand : isCommand BOM = true := by decide
    have hnodata : BOM ≠ NODATA := by decide
    have hfetched : self.getByteOrNODATA =
        ((msb BOM).toUInt16, { self with
          msg := some message.s
          len := message.len
          waiting := waiting
          pendingDualByte := BOM
          isABytePendig := true }) := by
      simp [getByteOrNODATA, getDualByte, requestBufferToRead, hpending, hmsg, hwaiting, hcommand,
        hnodata]
    rw [hfetched]
    apply fetches_byte
    · exact Int.natCast_nonneg message.len
    · simp [remaining, hpending, hmsg, hwaiting, sent_eq]

/-- Inside a message its next byte is fetched, or the first byte of the `EOM`. -/
theorem fetches_body {self : S3pMsgSenderAsynchronous} (hpending : self.isABytePendig = false)
    (hlen : 0 ≤ self.len) {msg : Memory UInt8} (hmsg : self.msg = some msg) :
    self.Fetches self.getByteOrNODATA := by
  by_cases hend : self.len = 0
  · have hcommand : isCommand EOM = true := by decide
    have hnodata : EOM ≠ NODATA := by decide
    have hfetched : self.getByteOrNODATA =
        ((msb EOM).toUInt16, { self with
          msg := none, pendingDualByte := EOM, isABytePendig := true }) := by
      simp [getByteOrNODATA, getDualByte, hpending, hmsg, hend, hcommand, hnodata]
    rw [hfetched]
    apply fetches_byte
    · exact hlen
    · simp [remaining, hpending, hmsg, hend, body_zero]
  · have hmore : 0 < self.len := by omega
    by_cases hmark : msg 0 = markByte
    · have hcommand : isCommand MARK = false := by decide
      have hnodata : MARK ≠ NODATA := by decide
      have hcode : markByte.toUInt16 = MARK := by decide
      have hfetched : self.getByteOrNODATA =
          ((msb STUFF).toUInt16, { self with
            len := self.len - 1
            msg := some fun i => msg (i + 1)
            pendingDualByte := STUFF
            isABytePendig := true }) := by
        simp [getByteOrNODATA, getDualByte, hpending, hmsg, hend, hmark, hcommand, hnodata, hcode]
      have hstuffed : Sender.putDataByte (msg 0) = [msb STUFF, lsb STUFF] := by
        rw [hmark]
        rfl
      rw [hfetched]
      apply fetches_byte
      · show 0 ≤ self.len - 1
        omega
      · simp [remaining, hpending, hmsg, body_cons hmore, hstuffed]
    · have hcode : (msg 0).toUInt16 ≠ MARK := by rwa [ne_eq, toUInt16_eq_mark]
      have hfetched : self.getByteOrNODATA =
          ((msg 0).toUInt16, { self with
            len := self.len - 1
            msg := some fun i => msg (i + 1)
            pendingDualByte := (msg 0).toUInt16 }) := by
        simp [getByteOrNODATA, getDualByte, hpending, hmsg, hend, byte_ne_nodata,
          not_isCommand_byte, hcode, lsb_byte]
      have hplain : Sender.putDataByte (msg 0) = [msg 0] := by
        rw [Sender.putDataByte, if_neg hcode]
      rw [hfetched]
      apply fetches_byte
      · show 0 ≤ self.len - 1
        omega
      · simp [remaining, hpending, hmsg, body_cons hmore, hplain]

theorem fetches (self : S3pMsgSenderAsynchronous) (hlen : 0 ≤ self.len) :
    self.Fetches self.getByteOrNODATA := by
  cases hpending : self.isABytePendig with
  | true =>
    have hfetched : self.getByteOrNODATA =
        ((lsb self.pendingDualByte).toUInt16, { self with isABytePendig := false }) := by
      simp [getByteOrNODATA, hpending]
    rw [hfetched]
    apply fetches_byte
    · exact hlen
    · simp [remaining, hpending]
  | false =>
    cases hmsg : self.msg with
    | none => exact fetches_next hpending hmsg
    | some msg => exact fetches_body hpending hlen hmsg

/-- Draining fetches all the bytes to come. -/
theorem drain_eq {fuel : Nat} {self : S3pMsgSenderAsynchronous} (hlen : 0 ≤ self.len)
    (hfuel : self.remaining.length < fuel) :
    ∃ final, self.drain fuel = some (self.remaining, final) := by
  induction fuel generalizing self with
  | zero => omega
  | succ fuel ih =>
    obtain ⟨hnext, ⟨hempty, hnodata, -⟩ | ⟨byte, hremaining, hbyte⟩⟩ := self.fetches hlen
    · refine ⟨self.getByteOrNODATA.2, ?_⟩
      simp only [drain, hnodata, if_true, hempty]
    · rw [hremaining, List.length_cons] at hfuel
      obtain ⟨final, hdrain⟩ := ih hnext (by omega)
      refine ⟨final, ?_⟩
      simp only [drain, hbyte, byte_ne_nodata, if_false, hdrain, Option.map_some, lsb_byte,
        hremaining]

/-- What is on the line and what is to come are together what has been handed over. -/
theorem act_spec {line : S3pMsgSenderAsynchronous × List UInt8} (hlen : 0 ≤ line.1.len)
    (action : Action) :
    0 ≤ (act line action).1.len ∧
      (act line action).2 ++ (act line action).1.remaining =
        line.2 ++ line.1.remaining ++ (handed [action]).flatMap sent := by
  cases action with
  | hand message =>
    refine ⟨hlen, ?_⟩
    simp only [act, handed, remaining, List.flatMap_append, List.flatMap_cons, List.flatMap_nil,
      List.append_nil, List.append_assoc]
    rfl
  | getByteOrNODATA =>
    obtain ⟨hnext, ⟨hempty, hnodata, hstill⟩ | ⟨byte, hremaining, hbyte⟩⟩ := line.1.fetches hlen
    · refine ⟨hnext, ?_⟩
      simp only [act, hnodata, if_true, hempty, hstill, handed, List.flatMap_nil, List.append_nil]
    · refine ⟨hnext, ?_⟩
      simp only [act, hbyte, byte_ne_nodata, if_false, lsb_byte, hremaining, handed,
        List.flatMap_nil, List.append_nil, List.append_assoc, List.cons_append, List.nil_append]

theorem handed_cons (action : Action) (actions : List Action) :
    handed (action :: actions) = handed [action] ++ handed actions := by
  cases action <;> rfl

theorem foldl_act_spec {line : S3pMsgSenderAsynchronous × List UInt8} (hlen : 0 ≤ line.1.len)
    (actions : List Action) :
    0 ≤ (actions.foldl act line).1.len ∧
      (actions.foldl act line).2 ++ (actions.foldl act line).1.remaining =
        line.2 ++ line.1.remaining ++ (handed actions).flatMap sent := by
  induction actions generalizing line with
  | nil => exact ⟨hlen, (List.append_nil _).symm⟩
  | cons action actions ih =>
    obtain ⟨hnext, hbytes⟩ := act_spec hlen action
    obtain ⟨hfinal, hrest⟩ := ih hnext
    refine ⟨hfinal, ?_⟩
    rw [List.foldl_cons, hrest, hbytes, handed_cons action actions, List.flatMap_append,
      List.append_assoc]

/-- Whenever the messages are handed over and however many bytes are fetched in between: once the
sender is drained, the line has carried what the synchronous sender emits for these messages. -/
theorem senders_agree (pendingDualByte : UInt16) (actions : List Action) (fuel : Nat)
    (hfuel : ((handed actions).flatMap sent).length < fuel) :
    ∃ rest final,
      (actions.foldl act ({ pendingDualByte := pendingDualByte }, [])).1.drain fuel =
          some (rest, final) ∧
        (actions.foldl act ({ pendingDualByte := pendingDualByte }, [])).2 ++ rest =
          (handed actions).flatMap fun message => Sender.sendMsg message.len message.s := by
  obtain ⟨hlen, hbytes⟩ :=
    @foldl_act_spec ({ pendingDualByte := pendingDualByte }, []) (Int.le_refl 0) actions
  have hall : _ ++ _ = (handed actions).flatMap sent := hbytes
  have hshort := congrArg List.length hall
  rw [List.length_append] at hshort
  obtain ⟨final, hdrain⟩ := @drain_eq fuel _ hlen (by omega)
  exact ⟨_, final, hdrain, hall⟩

/-- A message that is a single mark, then an empty one while the first is being fetched. -/
theorem senders_agree_interrupted :
    ∃ rest final,
      ([Action.hand ⟨1, fun _ => markByte⟩, .getByteOrNODATA, .hand ⟨0, fun _ => 0⟩].foldl act
          ({ pendingDualByte := 0 }, [])).1.drain 11 = some (rest, final) ∧
        ([Action.hand ⟨1, fun _ => markByte⟩, .getByteOrNODATA, .hand ⟨0, fun _ => 0⟩].foldl act
            ({ pendingDualByte := 0 }, [])).2 ++ rest =
          [0xFE, 0x02, 0xFE, 0x7E, 0xFE, 0x03, 0xFE, 0x02, 0xFE, 0x03] :=
  senders_agree 0 [.hand ⟨1, fun _ => markByte⟩, .getByteOrNODATA, .hand ⟨0, fun _ => 0⟩] 11
    (by decide)

end S3pMsgSenderAsynchronous

end Rodos.S3p
