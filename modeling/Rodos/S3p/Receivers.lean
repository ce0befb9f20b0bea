import Rodos.S3p.Scan
import Rodos.S3p.Asynchronous

/-! Both receivers follow the abstract frame receiver on every line: the synchronous one reads the
byte behind a mark in a nested call, the asynchronous one remembers the mark. -/
namespace Rodos.S3p
open Library

/-! ### Buffers and the content of an open frame -/

/-- The buffer and its length hold the content of the open frame; -1 says that none is open. -/
def Holds (maxLen len : Int) (msg : Memory UInt8) : Frame.Content → Prop
  | none => len = -1
  | some bytes =>
    len = bytes.length ∧ msg.front bytes.length = bytes ∧ bytes.length ≤ maxLen.toNat

theorem Holds.some_iff_nonneg {maxLen len : Int} {msg : Memory UInt8} {content : Frame.Content}
    (h : Holds maxLen len msg content) : len ≥ 0 ↔ content.isSome := by
  cases content with
  | none => simp [Holds] at h; simp [h]
  | some bytes => simp [h.1]

theorem Holds.message {maxLen len : Int} {msg : Memory UInt8} {bytes : List UInt8}
    (h : Holds maxLen len msg (some bytes)) : msg.front len.toNat = bytes := by
  rw [h.1, Int.toNat_natCast, h.2.1]

theorem Holds.opened (maxLen : Int) (msg : Memory UInt8) : Holds maxLen 0 msg (some []) := by
  simp [Holds]

/-- `msg[len++] = value` under the guard `len < maxLen` appends up to the capacity. -/
theorem Holds.store {maxLen len : Int} {msg : Memory UInt8} {bytes : List UInt8}
    (h : Holds maxLen len msg (some bytes)) (value : UInt8) (hroom : len < maxLen) :
    Holds maxLen (len + 1) (msg.store len.toNat value)
      (some ((bytes ++ [value]).take maxLen.toNat)) := by
  obtain ⟨hlen, hfront, hbound⟩ := h
  have hfits : (bytes ++ [value]).take maxLen.toNat = bytes ++ [value] :=
    List.take_of_length_le (by simp; omega)
  subst hlen
  refine ⟨?_, ?_, ?_⟩
  · rw [hfits]; simp
  · rw [hfits, List.length_append, Int.toNat_natCast]
    exact (msg.front_store_end bytes.length value).trans (congrArg (· ++ [value]) hfront)
  · simp

theorem Holds.full {maxLen len : Int} {msg : Memory UInt8} {bytes : List UInt8}
    (h : Holds maxLen len msg (some bytes)) (value : UInt8) (hroom : ¬ len < maxLen) :
    Holds maxLen len msg (some ((bytes ++ [value]).take maxLen.toNat)) := by
  obtain ⟨hlen, hfront, hbound⟩ := h
  have hcapacity : maxLen.toNat = bytes.length := by omega
  have hcut : (bytes ++ [value]).take maxLen.toNat = bytes := by simp [hcapacity]
  rw [hcut]
  exact ⟨hlen, hfront, hbound⟩

/-! ### The synchronous receiver -/

/-- Everything a receiver reports once the running `getMsg` behaves as `call`. -/
def reported (maxLen : Int) (call : GetMsg) : List Event :=
  call.executed.map .command ++
    match call.returned with
    | none => []
    | some (len, rest) =>
      .message (call.msg.front len.toNat) :: receiveSynchronous maxLen call.msg rest

theorem receiveSynchronous_eq (maxLen : Int) (msg : Memory UInt8) (line : List UInt8) :
    receiveSynchronous maxLen msg line = reported maxLen (getMsgLoop maxLen (-1) msg line) := by
  rw [receiveSynchronous, reported, getMsg]
  split <;> simp_all

theorem reported_execute (maxLen : Int) (code : UInt16) (call : GetMsg) :
    reported maxLen (call.execute code) = .command code :: reported maxLen call := rfl

/-- A data byte is kept under the guard `len < maxLen`. -/
theorem synchronous_plain {maxLen len : Int} {msg : Memory UInt8} {content : Frame.Content}
    (h : Holds maxLen len msg content) {value : UInt8} (hvalue : value ≠ markByte)
    (line : List UInt8) :
    ∃ len' msg', Holds maxLen len' msg' (Frame.step maxLen.toNat content (.data value)).1 ∧
      getMsgLoop maxLen len msg (value :: line) = getMsgLoop maxLen len' msg' line := by
  have hmark : value.toUInt16 ≠ MARK := by rwa [ne_eq, toUInt16_eq_mark]
  rw [getMsgLoop.eq_def]
  simp only [hmark, ne_eq, not_false_eq_true, true_and, if_false, Frame.step]
  cases content with
  | none =>
    refine ⟨len, msg, h, ?_⟩
    rw [if_neg (by simp only [Holds] at h; omega)]
  | some bytes =>
    have hlen : len ≥ 0 := h.some_iff_nonneg.mpr rfl
    by_cases hroom : len < maxLen
    · exact ⟨_, _, h.store value hroom, if_pos ⟨hlen, hroom⟩⟩
    · exact ⟨_, _, h.full value hroom, if_neg (by omega)⟩

/-- A mark and the byte behind it move the loop as their token moves the abstract receiver. -/
theorem synchronous_code {maxLen len : Int} {msg : Memory UInt8} {content : Frame.Content}
    (h : Holds maxLen len msg content) (low : UInt8) (line : List UInt8) :
    ∃ len' msg', Holds maxLen len' msg' (Frame.step maxLen.toNat content (.ofCode low)).1 ∧
      reported maxLen (getMsgLoop maxLen len msg (markByte :: low :: line)) =
        (Frame.step maxLen.toNat content (.ofCode low)).2 ++
          reported maxLen (getMsgLoop maxLen len' msg' line) := by
  have hmark : markByte.toUInt16 = MARK := rfl
  rw [getMsgLoop]
  simp only [hmark, ne_eq, not_true_eq_false, false_and, if_false, if_true, Token.ofCode]
  split
  · exact ⟨0, msg, Holds.opened maxLen msg, rfl⟩
  split
  · cases content with
    | none =>
      refine ⟨len, msg, h, ?_⟩
      rw [if_neg (by simp only [Holds] at h; omega)]
      rfl
    | some bytes =>
      -- `getMsg` returns here, and the next call starts outside a frame.
      refine ⟨-1, msg, rfl, ?_⟩
      rw [if_pos (h.some_iff_nonneg.mpr rfl), reported, ← receiveSynchronous_eq]
      simp [h.message, Frame.step]
  split
  · cases content with
    | none =>
      refine ⟨len, msg, h, ?_⟩
      rw [if_neg (by simp only [Holds] at h; omega)]
      rfl
    | some bytes =>
      have hlen : len ≥ 0 := h.some_iff_nonneg.mpr rfl
      by_cases hroom : len < maxLen
      · refine ⟨_, _, h.store markByte hroom, ?_⟩
        rw [if_pos ⟨hlen, hroom⟩]
        rfl
      · refine ⟨_, _, h.full markByte hroom, ?_⟩
        rw [if_neg (by omega)]
        rfl
  · refine ⟨len, msg, h, ?_⟩
    rw [reported_execute]
    rfl

theorem synchronous_scan {maxLen len : Int} {msg : Memory UInt8} {content : Frame.Content}
    (h : Holds maxLen len msg content) (line : List UInt8) :
    reported maxLen (getMsgLoop maxLen len msg line) =
      Frame.run maxLen.toNat content (nestedRead.scan false line).2 := by
  have hmark : markByte.toUInt16 = MARK := rfl
  induction line using List.twoStepInduction generalizing len msg content with
  | nil => simp [getMsgLoop, reported, Frame.run]
  | singleton c =>
    by_cases hc : c = markByte
    · subst hc
      simp [getMsgLoop, hmark, reported, Scanner.scan_cons, nestedRead.next_mark, Frame.run]
    · obtain ⟨len', msg', hholds, hloop⟩ := synchronous_plain h hc []
      rw [hloop, nestedRead.scan_plain hc]
      simp [getMsgLoop, reported, Frame.run, Frame.step]
  | cons_cons c low line ih ihTail =>
    by_cases hc : c = markByte
    · subst hc
      obtain ⟨len', msg', hholds, hreported⟩ := synchronous_code h low line
      rw [hreported, ih hholds]
      rfl
    · obtain ⟨len', msg', hholds, hloop⟩ := synchronous_plain h hc (low :: line)
      rw [hloop, ihTail low hholds, nestedRead.scan_plain hc]
      rfl

theorem receiveSynchronous_scan (maxLen : Int) (msg : Memory UInt8) (line : List UInt8) :
    receiveSynchronous maxLen msg line =
      Frame.run maxLen.toNat none (nestedRead.scan false line).2 := by
  rw [receiveSynchronous_eq]
  exact synchronous_scan (show Holds maxLen (-1) msg none from rfl) line

/-! ### The asynchronous receiver -/

theorem msb_plain (value : UInt8) : msb ((0 : UInt16) <<< 8 ||| value.toUInt16) = 0 := by
  have hvalue := value.toNat_lt
  rw [msb, ← UInt8.toNat_inj]
  simp
  omega

theorem msb_code (low : UInt8) : msb (COMMAND ||| low.toUInt16) ≠ 0 := by
  intro hzero
  have hbit := congrArg (fun byte => byte.toBitVec.getLsbD 7) hzero
  simp [msb, COMMAND] at hbit

theorem lsb_shift_mark (code : UInt16) : lsb (code <<< 8 ||| markByte.toUInt16) = markByte := by
  rw [lsb, markByte, ← UInt8.toBitVec_inj]
  apply BitVec.eq_of_getLsbD_eq
  intro bit hbit
  interval_cases bit <;> simp

theorem shift_of_lsb_mark {code : UInt16} (hcode : lsb code = markByte) : code <<< 8 = COMMAND := by
  have hlow := congrArg UInt8.toNat hcode
  have hmask := Nat.and_two_pow_sub_one_eq_mod (code.toNat % 256) 8
  rw [← UInt16.toNat_inj]
  simp [lsb, markByte, COMMAND, Nat.shiftLeft_eq] at hlow hmask ⊢
  omega

namespace S3pReceiverAsynchronous

/-- A buffer of the agreed capacity is in use and holds the content. -/
def Ready (maxLen : Int) (self : S3pReceiverAsynchronous) (content : Frame.Content) : Prop :=
  ∃ msg, self.msg = some msg ∧ self.maxLen = maxLen ∧ Holds maxLen self.len msg content

/-- Between tokens no half of a code is pending. Before the first byte and right after a
message no buffer is in use yet. -/
def Follows (maxLen : Int) (self : S3pReceiverAsynchronous) (content : Frame.Content) : Prop :=
  self.dualByte = 0 ∧
    (self.Ready maxLen content ∨ self.msg = none ∧ self.len = -1 ∧ content = none)

/-- The application always has a free buffer of one capacity. -/
def AlwaysOffers (maxLen : Int) (requests : Nat → RequestBuffer) : Prop :=
  ∀ k old, ∃ buffer, requests k old = (some buffer, maxLen)

theorem Follows.ready {maxLen : Int} {self : S3pReceiverAsynchronous} {content : Frame.Content}
    (h : self.Follows maxLen content) {requests : Nat → RequestBuffer}
    (hoffers : AlwaysOffers maxLen requests) (k : Nat) :
    (self.requestBuffer (requests k)).Ready maxLen content ∧
      (self.requestBuffer (requests k)).dualByte = 0 := by
  obtain ⟨hdual, ⟨msg, hmsg, hmaxLen, hholds⟩ | ⟨hmsg, hlen, hcontent⟩⟩ := h
  · simp only [requestBuffer, hmsg]
    exact ⟨⟨msg, hmsg, hmaxLen, hholds⟩, hdual⟩
  · obtain ⟨buffer, hbuffer⟩ := hoffers k self.maxLen
    simp only [requestBuffer, hmsg, hbuffer]
    exact ⟨⟨buffer, rfl, rfl, by rw [hcontent]; exact hlen⟩, hdual⟩

theorem Ready.dualByte {maxLen : Int} {self : S3pReceiverAsynchronous}
    {content : Frame.Content} (h : self.Ready maxLen content) (code : UInt16) :
    ({ self with dualByte := code } : S3pReceiverAsynchronous).Ready maxLen content := h

theorem Ready.requestBuffer_eq {maxLen : Int} {self : S3pReceiverAsynchronous}
    {content : Frame.Content} (h : self.Ready maxLen content) (request : RequestBuffer) :
    self.requestBuffer request = self := by
  obtain ⟨msg, hmsg, -⟩ := h
  simp [requestBuffer, hmsg]

theorem Ready.storeByte {maxLen : Int} {self : S3pReceiverAsynchronous}
    {content : Frame.Content} (h : self.Ready maxLen content) (value : UInt8) :
    (self.storeByte value).Ready maxLen
      (content.map fun bytes => (bytes ++ [value]).take maxLen.toNat) := by
  obtain ⟨msg, hmsg, hmaxLen, hholds⟩ := h
  simp only [S3pReceiverAsynchronous.storeByte, hmsg, hmaxLen]
  cases content with
  | none =>
    rw [if_neg (by simp only [Holds] at hholds; omega)]
    exact ⟨msg, hmsg, hmaxLen, hholds⟩
  | some bytes =>
    have hlen : self.len ≥ 0 := hholds.some_iff_nonneg.mpr rfl
    by_cases hroom : self.len < maxLen
    · rw [if_pos ⟨hlen, hroom⟩]
      exact ⟨_, rfl, rfl, hholds.store value hroom⟩
    · rw [if_neg (by omega)]
      exact ⟨msg, hmsg, hmaxLen, hholds.full value hroom⟩

theorem receive_plain {maxLen : Int} {self : S3pReceiverAsynchronous} {content : Frame.Content}
    (h : self.Follows maxLen content) {requests : Nat → RequestBuffer}
    (hoffers : AlwaysOffers maxLen requests) {value : UInt8} (hvalue : value ≠ markByte)
    (line : List UInt8) :
    ∃ self' : S3pReceiverAsynchronous, self'.Follows maxLen
        (content.map fun bytes => (bytes ++ [value]).take maxLen.toNat) ∧
      self.receive requests (value :: line) =
        self'.receive (fun k => requests (k + 1)) line := by
  obtain ⟨hready, hdual⟩ := h.ready hoffers 0
  refine ⟨_, ⟨rfl, Or.inl ((hready.storeByte value).dualByte 0)⟩, ?_⟩
  simp only [receive, putByte, toUInt16_eq_mark, hvalue, if_false, hdual, msb_plain, if_true,
    dispatch, List.nil_append]

/-- A mark stands in the low byte of the code that the next byte completes. -/
def BehindMark (maxLen : Int) (self : S3pReceiverAsynchronous) (content : Frame.Content) : Prop :=
  lsb self.dualByte = markByte ∧ self.Ready maxLen content

theorem receive_mark {maxLen : Int} {self : S3pReceiverAsynchronous} {content : Frame.Content}
    (h : self.Follows maxLen content) {requests : Nat → RequestBuffer}
    (hoffers : AlwaysOffers maxLen requests) (line : List UInt8) :
    ∃ self' : S3pReceiverAsynchronous, self'.BehindMark maxLen content ∧
      self.receive requests (markByte :: line) =
        self'.receive (fun k => requests (k + 1)) line := by
  obtain ⟨hready, -⟩ := h.ready hoffers 0
  refine ⟨_, ⟨?_, hready.dualByte _⟩, rfl⟩
  exact lsb_shift_mark _

theorem BehindMark.receive_mark {maxLen : Int} {self : S3pReceiverAsynchronous}
    {content : Frame.Content} (h : self.BehindMark maxLen content)
    (requests : Nat → RequestBuffer) (line : List UInt8) :
    ∃ self' : S3pReceiverAsynchronous, self'.BehindMark maxLen content ∧
      self.receive requests (markByte :: line) =
        self'.receive (fun k => requests (k + 1)) line := by
  have hready := h.2
  rw [← hready.requestBuffer_eq (requests 0)] at hready
  refine ⟨_, ⟨?_, hready.dualByte _⟩, rfl⟩
  exact lsb_shift_mark _

/-- Whatever completes a code, the switch handles it as the abstract receiver does. -/
theorem Ready.dispatch {maxLen : Int} {self : S3pReceiverAsynchronous}
    {content : Frame.Content} (h : self.Ready maxLen content) (low : UInt8) :
    let handled := self.dispatch (COMMAND ||| low.toUInt16) low
    ({ handled.1 with dualByte := 0 } : S3pReceiverAsynchronous).Follows maxLen
        (Frame.step maxLen.toNat content (.ofCode low)).1 ∧
      handled.2 = (Frame.step maxLen.toNat content (.ofCode low)).2 := by
  have hzero : COMMAND ||| low.toUInt16 ≠ 0 := fun hzero => msb_code low (by rw [hzero]; rfl)
  have hstuffBom : STUFF ≠ BOM := by decide
  have hstuffEom : STUFF ≠ EOM := by decide
  have heomBom : EOM ≠ BOM := by decide
  dsimp only
  rw [S3pReceiverAsynchronous.dispatch, if_neg hzero, Token.ofCode]
  by_cases hstuff : COMMAND ||| low.toUInt16 = STUFF
  · simp only [hstuff, if_true, hstuffBom, hstuffEom, if_false]
    exact ⟨⟨rfl, Or.inl ((h.storeByte markByte).dualByte 0)⟩, rfl⟩
  by_cases heom : COMMAND ||| low.toUInt16 = EOM
  · obtain ⟨msg, hmsg, hmaxLen, hholds⟩ := h
    simp only [heom, if_true, hstuffEom.symm, heomBom, if_false, endOfMessage]
    cases content with
    | none =>
      rw [if_neg (by simp only [Holds] at hholds; omega)]
      exact ⟨⟨rfl, Or.inl ⟨msg, hmsg, hmaxLen, hholds⟩⟩, rfl⟩
    | some bytes =>
      rw [if_pos (hholds.some_iff_nonneg.mpr rfl), hmsg, Option.getD_some, hholds.message]
      exact ⟨⟨rfl, Or.inr ⟨rfl, rfl, rfl⟩⟩, rfl⟩
  by_cases hbom : COMMAND ||| low.toUInt16 = BOM
  · obtain ⟨msg, hmsg, hmaxLen, hholds⟩ := h
    simp only [hbom, if_true, hstuffBom.symm, heomBom.symm, if_false, hmsg, Option.isSome_some]
    exact ⟨⟨rfl, Or.inl ⟨msg, rfl, hmaxLen, Holds.opened maxLen msg⟩⟩, rfl⟩
  · simp only [hstuff, heom, hbom, if_false]
    exact ⟨⟨rfl, Or.inl (h.dualByte 0)⟩, rfl⟩

theorem BehindMark.receive_code {maxLen : Int} {self : S3pReceiverAsynchronous}
    {content : Frame.Content} (h : self.BehindMark maxLen content)
    (requests : Nat → RequestBuffer) {low : UInt8} (hlow : low ≠ markByte) (line : List UInt8) :
    ∃ self' : S3pReceiverAsynchronous,
      self'.Follows maxLen (Frame.step maxLen.toNat content (.ofCode low)).1 ∧
      self.receive requests (low :: line) =
        (Frame.step maxLen.toNat content (.ofCode low)).2 ++
          self'.receive (fun k => requests (k + 1)) line := by
  obtain ⟨hdual, hready⟩ := h
  obtain ⟨hfollows, hevents⟩ := hready.dispatch low
  refine ⟨_, hfollows, ?_⟩
  rw [receive, putByte, hready.requestBuffer_eq, if_neg (by rwa [toUInt16_eq_mark]),
    shift_of_lsb_mark hdual]
  simp only [msb_code, if_false, hevents]

/-- The two cases of the invariant of `putByte`, with and without a pending mark. -/
theorem receive_scan {maxLen : Int} (line : List UInt8) :
    ∀ {self : S3pReceiverAsynchronous} {content : Frame.Content} {requests : Nat → RequestBuffer},
      AlwaysOffers maxLen requests →
        (self.Follows maxLen content → self.receive requests line =
          Frame.run maxLen.toNat content (rememberedMark.scan false line).2) ∧
        (self.BehindMark maxLen content → self.receive requests line =
          Frame.run maxLen.toNat content (rememberedMark.scan true line).2) := by
  induction line with
  | nil => exact fun _ => ⟨fun _ => rfl, fun _ => rfl⟩
  | cons c line ih =>
    intro self content requests hoffers
    have hlater : AlwaysOffers maxLen fun k => requests (k + 1) := fun k => hoffers (k + 1)
    by_cases hc : c = markByte
    · subst hc
      constructor
      · intro h
        obtain ⟨self', hbehind, hreceive⟩ := receive_mark h hoffers line
        rw [hreceive, (ih hlater).2 hbehind]
        rfl
      · intro h
        obtain ⟨self', hbehind, hreceive⟩ := h.receive_mark requests line
        rw [hreceive, (ih hlater).2 hbehind]
        rfl
    · constructor
      · intro h
        obtain ⟨self', hfollows, hreceive⟩ := receive_plain h hoffers hc line
        rw [hreceive, (ih hlater).1 hfollows, rememberedMark.scan_plain hc]
        rfl
      · intro h
        obtain ⟨self', hfollows, hreceive⟩ := h.receive_code requests hc line
        rw [hreceive, (ih hlater).1 hfollows, Scanner.scan_cons, rememberedMark.next_code c hc]
        rfl

theorem receiveAsynchronous_scan {maxLen : Int} {requests : Nat → RequestBuffer}
    (hoffers : AlwaysOffers maxLen requests) (line : List UInt8) :
    receive requests {} line =
      Frame.run maxLen.toNat none (rememberedMark.scan false line).2 :=
  (receive_scan line hoffers).1 ⟨rfl, Or.inr ⟨rfl, rfl, rfl⟩⟩

end S3pReceiverAsynchronous

end Rodos.S3p
