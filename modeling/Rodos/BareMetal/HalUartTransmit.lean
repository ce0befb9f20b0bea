import Rodos.Api.BlockFifo
import Rodos.Library.Runs

/-! `HAL_UART` of the STM32F4, its transmitting side: threads fill a buffer that the interrupts of
the UART or of its DMA stream empty. -/
namespace Rodos.BareMetal.HalUart
open Library Api

/-- The registers of a DMA stream; `M0AR` is an index into the buffer. -/
structure DMAStream where
  M0AR : Nat := 0
  /-- What `DMA_GetCurrDataCounter` returns. -/
  NDTR : Nat := 0
  isEnabled : Bool := false

/-- Where a thread is in `write` or `putcharNoWait`. -/
inductive WriteAt where
  /-- At `p[i]=buf[i]`. -/
  | copying (buf : List UInt8) (p i : Nat)
  /-- At `USART_ITConfig(context->UARTx,USART_IT_TC,DISABLE)`. -/
  | concluded
  | testing
  /-- At the call of `SendTxBufWithDMA`. -/
  | starting

/-- The thread is going to look whether anything is to be sent. -/
def WriteAt.WillLook : WriteAt → Prop
  | .copying .. => False
  | .concluded | .testing | .starting => True

/-- The last two fields are not in the program: what threads have written and the UART has sent. -/
structure Transmitter where
  transmittBuffer : BlockFifo UInt8
  isDMAEnabeld : Bool
  DMATransmitRunning : Bool := false
  DMATransmitRunningSize : Nat := 0
  stream : DMAStream := {}
  /-- The interrupt `USART_IT_TXE` is enabled. -/
  enabledTXE : Bool := !isDMAEnabeld
  /-- The interrupt `USART_IT_TC` is enabled. -/
  enabledTC : Bool := false
  writer : Option WriteAt := none
  written : List UInt8 := []
  sent : List UInt8 := []

inductive TransmitAction where
  | write (sendBuf : List UInt8)
  | putcharNoWait (c : UInt8)
  /-- The next step of a thread in `write` or `putcharNoWait`. -/
  | proceed
  /-- The stream passes one byte to the UART. -/
  | transfer
  /-- The stream is through, or has been stopped. -/
  | transmitFinished
  /-- `UARTIRQHandler` for `USART_IT_TXE`. -/
  | dataRegisterEmpty
  /-- `UARTIRQHandler` for `USART_IT_TC`. -/
  | transmissionComplete

namespace Transmitter

variable (len : Nat)

def SendTxBufWithDMA (self : Transmitter) : Transmitter :=
  match BlockFifo.getBufferToRead len self.transmittBuffer with
  | ⟨none, _⟩ => self
  | ⟨some p, len⟩ =>
    { self with
      DMATransmitRunningSize := len
      DMATransmitRunning := true
      stream := { M0AR := p, NDTR := len, isEnabled := true } }

def DMATransmitFinishedHandler (self : Transmitter) : Transmitter :=
  let bytesNotTransfered := self.stream.NDTR
  let bytesTransfered := self.DMATransmitRunningSize - bytesNotTransfered
  let self := { self with
    transmittBuffer := BlockFifo.readConcluded len self.transmittBuffer bytesTransfered }
  if self.transmittBuffer.isEmpty then
    { self with DMATransmitRunning := false, enabledTC := true }
  else self.SendTxBufWithDMA len

def write (self : Transmitter) (sendBuf : List UInt8) : Transmitter :=
  if sendBuf.length ≤ 0 then self
  else
    match BlockFifo.getBufferToWrite len self.transmittBuffer with
    | ⟨none, _⟩ => self
    | ⟨some p, spaceinbuffer⟩ =>
      { self with writer := some (.copying (sendBuf.take spaceinbuffer) p 0) }

def putcharNoWait (self : Transmitter) (c : UInt8) : Transmitter :=
  let (ok, transmittBuffer) := self.transmittBuffer.put len c
  let self := { self with transmittBuffer := transmittBuffer }
  if ok then { self with written := self.written ++ [c], writer := some .concluded } else self

def proceed (self : Transmitter) : WriteAt → Transmitter
  | .copying buf p i =>
    match buf[i]? with
    | some byte =>
      { self with
        transmittBuffer := { self.transmittBuffer with
          buffer := self.transmittBuffer.buffer.store (p + i) byte }
        writer := some (.copying buf p (i + 1)) }
    | none =>
      { self with
        transmittBuffer := BlockFifo.writeConcluded len self.transmittBuffer buf.length
        written := self.written ++ buf
        writer := some .concluded }
  | .concluded => { self with enabledTC := false, writer := some .testing }
  | .testing =>
    if self.isDMAEnabeld then
      if !self.DMATransmitRunning then { self with writer := some .starting }
      else { self with writer := none }
    else { self with enabledTXE := true, writer := none }
  | .starting => { self.SendTxBufWithDMA len with writer := none }

/-- One byte goes from the memory to the UART. -/
def transfer (self : Transmitter) : Transmitter :=
  { self with
    stream := { self.stream with M0AR := self.stream.M0AR + 1, NDTR := self.stream.NDTR - 1 }
    sent := self.sent ++ [self.transmittBuffer.buffer self.stream.M0AR] }

def dataRegisterEmpty (self : Transmitter) : Transmitter :=
  let (c, transmittBuffer) := self.transmittBuffer.get len
  let self := { self with transmittBuffer := transmittBuffer }
  match c with
  | some c => { self with sent := self.sent ++ [c] }
  | none => { self with enabledTXE := false, enabledTC := true }

/-- Only one thread writes at a time, and interrupts come whenever they are enabled. -/
def step (self : Transmitter) : TransmitAction → Option Transmitter
  | .write sendBuf =>
    match self.writer with
    | none => some (self.write len sendBuf)
    | some _ => none
  | .putcharNoWait c =>
    match self.writer with
    | none => some (self.putcharNoWait len c)
    | some _ => none
  | .proceed => self.writer.map (self.proceed len)
  | .transfer =>
    if self.stream.isEnabled ∧ 0 < self.stream.NDTR then some self.transfer else none
  | .transmitFinished =>
    if self.stream.isEnabled then
      some ({ self with stream := { self.stream with isEnabled := false } }
        |>.DMATransmitFinishedHandler len)
    else none
  | .dataRegisterEmpty => if self.enabledTXE then some (self.dataRegisterEmpty len) else none
  | .transmissionComplete =>
    if self.enabledTC then some { self with enabledTC := false } else none

/-! ### What each call does -/

variable {len : Nat} {self : Transmitter} {gotten : List UInt8}

theorem SendTxBufWithDMA_cases (h : Fifo.Carries len self.transmittBuffer self.written gotten) :
    (gotten.length = self.written.length ∧ self.SendTxBufWithDMA len = self) ∨
      ∃ count, 0 < count ∧ self.transmittBuffer.readX + count ≤ len ∧
        gotten.length + count ≤ self.written.length ∧
        self.SendTxBufWithDMA len = { self with
          DMATransmitRunningSize := count
          DMATransmitRunning := true
          stream := { M0AR := self.transmittBuffer.readX, NDTR := count, isEnabled := true } } := by
  obtain ⟨hfits, hpos⟩ := h.getBufferToRead_fits
  have hle := h.length_le
  by_cases hempty : gotten.length = self.written.length
  · have hnone : BlockFifo.getBufferToRead len self.transmittBuffer = ⟨none, 0⟩ :=
      if_pos (h.empty_iff.mpr hempty)
    exact .inl ⟨hempty, by rw [SendTxBufWithDMA, hnone]⟩
  · have hcount := hpos.mpr (by omega)
    obtain ⟨hstart, hend, hroom⟩ := hfits.of_pos hcount
    refine .inr ⟨_, hcount, hend, by omega, ?_⟩
    rw [SendTxBufWithDMA]
    split
    · next hnone => rw [hnone] at hstart; cases hstart
    · next p count hsome =>
      rw [hsome] at hstart
      rw [hsome, Option.some.inj hstart]

/-- A thread that finds the buffer full returns at once. -/
theorem write_cases (h : Fifo.Carries len self.transmittBuffer self.written gotten)
    (sendBuf : List UInt8) :
    self.write len sendBuf = self ∨
      ∃ buf, self.transmittBuffer.writeX + buf.length ≤ len ∧
        self.written.length + buf.length < gotten.length + len ∧
        self.write len sendBuf =
          { self with writer := some (.copying buf self.transmittBuffer.writeX 0) } := by
  obtain ⟨hfits, -⟩ := h.getBufferToWrite_fits
  have hroom := h.room
  unfold write
  split
  · exact .inl rfl
  · split
    · exact .inl rfl
    · next p spaceinbuffer hoffer =>
      rw [hoffer] at hfits
      obtain ⟨rfl, hend, hfree⟩ := hfits
      dsimp only at hend hfree
      refine .inr ⟨sendBuf.take spaceinbuffer, ?_, ?_, rfl⟩ <;>
      · rw [List.length_take]
        omega

/-! ### The state between two steps -/

/-- The stream is on its way through the region that it was given. -/
structure Sending (len : Nat) (uart : Transmitter) (gotten : List UInt8) : Prop where
  running : uart.DMATransmitRunning = true
  remaining : uart.stream.NDTR ≤ uart.DMATransmitRunningSize
  position : uart.stream.M0AR =
    uart.transmittBuffer.readX + (uart.DMATransmitRunningSize - uart.stream.NDTR)
  available : gotten.length + uart.DMATransmitRunningSize ≤ uart.written.length
  inside : uart.transmittBuffer.readX + uart.DMATransmitRunningSize ≤ len
  sent_eq : uart.sent = gotten ++
    (uart.written.drop gotten.length).take (uart.DMATransmitRunningSize - uart.stream.NDTR)

structure Resting (uart : Transmitter) (gotten : List UInt8) : Prop where
  running : uart.DMATransmitRunning = false
  sent_eq : uart.sent = gotten

/-- What a thread relies on at its place. -/
def Relies (len : Nat) (uart : Transmitter) (gotten : List UInt8) : WriteAt → Prop
  | .copying buf p i =>
    p = uart.transmittBuffer.writeX ∧ p + buf.length ≤ len ∧
      uart.written.length + buf.length < gotten.length + len ∧
      ∀ j < i, buf[j]? = some (uart.transmittBuffer.buffer (p + j))
  | .concluded | .testing => True
  | .starting => uart.isDMAEnabeld = true ∧ uart.stream.isEnabled = false

/-- Of what was written, the buffer has given the first part to the UART for good. -/
structure Invariant (len : Nat) (uart : Transmitter) (gotten : List UInt8) : Prop where
  carries : Fifo.Carries len uart.transmittBuffer uart.written gotten
  sending : uart.stream.isEnabled = true → uart.Sending len gotten
  resting : uart.stream.isEnabled = false → uart.Resting gotten
  mode : uart.stream.isEnabled = true → uart.isDMAEnabeld = true
  single : uart.enabledTXE = true → uart.isDMAEnabeld = false
  relies : ∀ place ∈ uart.writer, uart.Relies len gotten place
  awake : gotten.length < uart.written.length →
    uart.stream.isEnabled = true ∨ uart.enabledTXE = true ∨ ∃ place ∈ uart.writer, place.WillLook
  complete : uart.enabledTC = true → uart.writer ≠ some .concluded →
    gotten.length = uart.written.length

theorem initial_invariant (hlen : 0 < len) (buffer : Memory UInt8) (isDMAEnabeld : Bool) :
    Invariant len { transmittBuffer := { buffer := buffer }, isDMAEnabeld := isDMAEnabeld } [] where
  carries := Fifo.carries_initial hlen buffer
  sending := nofun
  resting _ := ⟨rfl, rfl⟩
  mode := nofun
  single := by cases isDMAEnabeld <;> simp
  relies := nofun
  awake hsome := absurd hsome (Nat.lt_irrefl 0)
  complete := nofun

variable {next : Transmitter} {gotten' : List UInt8}

theorem Sending.frame (h : self.Sending len gotten) {more : List UInt8}
    (hrunning : next.DMATransmitRunning = self.DMATransmitRunning)
    (hsize : next.DMATransmitRunningSize = self.DMATransmitRunningSize)
    (hstream : next.stream = self.stream)
    (hreadX : next.transmittBuffer.readX = self.transmittBuffer.readX)
    (hwritten : next.written = self.written ++ more) (hsent : next.sent = self.sent) :
    next.Sending len gotten := by
  have hroom := h.available
  constructor
  case running => rw [hrunning, h.running]
  case remaining => rw [hstream, hsize]; exact h.remaining
  case position => rw [hstream, hsize, hreadX]; exact h.position
  case available =>
    rw [hsize, hwritten, List.length_append]
    omega
  case inside => rw [hsize, hreadX]; exact h.inside
  case sent_eq =>
    rw [hsent, hsize, hstream, hwritten, List.drop_append_of_le_length (by omega),
      List.take_append_of_le_length (by rw [List.length_drop]; omega)]
    exact h.sent_eq

/-- A step that only changes the place of the thread and the interrupts that are enabled. -/
theorem Invariant.arranged (h : Invariant len self gotten) {txe tc : Bool}
    {place : Option WriteAt} (hsingle : txe = true → self.isDMAEnabeld = false)
    (hrelies : ∀ place' ∈ place, self.Relies len gotten place')
    (hawake : gotten.length < self.written.length →
      self.stream.isEnabled = true ∨ txe = true ∨ ∃ place' ∈ place, place'.WillLook)
    (hcomplete : tc = true → place ≠ some .concluded → gotten.length = self.written.length) :
    Invariant len { self with enabledTXE := txe, enabledTC := tc, writer := place } gotten where
  carries := h.carries
  sending hon := (h.sending hon).frame rfl rfl rfl rfl (List.append_nil _).symm rfl
  resting hoff := ⟨(h.resting hoff).running, (h.resting hoff).sent_eq⟩
  mode := h.mode
  single := hsingle
  relies place' hplace := by
    have hrelied := hrelies place' hplace
    cases place' <;> exact hrelied
  awake := hawake
  complete := hcomplete

theorem Invariant.write (h : Invariant len self gotten) (hidle : self.writer = none)
    (sendBuf : List UInt8) : Invariant len (self.write len sendBuf) gotten := by
  rcases write_cases h.carries sendBuf with hfull | ⟨buf, hend, hroom, hcopies⟩
  · rwa [hfull]
  · rw [hcopies]
    apply h.arranged h.single
    · rintro _ ⟨⟩
      exact ⟨rfl, hend, hroom, nofun⟩
    · intro hsome
      rcases h.awake hsome with hon | htxe | ⟨place, hplace, -⟩
      · exact .inl hon
      · exact .inr (.inl htxe)
      · rw [hidle] at hplace
        cases hplace
    · exact fun htc _ => h.complete htc (by rw [hidle]; nofun)

/-- The values are in the buffer now, and the thread goes on to see to their transmission. -/
theorem Invariant.published (h : Invariant len self gotten) {fifo : BlockFifo UInt8}
    {more : List UInt8} (hcarries : Fifo.Carries len fifo (self.written ++ more) gotten) :
    Invariant len { self with
      transmittBuffer := fifo
      written := self.written ++ more
      writer := some .concluded } gotten where
  carries := hcarries
  sending hon := by
    have hreadX : fifo.readX = self.transmittBuffer.readX :=
      hcarries.readX_eq.trans h.carries.readX_eq.symm
    exact (h.sending hon).frame rfl rfl rfl hreadX rfl rfl
  resting hoff := ⟨(h.resting hoff).running, (h.resting hoff).sent_eq⟩
  mode := h.mode
  single := h.single
  relies := by
    rintro _ ⟨⟩
    trivial
  awake _ := .inr (.inr ⟨.concluded, rfl, trivial⟩)
  complete _ hplace := absurd rfl hplace

/-- Nothing but the error counter of the buffer changes. -/
theorem Invariant.counted (h : Invariant len self gotten) (errors : UInt32) :
    Invariant len { self with
      transmittBuffer := { self.transmittBuffer with putErrors := errors } } gotten where
  carries := h.carries.of_eq rfl rfl rfl
  sending hon := (h.sending hon).frame rfl rfl rfl rfl (List.append_nil _).symm rfl
  resting hoff := ⟨(h.resting hoff).running, (h.resting hoff).sent_eq⟩
  mode := h.mode
  single := h.single
  relies place hplace := by
    have hrelied := h.relies place hplace
    cases place <;> exact hrelied
  awake := h.awake
  complete := h.complete

theorem Invariant.putcharNoWait (h : Invariant len self gotten) (c : UInt8) :
    Invariant len (self.putcharNoWait len c) gotten := by
  rcases h.carries.put_cases c with ⟨-, hput⟩ | ⟨-, hok, hcarries⟩
  · simp only [Transmitter.putcharNoWait, hput, Bool.false_eq_true, if_false]
    exact h.counted _
  · simp only [Transmitter.putcharNoWait, hok, if_true]
    exact h.published hcarries

theorem Invariant.copied (h : Invariant len self gotten) {buf : List UInt8} {p i : Nat}
    (hplace : self.writer = some (.copying buf p i)) {byte : UInt8} (hbyte : buf[i]? = some byte) :
    Invariant len { self with
      transmittBuffer := { self.transmittBuffer with
        buffer := self.transmittBuffer.buffer.store (p + i) byte }
      writer := some (.copying buf p (i + 1)) } gotten := by
  obtain ⟨rfl, hend, hroom, hcopied⟩ := h.relies _ hplace
  have hi := (List.getElem?_eq_some_iff.mp hbyte).1
  constructor
  case carries => exact h.carries.store_ahead (by omega) (by omega) byte
  case sending =>
    exact fun hon => (h.sending hon).frame rfl rfl rfl rfl (List.append_nil _).symm rfl
  case resting => exact fun hoff => ⟨(h.resting hoff).running, (h.resting hoff).sent_eq⟩
  case mode => exact h.mode
  case single => exact h.single
  case relies =>
    rintro _ ⟨⟩
    refine ⟨rfl, hend, hroom, fun j hj => ?_⟩
    dsimp only
    rcases Nat.lt_succ_iff_lt_or_eq.mp hj with hbefore | rfl
    · rw [Memory.store_other _ _ (by omega)]
      exact hcopied j hbefore
    · rw [Memory.store_same, hbyte]
  case awake =>
    intro hsome
    rcases h.awake hsome with hon | htxe | ⟨place, hwriter, hlooks⟩
    · exact .inl hon
    · exact .inr (.inl htxe)
    · rw [hplace] at hwriter
      cases hwriter
      exact hlooks.elim
  case complete =>
    exact fun htc _ => h.complete htc (by rw [hplace]; nofun)

theorem Invariant.writeConcluded (h : Invariant len self gotten) {buf : List UInt8} {p i : Nat}
    (hplace : self.writer = some (.copying buf p i)) (hdone : buf[i]? = none) :
    Invariant len { self with
      transmittBuffer := BlockFifo.writeConcluded len self.transmittBuffer buf.length
      written := self.written ++ buf
      writer := some .concluded } gotten := by
  obtain ⟨rfl, hend, hroom, hcopied⟩ := h.relies _ hplace
  have hi := List.getElem?_eq_none_iff.mp hdone
  apply h.published
  rw [BlockFifo.writeConcluded, h.carries.writeX_eq, BlockFifo.advanceIndexEx_mod h.carries.len_pos]
  apply h.carries.publish_all hroom
  intro j hj
  rw [h.carries.slot_ahead (by omega)]
  exact hcopied j (by omega)

theorem Invariant.start (h : Invariant len self gotten) (hplace : self.writer = some .starting) :
    Invariant len { self.SendTxBufWithDMA len with writer := none } gotten := by
  obtain ⟨hdma, hoff⟩ := h.relies _ hplace
  have hresting := h.resting hoff
  rcases SendTxBufWithDMA_cases h.carries with ⟨hempty, hnothing⟩ |
      ⟨count, hpos, hend, havailable, hstarted⟩
  · rw [hnothing]
    refine h.arranged h.single nofun (fun hsome => ?_) fun _ _ => hempty
    omega
  · rw [hstarted]
    constructor
    case carries => exact h.carries
    case sending =>
      intro _
      constructor
      case running => rfl
      case remaining => exact Nat.le_refl count
      case position => simp
      case available => exact havailable
      case inside => exact hend
      case sent_eq => simp [hresting.sent_eq]
    case resting => nofun
    case mode => exact fun _ => hdma
    case single => exact h.single
    case relies => nofun
    case awake => exact fun _ => .inl rfl
    case complete =>
      exact fun htc _ => h.complete htc (by rw [hplace]; nofun)

/-- The flag tells what the stream does. -/
theorem Invariant.isEnabled_eq (h : Invariant len self gotten) :
    self.stream.isEnabled = self.DMATransmitRunning := by
  cases hstream : self.stream.isEnabled with
  | false => exact (h.resting hstream).running.symm
  | true => exact (h.sending hstream).running.symm

theorem Invariant.proceed (h : Invariant len self gotten) {place : WriteAt}
    (hplace : self.writer = some place) : Invariant len (self.proceed len place) gotten := by
  cases place with
  | copying buf p i =>
    rw [Transmitter.proceed]
    split
    · next byte hbyte => exact h.copied hplace hbyte
    · next hdone => exact h.writeConcluded hplace hdone
  | concluded =>
    exact h.arranged h.single (by rintro _ ⟨⟩; trivial)
      (fun _ => .inr (.inr ⟨.testing, rfl, trivial⟩)) nofun
  | testing =>
    have hcomplete : self.enabledTC = true → gotten.length = self.written.length :=
      fun htc => h.complete htc (by rw [hplace]; nofun)
    rw [Transmitter.proceed]
    split
    · next hdma =>
      split
      · next hrunning =>
        refine h.arranged h.single ?_ (fun _ => .inr (.inr ⟨.starting, rfl, trivial⟩))
          fun htc _ => hcomplete htc
        rintro _ ⟨⟩
        exact ⟨hdma, h.isEnabled_eq.trans (by simpa using hrunning)⟩
      · next hrunning =>
        have hon := h.isEnabled_eq.trans (by simpa using hrunning)
        exact h.arranged h.single nofun (fun _ => .inl hon) fun htc _ => hcomplete htc
    · next hsingle =>
      exact h.arranged (fun _ => by simpa using hsingle) nofun (fun _ => .inr (.inl rfl))
        fun htc _ => hcomplete htc
  | starting => exact h.start hplace

/-! ### Interrupts -/

theorem Invariant.sent_between (h : Invariant len self gotten) :
    self.sent <+: self.written ∧ gotten.length ≤ self.sent.length := by
  cases hstream : self.stream.isEnabled with
  | false =>
    rw [(h.resting hstream).sent_eq]
    exact ⟨h.carries.gotten_prefix, Nat.le_refl _⟩
  | true =>
    rw [(h.sending hstream).sent_eq]
    refine ⟨?_, by simp⟩
    nth_rewrite 1 [h.carries.gotten_eq_take]
    rw [← List.take_add]
    exact List.take_prefix _ _

/-- What a thread relies on when the buffer has given more values away. -/
theorem Relies.released {place : WriteAt} (h : self.Relies len gotten place)
    (hlonger : gotten.length ≤ gotten'.length)
    (hbuffer : next.transmittBuffer.buffer = self.transmittBuffer.buffer)
    (hwriteX : next.transmittBuffer.writeX = self.transmittBuffer.writeX)
    (hwritten : next.written = self.written) (hplace : place ≠ .starting) :
    next.Relies len gotten' place := by
  cases place with
  | copying buf p i =>
    obtain ⟨rfl, hend, hroom, hcopied⟩ := h
    refine ⟨hwriteX.symm, hend, ?_, fun j hj => ?_⟩
    · rw [hwritten]
      omega
    · rw [hbuffer]
      exact hcopied j hj
  | concluded => trivial
  | testing => trivial
  | starting => exact absurd rfl hplace

theorem Sending.transfer (h : self.Sending len gotten)
    (hcarries : Fifo.Carries len self.transmittBuffer self.written gotten)
    (hmore : 0 < self.stream.NDTR) : self.transfer.Sending len gotten := by
  have hremaining := h.remaining
  have havailable := h.available
  have hinside := h.inside
  have hcount : self.DMATransmitRunningSize - (self.stream.NDTR - 1) =
      self.DMATransmitRunningSize - self.stream.NDTR + 1 := by omega
  constructor
  case running => exact h.running
  case remaining => exact Nat.le_trans (Nat.sub_le _ _) hremaining
  case position =>
    show self.stream.M0AR + 1 = _ + (self.DMATransmitRunningSize - (self.stream.NDTR - 1))
    rw [h.position, hcount, Nat.add_assoc]
    rfl
  case available => exact havailable
  case inside => exact hinside
  case sent_eq =>
    have hbyte : self.written[gotten.length + (self.DMATransmitRunningSize - self.stream.NDTR)]? =
        some (self.transmittBuffer.buffer self.stream.M0AR) := by
      rw [hcarries.holds.getElem (Nat.le_add_right _ _) (by omega), hcarries.slot_unread (by omega),
        h.position]
    show self.sent ++ [_] = gotten ++ (self.written.drop gotten.length).take
      (self.DMATransmitRunningSize - (self.stream.NDTR - 1))
    rw [hcount, List.take_add_one, List.getElem?_drop, hbyte, h.sent_eq, List.append_assoc]
    rfl

theorem Invariant.transfer (h : Invariant len self gotten) (hon : self.stream.isEnabled = true)
    (hmore : 0 < self.stream.NDTR) : Invariant len self.transfer gotten where
  carries := h.carries
  sending _ := (h.sending hon).transfer h.carries hmore
  resting hoff := by
    have hstill : self.stream.isEnabled = false := hoff
    rw [hon] at hstill
    cases hstill
  mode := h.mode
  single := h.single
  relies place hplace := by
    have hrelied := h.relies place hplace
    cases place <;> exact hrelied
  awake := h.awake
  complete := h.complete

/-- Behind the interrupt the buffer has given away what the stream has sent, and the stream rests or
goes through the next region. -/
theorem transmitFinished_cases (h : Invariant len self gotten)
    (hon : self.stream.isEnabled = true) :
    ∃ fifo, Fifo.Carries len fifo self.written self.sent ∧
      fifo.buffer = self.transmittBuffer.buffer ∧ fifo.writeX = self.transmittBuffer.writeX ∧
      ((self.sent.length = self.written.length ∧
          self.step len .transmitFinished = some { self with
            transmittBuffer := fifo
            stream := { self.stream with isEnabled := false }
            DMATransmitRunning := false
            enabledTC := true }) ∨
        ∃ count, 0 < count ∧ fifo.readX + count ≤ len ∧
          self.sent.length + count ≤ self.written.length ∧
          self.step len .transmitFinished = some { self with
            transmittBuffer := fifo
            stream := { M0AR := fifo.readX, NDTR := count, isEnabled := true }
            DMATransmitRunning := true
            DMATransmitRunningSize := count }) := by
  have hsending := h.sending hon
  have havailable := hsending.available
  have hcarries : Fifo.Carries len (BlockFifo.readConcluded len self.transmittBuffer
      (self.DMATransmitRunningSize - self.stream.NDTR)) self.written self.sent := by
    rw [hsending.sent_eq]
    exact h.carries.readConcluded (by omega)
  refine ⟨_, hcarries, rfl, rfl, ?_⟩
  rw [Transmitter.step, if_pos hon, DMATransmitFinishedHandler]
  dsimp only
  split
  · next hempty => exact .inl ⟨hcarries.isEmpty_iff.mp hempty, rfl⟩
  · next hmore =>
    let concluded : Transmitter := { self with
      stream := { self.stream with isEnabled := false }
      transmittBuffer := BlockFifo.readConcluded len self.transmittBuffer
        (self.DMATransmitRunningSize - self.stream.NDTR) }
    have hconcluded : Fifo.Carries len concluded.transmittBuffer concluded.written _ := hcarries
    rcases SendTxBufWithDMA_cases hconcluded with
      ⟨hempty, -⟩ | ⟨count, hpos, hend, hroom, hstarted⟩
    · exact absurd (hcarries.isEmpty_iff.mpr hempty) hmore
    · exact .inr ⟨count, hpos, hend, hroom, congrArg some hstarted⟩

theorem Invariant.transmitFinished (h : Invariant len self gotten)
    (hon : self.stream.isEnabled = true)
    (hstep : self.step len .transmitFinished = some next) : Invariant len next self.sent := by
  obtain ⟨fifo, hcarries, hbuffer, hwriteX, hcases⟩ := transmitFinished_cases h hon
  have hle := hcarries.length_le
  have hgiven := h.sent_between.2
  have hrelies : ∀ place ∈ self.writer, place ≠ .starting ∧ self.Relies len gotten place := by
    intro place hplace
    refine ⟨?_, h.relies place hplace⟩
    rintro rfl
    have hoff : self.stream.isEnabled = false := (h.relies _ hplace).2
    rw [hon] at hoff
    cases hoff
  rcases hcases with ⟨hall, hrests⟩ | ⟨count, hpos, hend, hroom, hgoes⟩
  · obtain rfl := Option.some.inj (hstep.symm.trans hrests)
    constructor
    case carries => exact hcarries
    case sending => nofun
    case resting => exact fun _ => ⟨rfl, rfl⟩
    case mode => nofun
    case single => exact h.single
    case relies =>
      intro place hplace
      obtain ⟨hother, hrelied⟩ := hrelies place hplace
      exact hrelied.released hgiven hbuffer hwriteX rfl hother
    case awake =>
      intro hsome
      dsimp only at hsome
      omega
    case complete => exact fun _ _ => hall
  · obtain rfl := Option.some.inj (hstep.symm.trans hgoes)
    constructor
    case carries => exact hcarries
    case sending =>
      intro _
      constructor
      case running => rfl
      case remaining => exact Nat.le_refl count
      case position => simp
      case available => exact hroom
      case inside => exact hend
      case sent_eq => simp
    case resting => nofun
    case mode => exact fun _ => h.mode hon
    case single => exact h.single
    case relies =>
      intro place hplace
      obtain ⟨hother, hrelied⟩ := hrelies place hplace
      exact hrelied.released hgiven hbuffer hwriteX rfl hother
    case awake => exact fun _ => .inl rfl
    case complete =>
      intro htc hplace
      have hall := h.complete htc hplace
      dsimp only
      omega

theorem Invariant.isEnabled_of_enabledTXE (h : Invariant len self gotten)
    (htxe : self.enabledTXE = true) : self.stream.isEnabled = false := by
  rw [← Bool.not_eq_true]
  intro hon
  have hsingle := h.single htxe
  rw [h.mode hon] at hsingle
  cases hsingle

theorem Invariant.dataRegisterEmpty (h : Invariant len self gotten)
    (htxe : self.enabledTXE = true) :
    ∃ gotten', Invariant len (self.dataRegisterEmpty len) gotten' := by
  have hsingle := h.single htxe
  have hoff := h.isEnabled_of_enabledTXE htxe
  have hresting := h.resting hoff
  have hnoStart : some WriteAt.starting ≠ self.writer := fun hplace => by
    have hdma : self.isDMAEnabeld = true := (h.relies _ hplace.symm).1
    rw [hsingle] at hdma
    cases hdma
  rcases h.carries.get_cases with ⟨hempty, hget⟩ | ⟨hsome, c, hc, hget, hcarries⟩
  · refine ⟨gotten, ?_⟩
    simp only [Transmitter.dataRegisterEmpty, hget]
    constructor
    case carries => exact h.carries.of_eq rfl rfl rfl
    case sending =>
      intro hon
      rw [hoff] at hon
      cases hon
    case resting => exact fun _ => ⟨hresting.running, hresting.sent_eq⟩
    case mode => exact h.mode
    case single => nofun
    case relies =>
      intro place hplace
      refine (h.relies place hplace).released (Nat.le_refl _) rfl rfl rfl ?_
      rintro rfl
      exact hnoStart hplace.symm
    case awake =>
      intro hmore
      dsimp only at hmore
      omega
    case complete => exact fun _ _ => hempty
  · refine ⟨gotten ++ [c], ?_⟩
    simp only [Transmitter.dataRegisterEmpty, hget]
    constructor
    case carries => exact hcarries
    case sending =>
      intro hon
      rw [hoff] at hon
      cases hon
    case resting => exact fun _ => ⟨hresting.running, congrArg (· ++ [c]) hresting.sent_eq⟩
    case mode => exact h.mode
    case single => exact h.single
    case relies =>
      intro place hplace
      have hlonger : gotten.length ≤ (gotten ++ [c]).length := by simp
      apply (h.relies place hplace).released hlonger
      · exact Fifo.get_buffer len _
      · exact hcarries.writeX_eq.trans h.carries.writeX_eq.symm
      · rfl
      · rintro rfl
        exact hnoStart hplace.symm
    case awake => exact fun _ => .inr (.inl htxe)
    case complete =>
      intro htc hplace
      have hall := h.complete htc hplace
      omega

theorem Invariant.step (h : Invariant len self gotten) {action : TransmitAction}
    (hstep : self.step len action = some next) : ∃ gotten', Invariant len next gotten' := by
  cases action with
  | write sendBuf =>
    rw [Transmitter.step] at hstep
    split at hstep
    · next hidle => exact ⟨gotten, Option.some.inj hstep ▸ h.write hidle sendBuf⟩
    · cases hstep
  | putcharNoWait c =>
    rw [Transmitter.step] at hstep
    split at hstep
    · exact ⟨gotten, Option.some.inj hstep ▸ h.putcharNoWait c⟩
    · cases hstep
  | proceed =>
    obtain ⟨place, hplace, rfl⟩ := Option.map_eq_some_iff.mp hstep
    exact ⟨gotten, h.proceed hplace⟩
  | transfer =>
    rw [Transmitter.step] at hstep
    split at hstep
    · next hallowed => exact ⟨gotten, Option.some.inj hstep ▸ h.transfer hallowed.1 hallowed.2⟩
    · cases hstep
  | transmitFinished =>
    by_cases hon : self.stream.isEnabled = true
    · exact ⟨self.sent, h.transmitFinished hon hstep⟩
    · rw [Transmitter.step, if_neg hon] at hstep
      cases hstep
  | dataRegisterEmpty =>
    rw [Transmitter.step] at hstep
    split at hstep
    · next htxe => exact Option.some.inj hstep ▸ h.dataRegisterEmpty htxe
    · cases hstep
  | transmissionComplete =>
    rw [Transmitter.step] at hstep
    split at hstep
    · exact ⟨gotten, Option.some.inj hstep ▸ h.arranged h.single h.relies h.awake nofun⟩
    · cases hstep

/-! ### What comes out -/

/-- What was written is sent in order, none of it twice and none of it left out, and when no thread
is about to, an interrupt goes on with the rest. -/
structure Delivers (uart : Transmitter) : Prop where
  in_order : uart.sent <+: uart.written
  goes_on : uart.writer = none → uart.sent ≠ uart.written →
    uart.stream.isEnabled = true ∨ uart.enabledTXE = true
  empty : uart.transmittBuffer.isEmpty = true → uart.sent = uart.written
  /-- `upCallWriteFinished` does not come too early, unless a thread is just writing. -/
  finished : uart.enabledTC = true → uart.writer ≠ some .concluded → uart.sent = uart.written

theorem Invariant.delivers (h : Invariant len self gotten) : Delivers self := by
  obtain ⟨hleading, hlonger⟩ := h.sent_between
  have hall : gotten.length = self.written.length → self.sent = self.written := fun hlength =>
    hleading.eq_of_length_le (hlength ▸ hlonger)
  constructor
  case in_order => exact hleading
  case goes_on =>
    intro hidle hrest
    have hle := h.carries.length_le
    have hless : gotten.length < self.written.length :=
      Nat.lt_of_le_of_ne hle fun hlength => hrest (hall hlength)
    rcases h.awake hless with hon | htxe | ⟨place, hplace, -⟩
    · exact .inl hon
    · exact .inr htxe
    · rw [hidle] at hplace
      cases hplace
  case empty => exact fun hempty => hall (h.carries.isEmpty_iff.mp hempty)
  case finished => exact fun htc hplace => hall (h.complete htc hplace)

/-! ### Everything gets out -/

/-- How much is left: every byte, and to begin with a region. -/
def left (self : Transmitter) : Nat :=
  2 * (self.written.length - self.sent.length) + if self.stream.NDTR = 0 then 1 else 0

section runs

variable {isDMAEnabeld : Bool} {actions : List TransmitAction} {final : Transmitter}

theorem exists_invariant_of_run (hlen : 0 < len) (buffer : Memory UInt8)
    (hrun : run (step len) { transmittBuffer := { buffer := buffer }, isDMAEnabeld := isDMAEnabeld }
      actions = some final) : ∃ gotten, Invariant len final gotten := by
  have hkeeps : ∀ state action next, (∃ gotten, Invariant len state gotten) →
      step len state action = some next → ∃ gotten, Invariant len next gotten :=
    fun _ _ _ h hstep => h.elim fun _ h => h.step hstep
  exact run_invariant hkeeps ⟨[], initial_invariant hlen buffer isDMAEnabeld⟩ hrun

end runs

end Transmitter

end Rodos.BareMetal.HalUart
