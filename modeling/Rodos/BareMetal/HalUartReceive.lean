import Rodos.BareMetal.HalUartTransmit

/-! `HAL_UART` of the STM32F4, its receiving side: the interrupts of the UART or of its DMA stream
fill a buffer that threads empty. -/
namespace Rodos.BareMetal.HalUart
open Library Api

/-- Where a thread is in `read` or `getcharNoWait`. -/
inductive ReadAt where
  /-- At `buf[i] = p[i]`. -/
  | copying (buf : List UInt8) (p readCnt : Nat)
  /-- At `if(context->isDMAEnabeld && !context->DMAReceiveRunning)`. -/
  | testing
  /-- At the call of `RceiveIntoRxBufWithDMA`. -/
  | starting

/-- The thread is going to look whether the stream is to be started. -/
def ReadAt.WillLook : ReadAt → Prop
  | .copying .. => False
  | .testing | .starting => True

/-- The last two fields are not in the program: what the buffer has taken from the UART, and what
threads have got. -/
structure Receiver where
  receiveBuffer : BlockFifo UInt8
  isDMAEnabeld : Bool := false
  DMAReceiveRunning : Bool := false
  DMAReceiveRunningSize : Nat := 0
  DMAMaxReceiveSize : Nat := 0
  stream : DMAStream := {}
  uartRxError : Nat := 0
  reader : Option ReadAt := none
  arrived : List UInt8 := []
  gotten : List UInt8 := []

inductive ReceiveAction where
  | read (size : Nat)
  | getcharNoWait
  /-- The next step of a thread in `read` or `getcharNoWait`. -/
  | proceed
  /-- `config` with `UART_PARAMETER_ENABLE_DMA`. -/
  | enableDMA (paramVal : Nat)
  /-- The stream stores a byte from the UART. -/
  | transfer (byte : UInt8)
  /-- The stream is through, or `ReceiveTrigger` has stopped it. -/
  | receiveFinished
  /-- `UARTIRQHandler` for `USART_IT_RXNE`. -/
  | dataReceived (c : UInt8)

namespace Receiver

variable (len : Nat)

def RceiveIntoRxBufWithDMA (self : Receiver) : Receiver :=
  match BlockFifo.getBufferToWrite len self.receiveBuffer with
  | ⟨some p, len⟩ =>
    let len := if len > self.DMAMaxReceiveSize then self.DMAMaxReceiveSize else len
    { self with
      DMAReceiveRunningSize := len
      DMAReceiveRunning := true
      stream := { M0AR := p, NDTR := len, isEnabled := true } }
  | ⟨none, _⟩ => { self with DMAReceiveRunning := false, uartRxError := self.uartRxError + 1 }

def DMAReceiveFinishedHandler (self : Receiver) : Receiver :=
  let bytesTransfered := self.DMAReceiveRunningSize - self.stream.NDTR
  { self with
    receiveBuffer := BlockFifo.writeConcluded len self.receiveBuffer bytesTransfered }
    |>.RceiveIntoRxBufWithDMA len

/-- `len` is `UART_BUF_SIZE`. -/
def enableDMA (self : Receiver) (paramVal : Nat) : Receiver :=
  { self with
    DMAMaxReceiveSize := if paramVal > len then len else paramVal
    isDMAEnabeld := true }
    |>.RceiveIntoRxBufWithDMA len

def read (self : Receiver) (size : Nat) : Receiver :=
  if size ≤ 0 then self
  else
    match BlockFifo.getBufferToRead len self.receiveBuffer with
    | ⟨none, _⟩ => self
    | ⟨some p, readCnt⟩ =>
      let readCnt := if readCnt > size then size else readCnt
      { self with reader := some (.copying [] p readCnt) }

def getcharNoWait (self : Receiver) : Receiver :=
  let (c, receiveBuffer) := self.receiveBuffer.get len
  { self with
    receiveBuffer := receiveBuffer
    reader := some .testing
    gotten := self.gotten ++ c.toList }

def proceed (self : Receiver) : ReadAt → Receiver
  | .copying buf p readCnt =>
    if buf.length < readCnt then
      { self with
        reader := some (.copying (buf ++ [self.receiveBuffer.buffer (p + buf.length)]) p readCnt) }
    else
      { self with
        receiveBuffer := BlockFifo.readConcluded len self.receiveBuffer readCnt
        reader := some .testing
        gotten := self.gotten ++ buf }
  | .testing =>
    if self.isDMAEnabeld ∧ !self.DMAReceiveRunning then { self with reader := some .starting }
    else { self with reader := none }
  | .starting => { self.RceiveIntoRxBufWithDMA len with reader := none }

def transfer (self : Receiver) (byte : UInt8) : Receiver :=
  { self with
    receiveBuffer := { self.receiveBuffer with
      buffer := self.receiveBuffer.buffer.store self.stream.M0AR byte }
    stream := { self.stream with M0AR := self.stream.M0AR + 1, NDTR := self.stream.NDTR - 1 }
    arrived := self.arrived ++ [byte] }

def dataReceived (self : Receiver) (c : UInt8) : Receiver :=
  let (ok, receiveBuffer) := self.receiveBuffer.put len c
  let self := { self with receiveBuffer := receiveBuffer }
  if !ok then { self with uartRxError := self.uartRxError + 1 }
  else { self with arrived := self.arrived ++ [c] }

/-- Only one thread reads at a time, and the stream is enabled only once. -/
def step (self : Receiver) : ReceiveAction → Option Receiver
  | .read size =>
    match self.reader with
    | none => some (self.read len size)
    | some _ => none
  | .getcharNoWait =>
    match self.reader with
    | none => some (self.getcharNoWait len)
    | some _ => none
  | .proceed => self.reader.map (self.proceed len)
  | .enableDMA paramVal =>
    if self.isDMAEnabeld then none else some (self.enableDMA len paramVal)
  | .transfer byte =>
    if self.stream.isEnabled ∧ 0 < self.stream.NDTR then some (self.transfer byte) else none
  | .receiveFinished =>
    if self.stream.isEnabled then
      some ({ self with stream := { self.stream with isEnabled := false } }
        |>.DMAReceiveFinishedHandler len)
    else none
  | .dataReceived c => if self.isDMAEnabeld then none else some (self.dataReceived len c)

/-! ### The state between two steps -/

/-- The stream is on its way through a region of free cells. -/
structure Receiving (len : Nat) (uart : Receiver) (passed : List UInt8) : Prop where
  running : uart.DMAReceiveRunning = true
  remaining : uart.stream.NDTR ≤ uart.DMAReceiveRunningSize
  position : uart.stream.M0AR =
    uart.receiveBuffer.writeX + (uart.DMAReceiveRunningSize - uart.stream.NDTR)
  available : passed.length + uart.DMAReceiveRunningSize < uart.gotten.length + len
  inside : uart.receiveBuffer.writeX + uart.DMAReceiveRunningSize ≤ len
  arrived_eq : uart.arrived = passed ++
    uart.receiveBuffer.buffer.slice uart.receiveBuffer.writeX uart.stream.M0AR

structure Resting (uart : Receiver) (passed : List UInt8) : Prop where
  running : uart.DMAReceiveRunning = false
  arrived_eq : uart.arrived = passed

/-- What a thread relies on at its place. -/
def Relies (len : Nat) (uart : Receiver) (passed : List UInt8) : ReadAt → Prop
  | .copying buf p readCnt =>
    p = uart.receiveBuffer.readX ∧ p + readCnt ≤ len ∧
      uart.gotten.length + readCnt ≤ passed.length ∧ buf.length ≤ readCnt ∧
      buf = (passed.drop uart.gotten.length).take buf.length
  | .testing => True
  | .starting => uart.isDMAEnabeld = true ∧ uart.stream.isEnabled = false

/-- What the threads find in the buffer has been passed to them. -/
structure Invariant (len : Nat) (uart : Receiver) (passed : List UInt8) : Prop where
  carries : Fifo.Carries len uart.receiveBuffer passed uart.gotten
  receiving : uart.stream.isEnabled = true → uart.Receiving len passed
  resting : uart.stream.isEnabled = false → uart.Resting passed
  mode : uart.stream.isEnabled = true → uart.isDMAEnabeld = true
  relies : ∀ place ∈ uart.reader, uart.Relies len passed place
  awake : uart.isDMAEnabeld = true → uart.stream.isEnabled = true ∨
    passed.length + 1 = uart.gotten.length + len ∨ ∃ place ∈ uart.reader, place.WillLook

variable {len : Nat} {self next : Receiver} {passed passed' : List UInt8}

theorem initial_invariant (hlen : 0 < len) (buffer : Memory UInt8) :
    Invariant len { receiveBuffer := { buffer := buffer } } [] where
  carries := Fifo.carries_initial hlen buffer
  receiving := nofun
  resting _ := ⟨rfl, rfl⟩
  mode := nofun
  relies := nofun
  awake := nofun

theorem RceiveIntoRxBufWithDMA_cases
    (h : Fifo.Carries len self.receiveBuffer passed self.gotten) :
    (passed.length + 1 = self.gotten.length + len ∧
        self.RceiveIntoRxBufWithDMA len = { self with
          DMAReceiveRunning := false
          uartRxError := self.uartRxError + 1 }) ∨
      ∃ count, self.receiveBuffer.writeX + count ≤ len ∧
        passed.length + count < self.gotten.length + len ∧
        self.RceiveIntoRxBufWithDMA len = { self with
          DMAReceiveRunningSize := count
          DMAReceiveRunning := true
          stream := { M0AR := self.receiveBuffer.writeX, NDTR := count, isEnabled := true } } := by
  obtain ⟨hfits, hpos⟩ := h.getBufferToWrite_fits
  have hroom := h.room
  rw [RceiveIntoRxBufWithDMA]
  split
  · next p room hoffer =>
    rw [hoffer] at hfits
    obtain ⟨rfl, hend, hfree⟩ := hfits
    dsimp only at hend hfree
    refine .inr ⟨_, ?_, ?_, rfl⟩ <;> split <;> omega
  · next room hoffer =>
    rw [hoffer] at hfits hpos
    obtain rfl : room = 0 := hfits
    dsimp only at hpos
    exact .inl ⟨by omega, rfl⟩

theorem Receiving.frame (h : self.Receiving len passed)
    (hrunning : next.DMAReceiveRunning = self.DMAReceiveRunning)
    (hsize : next.DMAReceiveRunningSize = self.DMAReceiveRunningSize)
    (hstream : next.stream = self.stream)
    (hwriteX : next.receiveBuffer.writeX = self.receiveBuffer.writeX)
    (hbuffer : next.receiveBuffer.buffer = self.receiveBuffer.buffer)
    (harrived : next.arrived = self.arrived)
    (hlonger : self.gotten.length ≤ next.gotten.length) : next.Receiving len passed := by
  have hroom := h.available
  constructor
  case running => rw [hrunning, h.running]
  case remaining => rw [hstream, hsize]; exact h.remaining
  case position => rw [hstream, hsize, hwriteX]; exact h.position
  case available =>
    rw [hsize]
    omega
  case inside => rw [hsize, hwriteX]; exact h.inside
  case arrived_eq => rw [harrived, hbuffer, hwriteX, hstream, h.arrived_eq]

/-- The flag tells what the stream does. -/
theorem Invariant.isEnabled_eq (h : Invariant len self passed) :
    self.stream.isEnabled = self.DMAReceiveRunning := by
  cases hstream : self.stream.isEnabled with
  | false => exact (h.resting hstream).running.symm
  | true => exact (h.receiving hstream).running.symm

/-! ### Threads -/

/-- A step of a thread that only changes its place. -/
theorem Invariant.at_place (h : Invariant len self passed) {place : Option ReadAt}
    (hrelies : ∀ place' ∈ place, self.Relies len passed place')
    (hawake : self.isDMAEnabeld = true → self.stream.isEnabled = true ∨
      passed.length + 1 = self.gotten.length + len ∨ ∃ place' ∈ place, place'.WillLook) :
    Invariant len { self with reader := place } passed where
  carries := h.carries
  receiving hon := (h.receiving hon).frame rfl rfl rfl rfl rfl rfl (Nat.le_refl _)
  resting hoff := ⟨(h.resting hoff).running, (h.resting hoff).arrived_eq⟩
  mode := h.mode
  relies place' hplace := by
    have hrelied := hrelies place' hplace
    cases place' <;> exact hrelied
  awake := hawake

/-- The values that a thread has taken are given back, and it goes on to look at the stream. -/
theorem Invariant.taken (h : Invariant len self passed) {fifo : BlockFifo UInt8}
    {more : List UInt8} (hcarries : Fifo.Carries len fifo passed (self.gotten ++ more))
    (hbuffer : fifo.buffer = self.receiveBuffer.buffer) :
    Invariant len { self with
      receiveBuffer := fifo
      reader := some .testing
      gotten := self.gotten ++ more } passed where
  carries := hcarries
  receiving hon := (h.receiving hon).frame rfl rfl rfl
    (hcarries.writeX_eq.trans h.carries.writeX_eq.symm) hbuffer rfl (by simp)
  resting hoff := ⟨(h.resting hoff).running, (h.resting hoff).arrived_eq⟩
  mode := h.mode
  relies := by
    rintro _ ⟨⟩
    trivial
  awake _ := .inr (.inr ⟨.testing, rfl, trivial⟩)

theorem Invariant.read (h : Invariant len self passed) (hidle : self.reader = none) (size : Nat) :
    Invariant len (self.read len size) passed := by
  have hfits := h.carries.getBufferToRead_fits.1
  have hle := h.carries.length_le
  unfold Receiver.read
  split
  · exact h
  · split
    · exact h
    · next p readCnt hoffer =>
      rw [hoffer] at hfits
      obtain ⟨rfl, hend, hfree⟩ := hfits
      dsimp only at hend hfree
      apply h.at_place
      · rintro _ ⟨⟩
        refine ⟨rfl, ?_, ?_, Nat.zero_le _, rfl⟩ <;> split <;> omega
      · intro hdma
        rcases h.awake hdma with hon | hfull | ⟨place, hplace, -⟩
        · exact .inl hon
        · exact .inr (.inl hfull)
        · rw [hidle] at hplace
          cases hplace

theorem Invariant.getcharNoWait (h : Invariant len self passed) :
    Invariant len (self.getcharNoWait len) passed := by
  have hbuffer := Fifo.get_buffer len self.receiveBuffer
  rcases h.carries.get_cases with ⟨hempty, hget⟩ | ⟨hsome, c, hc, hget, hcarries⟩
  · have hcarries : Fifo.Carries len (self.receiveBuffer.get len).2 passed (self.gotten ++ []) := by
      rw [hget, List.append_nil]
      exact h.carries.of_eq rfl rfl rfl
    have htaken := h.taken hcarries hbuffer
    simp only [Receiver.getcharNoWait, Option.toList_none, hget] at htaken ⊢
    exact htaken
  · simp only [Receiver.getcharNoWait, hget, Option.toList_some]
    exact h.taken hcarries hbuffer

theorem Invariant.copied (h : Invariant len self passed) {buf : List UInt8} {p readCnt : Nat}
    (hplace : self.reader = some (.copying buf p readCnt)) (hmore : buf.length < readCnt) :
    Invariant len { self with reader := some (.copying
      (buf ++ [self.receiveBuffer.buffer (p + buf.length)]) p readCnt) } passed := by
  obtain ⟨rfl, hend, hroom, hcount, hbuf⟩ := h.relies _ hplace
  apply h.at_place
  · rintro _ ⟨⟩
    have hbyte : passed[self.gotten.length + buf.length]? =
        some (self.receiveBuffer.buffer (self.receiveBuffer.readX + buf.length)) := by
      rw [h.carries.holds.getElem (Nat.le_add_right _ _) (by omega),
        h.carries.slot_unread (by omega)]
    refine ⟨rfl, hend, hroom, by simpa [Nat.succ_le_iff] using hmore, ?_⟩
    rw [List.length_append, List.length_singleton, List.take_add_one, ← hbuf, List.getElem?_drop,
      hbyte]
    rfl
  · intro hdma
    rcases h.awake hdma with hon | hfull | ⟨place, hreader, hlooks⟩
    · exact .inl hon
    · exact .inr (.inl hfull)
    · rw [hplace] at hreader
      cases hreader
      exact hlooks.elim

theorem Invariant.readConcluded (h : Invariant len self passed) {buf : List UInt8}
    {p readCnt : Nat} (hplace : self.reader = some (.copying buf p readCnt))
    (hdone : ¬ buf.length < readCnt) :
    Invariant len { self with
      receiveBuffer := BlockFifo.readConcluded len self.receiveBuffer readCnt
      reader := some .testing
      gotten := self.gotten ++ buf } passed := by
  obtain ⟨rfl, hend, hroom, hcount, hbuf⟩ := h.relies _ hplace
  obtain rfl : buf.length = readCnt := by omega
  have hcarries := h.carries.readConcluded hroom
  rw [← hbuf] at hcarries
  exact h.taken hcarries rfl

/-- The stream is started on a region of free cells, unless there are none. -/
theorem started_invariant (hcarries : Fifo.Carries len self.receiveBuffer passed self.gotten)
    (harrived : self.arrived = passed) (hdma : self.isDMAEnabeld = true)
    (hoff : self.stream.isEnabled = false) {place : Option ReadAt}
    (hrelies : ∀ place' ∈ place, self.Relies len passed place' ∧ place' ≠ .starting) :
    Invariant len { self.RceiveIntoRxBufWithDMA len with reader := place } passed := by
  have hrelied : ∀ (uart : Receiver), uart.receiveBuffer = self.receiveBuffer →
      uart.gotten = self.gotten → ∀ place' ∈ place, uart.Relies len passed place' := by
    intro uart hbuffer hgotten place' hplace
    obtain ⟨hrelied, hother⟩ := hrelies place' hplace
    cases place' with
    | copying buf p readCnt =>
      rw [Relies, hbuffer, hgotten]
      exact hrelied
    | testing => trivial
    | starting => exact absurd rfl hother
  rcases RceiveIntoRxBufWithDMA_cases hcarries with ⟨hfull, hnothing⟩ |
      ⟨count, hend, hroom, hstarted⟩
  · rw [hnothing]
    constructor
    case carries => exact hcarries
    case receiving =>
      intro hon
      dsimp only at hon
      rw [hoff] at hon
      cases hon
    case resting => exact fun _ => ⟨rfl, harrived⟩
    case mode => exact fun _ => hdma
    case relies => exact hrelied _ rfl rfl
    case awake => exact fun _ => .inr (.inl hfull)
  · rw [hstarted]
    constructor
    case carries => exact hcarries
    case receiving =>
      intro _
      constructor
      case running => rfl
      case remaining => exact Nat.le_refl count
      case position => simp
      case available => exact hroom
      case inside => exact hend
      case arrived_eq =>
        have hnone : self.receiveBuffer.buffer.slice self.receiveBuffer.writeX
            self.receiveBuffer.writeX = [] := by simp [Memory.slice]
        exact harrived.trans (by rw [hnone, List.append_nil])
    case resting =>
      intro hoff
      cases hoff
    case mode => exact fun _ => hdma
    case relies => exact hrelied _ rfl rfl
    case awake => exact fun _ => .inl rfl

/-- The threads stay where they are. -/
theorem started_meanwhile (hcarries : Fifo.Carries len self.receiveBuffer passed self.gotten)
    (harrived : self.arrived = passed) (hdma : self.isDMAEnabeld = true)
    (hoff : self.stream.isEnabled = false)
    (hrelies : ∀ place ∈ self.reader, self.Relies len passed place ∧ place ≠ .starting) :
    Invariant len (self.RceiveIntoRxBufWithDMA len) passed := by
  have hreader : { self.RceiveIntoRxBufWithDMA len with reader := self.reader } =
      self.RceiveIntoRxBufWithDMA len := by
    rw [RceiveIntoRxBufWithDMA]
    split <;> rfl
  rw [← hreader]
  exact started_invariant hcarries harrived hdma hoff hrelies

theorem Invariant.proceed (h : Invariant len self passed) {place : ReadAt}
    (hplace : self.reader = some place) : Invariant len (self.proceed len place) passed := by
  cases place with
  | copying buf p readCnt =>
    rw [Receiver.proceed]
    split
    · next hmore => exact h.copied hplace hmore
    · next hdone => exact h.readConcluded hplace hdone
  | testing =>
    rw [Receiver.proceed]
    split
    · next hstarts =>
      apply h.at_place _ fun _ => .inr (.inr ⟨.starting, rfl, trivial⟩)
      rintro _ ⟨⟩
      exact ⟨hstarts.1, h.isEnabled_eq.trans (by simpa using hstarts.2)⟩
    · next hgoes =>
      refine h.at_place (by exact nofun) fun hdma => ?_
      have hrunning : self.DMAReceiveRunning = true := by simpa [hdma] using hgoes
      exact .inl (h.isEnabled_eq.trans hrunning)
  | starting =>
    obtain ⟨hdma, hoff⟩ := h.relies _ hplace
    exact started_invariant h.carries (h.resting hoff).arrived_eq hdma hoff nofun

theorem Invariant.enableDMA (h : Invariant len self passed) (hsingle : ¬ self.isDMAEnabeld = true)
    (paramVal : Nat) : Invariant len (self.enableDMA len paramVal) passed := by
  have hoff : self.stream.isEnabled = false := by
    rw [← Bool.not_eq_true]
    exact fun hon => hsingle (h.mode hon)
  rw [Receiver.enableDMA]
  refine started_meanwhile h.carries (h.resting hoff).arrived_eq rfl hoff fun place hplace => ?_
  have hrelied := h.relies place hplace
  cases place with
  | copying buf p readCnt => exact ⟨hrelied, nofun⟩
  | testing => exact ⟨trivial, nofun⟩
  | starting => exact absurd hrelied.1 hsingle

/-! ### Interrupts -/

theorem slice_store_end (memory : Memory UInt8) {start stop : Nat} (hle : start ≤ stop)
    (value : UInt8) :
    (memory.store stop value).slice start (stop + 1) = memory.slice start stop ++ [value] := by
  rw [Memory.slice, Memory.front_store_end,
    List.drop_append_of_le_length (by rw [Memory.length_front]; exact hle)]
  rfl

theorem Invariant.transfer (h : Invariant len self passed) (hon : self.stream.isEnabled = true)
    (hmore : 0 < self.stream.NDTR) (byte : UInt8) :
    Invariant len (self.transfer byte) passed := by
  have hreceiving := h.receiving hon
  have hremaining := hreceiving.remaining
  have havailable := hreceiving.available
  have hinside := hreceiving.inside
  have hposition := hreceiving.position
  constructor
  case carries =>
    have hstored := h.carries.store_ahead
      (i := self.DMAReceiveRunningSize - self.stream.NDTR) (by omega) (by omega) byte
    rw [← hposition] at hstored
    exact hstored
  case receiving =>
    intro _
    constructor
    case running => exact hreceiving.running
    case remaining => exact Nat.le_trans (Nat.sub_le _ _) hremaining
    case position =>
      show self.stream.M0AR + 1 = self.receiveBuffer.writeX +
        (self.DMAReceiveRunningSize - (self.stream.NDTR - 1))
      omega
    case available => exact havailable
    case inside => exact hinside
    case arrived_eq =>
      show self.arrived ++ [byte] = passed ++ (self.receiveBuffer.buffer.store self.stream.M0AR
        byte).slice self.receiveBuffer.writeX (self.stream.M0AR + 1)
      rw [slice_store_end _ (by omega), hreceiving.arrived_eq, List.append_assoc]
  case resting =>
    intro hoff
    have hstill : self.stream.isEnabled = false := hoff
    rw [hon] at hstill
    cases hstill
  case mode => exact h.mode
  case relies =>
    intro place hplace
    have hrelied := h.relies place hplace
    cases place <;> exact hrelied
  case awake => exact h.awake

/-- What a thread relies on when more has been passed to it. -/
theorem Relies.passed_more {place : ReadAt} (h : self.Relies len passed place)
    (hleading : passed <+: passed') (hreadX : next.receiveBuffer.readX = self.receiveBuffer.readX)
    (hgotten : next.gotten = self.gotten) (hplace : place ≠ .starting) :
    next.Relies len passed' place := by
  cases place with
  | copying buf p readCnt =>
    obtain ⟨rfl, hend, hroom, hcount, hbuf⟩ := h
    obtain ⟨more, rfl⟩ := hleading
    rw [Relies, hreadX, hgotten]
    refine ⟨rfl, hend, ?_, hcount, ?_⟩
    · rw [List.length_append]
      omega
    · rw [List.drop_append_of_le_length (by omega),
        List.take_append_of_le_length (by rw [List.length_drop]; omega)]
      exact hbuf
  | testing => trivial
  | starting => exact absurd rfl hplace

/-- Behind the interrupt the buffer carries what the stream has stored. -/
theorem Invariant.receiveFinished (h : Invariant len self passed)
    (hon : self.stream.isEnabled = true) :
    Invariant len (({ self with stream := { self.stream with isEnabled := false } } :
      Receiver).DMAReceiveFinishedHandler len) self.arrived := by
  have hreceiving := h.receiving hon
  have hremaining := hreceiving.remaining
  have havailable := hreceiving.available
  have hinside := hreceiving.inside
  have hposition := hreceiving.position
  have hlength : (self.receiveBuffer.buffer.slice self.receiveBuffer.writeX
      self.stream.M0AR).length = self.DMAReceiveRunningSize - self.stream.NDTR := by
    rw [Memory.slice, List.length_drop, Memory.length_front]
    omega
  have hcarries : Fifo.Carries len (BlockFifo.writeConcluded len self.receiveBuffer
      (self.DMAReceiveRunningSize - self.stream.NDTR)) self.arrived self.gotten := by
    rw [BlockFifo.writeConcluded, h.carries.writeX_eq,
      BlockFifo.advanceIndexEx_mod h.carries.len_pos, hreceiving.arrived_eq, ← hlength]
    apply h.carries.publish_all (by omega)
    intro i hi
    rw [Memory.getElem?_slice, if_pos (by omega), h.carries.slot_ahead (by omega)]
  have hleading : passed <+: self.arrived := hreceiving.arrived_eq ▸ List.prefix_append _ _
  rw [DMAReceiveFinishedHandler]
  refine started_meanwhile hcarries rfl (h.mode hon) rfl fun place hplace => ?_
  have hother : place ≠ .starting := by
    rintro rfl
    have hoff : self.stream.isEnabled = false := (h.relies _ hplace).2
    rw [hon] at hoff
    cases hoff
  exact ⟨(h.relies place hplace).passed_more hleading rfl rfl hother, hother⟩

/-- Without the stream, the interrupt passes at most one byte. -/
theorem Invariant.received (h : Invariant len self passed) (hsingle : ¬ self.isDMAEnabeld = true)
    {fifo : BlockFifo UInt8} {more : List UInt8} {errors : Nat}
    (hcarries : Fifo.Carries len fifo (passed ++ more) self.gotten) :
    Invariant len { self with
      receiveBuffer := fifo
      uartRxError := errors
      arrived := self.arrived ++ more } (passed ++ more) := by
  have hoff : self.stream.isEnabled = false := by
    rw [← Bool.not_eq_true]
    exact fun hon => hsingle (h.mode hon)
  have hresting := h.resting hoff
  constructor
  case carries => exact hcarries
  case receiving =>
    intro hon
    dsimp only at hon
    rw [hoff] at hon
    cases hon
  case resting => exact fun _ => ⟨hresting.running, congrArg (· ++ more) hresting.arrived_eq⟩
  case mode => exact h.mode
  case relies =>
    intro place hplace
    refine (h.relies place hplace).passed_more (List.prefix_append _ _)
      (hcarries.readX_eq.trans h.carries.readX_eq.symm) rfl ?_
    rintro rfl
    exact hsingle (h.relies _ hplace).1
  case awake => exact fun hdma => absurd hdma hsingle

theorem Invariant.dataReceived (h : Invariant len self passed)
    (hsingle : ¬ self.isDMAEnabeld = true) (c : UInt8) :
    ∃ passed', Invariant len (self.dataReceived len c) passed' := by
  rcases h.carries.put_cases c with ⟨hfull, hput⟩ | ⟨hroom, hok, hcarries⟩
  · refine ⟨passed, ?_⟩
    have hcarries : Fifo.Carries len (self.receiveBuffer.put len c).2 (passed ++ [])
        self.gotten := by
      rw [hput, List.append_nil]
      exact h.carries.of_eq rfl rfl rfl
    have hcounted : Invariant len { self with
        receiveBuffer := (self.receiveBuffer.put len c).2
        uartRxError := self.uartRxError + 1
        arrived := self.arrived ++ [] } (passed ++ []) := h.received hsingle hcarries
    rw [hput, List.append_nil, List.append_nil] at hcounted
    simp only [Receiver.dataReceived, hput, Bool.not_false, if_true]
    exact hcounted
  · refine ⟨passed ++ [c], ?_⟩
    simp only [Receiver.dataReceived, hok, Bool.not_true, Bool.false_eq_true, if_false]
    exact h.received hsingle hcarries

theorem Invariant.step (h : Invariant len self passed) {action : ReceiveAction}
    (hstep : self.step len action = some next) : ∃ passed', Invariant len next passed' := by
  cases action with
  | read size =>
    rw [Receiver.step] at hstep
    split at hstep
    · next hidle => exact ⟨passed, Option.some.inj hstep ▸ h.read hidle size⟩
    · cases hstep
  | getcharNoWait =>
    rw [Receiver.step] at hstep
    split at hstep
    · exact ⟨passed, Option.some.inj hstep ▸ h.getcharNoWait⟩
    · cases hstep
  | proceed =>
    obtain ⟨place, hplace, rfl⟩ := Option.map_eq_some_iff.mp hstep
    exact ⟨passed, h.proceed hplace⟩
  | enableDMA paramVal =>
    rw [Receiver.step] at hstep
    split at hstep
    · cases hstep
    · next hsingle => exact ⟨passed, Option.some.inj hstep ▸ h.enableDMA hsingle paramVal⟩
  | transfer byte =>
    rw [Receiver.step] at hstep
    split at hstep
    · next hallowed =>
      exact ⟨passed, Option.some.inj hstep ▸ h.transfer hallowed.1 hallowed.2 byte⟩
    · cases hstep
  | receiveFinished =>
    rw [Receiver.step] at hstep
    split at hstep
    · next hon => exact ⟨self.arrived, Option.some.inj hstep ▸ h.receiveFinished hon⟩
    · cases hstep
  | dataReceived c =>
    rw [Receiver.step] at hstep
    split at hstep
    · cases hstep
    · next hsingle => exact Option.some.inj hstep ▸ h.dataReceived hsingle c

/-! ### What threads get -/

/-- What the stream has stored since it was started. -/
def inStream (self : Receiver) : List UInt8 :=
  if self.stream.isEnabled then
    self.receiveBuffer.buffer.slice self.receiveBuffer.writeX self.stream.M0AR
  else []

/-- Every byte that was taken from the UART is with a thread, in the buffer or in the region of the
stream, once and in order, and the stream is stopped only while the buffer is full. -/
structure Delivers (len : Nat) (uart : Receiver) : Prop where
  in_order : uart.arrived = uart.gotten ++ uart.receiveBuffer.unread len ++ uart.inStream
  listens : uart.isDMAEnabeld = true → uart.reader = none →
    uart.stream.isEnabled = true ∨ uart.receiveBuffer.isFull len = true

theorem Invariant.delivers (h : Invariant len self passed) : Delivers len self where
  in_order := by
    have hpassed : self.gotten ++ self.receiveBuffer.unread len = passed := by
      rw [h.carries.unread_eq]
      nth_rewrite 1 [h.carries.gotten_eq_take]
      exact List.take_append_drop _ _
    rw [hpassed, inStream]
    cases hstream : self.stream.isEnabled with
    | false =>
      rw [if_neg Bool.false_ne_true, List.append_nil]
      exact (h.resting hstream).arrived_eq
    | true =>
      rw [if_pos rfl]
      exact (h.receiving hstream).arrived_eq
  listens := by
    intro hdma hidle
    rcases h.awake hdma with hon | hfull | ⟨place, hplace, -⟩
    · exact .inl hon
    · exact .inr (h.carries.isFull_iff.mpr hfull)
    · rw [hidle] at hplace
      cases hplace

end Receiver

end Rodos.BareMetal.HalUart
