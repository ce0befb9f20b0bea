import Rodos.Api.FifoAccess
import Rodos.Library.Runs

/-! `HAL_CAN` of the STM32F4, its transmitting side: threads put frames into the mailboxes of the
controller or into a fifo, from which the interrupt of the controller refills the mailboxes. -/
namespace Rodos.BareMetal.HalCan
open Library Api

/-- `canID` is `ExtId` or `StdId`, as `IDE` tells, and `DLC` is the length of `Data`. -/
structure CanTxMsg where
  canID : UInt32
  IDE : Bool
  RTR : Bool
  Data : List UInt8
  DLC_le : Data.length ≤ 8

/-- Where a thread is in `write`. -/
inductive WriteAt where
  /-- At the first `CAN_ITConfig`. -/
  | entered (msg : CanTxMsg)
  | testing (msg : CanTxMsg)
  /-- At the first `txFifoEmpty = false`. -/
  | queueing (msg : CanTxMsg)
  | putting (place : PutAt CanTxMsg)

/-- The thread is going to enable the interrupt, unless the fifo is empty. -/
def WriteAt.WillEnable : WriteAt → Prop
  | .testing _ | .queueing _ | .putting (.returning true) => True
  | .entered _ | .putting _ => False

/-- The thread is going to put its frame into the fifo, or has done so. -/
def WriteAt.Queues : WriteAt → Prop
  | .entered _ | .testing _ => False
  | .queueing _ | .putting _ => True

/-- Where the interrupt is in `TxIRQHandler`. -/
inductive HandleAt where
  /-- At the test of a mailbox, or behind the last one. -/
  | looking (mbox : Nat) (sending : Bool)
  /-- At `CAN_ClearFlag`. -/
  | clearing

/-- The controller sends in the order of the requests, as `CAN_TXFP` says. The last two fields are
not in the program: what calls of `write` have accepted and the controller has sent. -/
structure CAN_Ctrl where
  txFifo : Fifo CanTxMsg
  txFifoEmpty : Bool := true
  /-- The interrupt `CAN_IT_TME` is enabled. -/
  enabledTME : Bool := false
  /-- The mailboxes with a request, the first request first. -/
  pending : List (Nat × CanTxMsg) := []
  /-- The mailboxes whose flag `RQCP` is set. -/
  completed : List Nat := []
  writer : Option WriteAt := none
  handler : Option HandleAt := none
  accepted : List CanTxMsg := []
  sent : List CanTxMsg := []

inductive CanAction where
  | write (sendBuf : List UInt8) (canID : UInt32) (extID rtr : Bool)
  /-- The next step of a thread in `write`. -/
  | proceed
  | txInterrupt
  /-- The next step of `TxIRQHandler`. -/
  | handle
  /-- The controller is through with a frame. -/
  | transmitted

def txFifoLen : Nat := 16

namespace CAN_Ctrl

def isPending (self : CAN_Ctrl) (mbox : Nat) : Bool := self.pending.any (·.1 == mbox)

/-- `CAN_Transmit` takes the first empty mailbox, if there is one. -/
def putIntoTxMailbox (self : CAN_Ctrl) (msg : CanTxMsg) : Bool × CAN_Ctrl :=
  match [0, 1, 2].find? fun mbox => !self.isPending mbox with
  | some mbox =>
    (true, { self with
      pending := self.pending ++ [(mbox, msg)]
      completed := self.completed.filter (· != mbox) })
  | none => (false, self)

def write (self : CAN_Ctrl) (sendBuf : List UInt8) (canID : UInt32) (extID rtr : Bool) :
    CAN_Ctrl :=
  if h : sendBuf.length ≤ 8 then
    { self with writer := some (.entered ⟨canID, extID, rtr, sendBuf, h⟩) }
  else self

def proceed (self : CAN_Ctrl) : WriteAt → CAN_Ctrl
  | .entered msg => { self with enabledTME := false, writer := some (.testing msg) }
  | .testing msg =>
    if self.txFifoEmpty then
      match self.putIntoTxMailbox msg with
      | (true, self) => { self with accepted := self.accepted ++ [msg], writer := none }
      | (false, self) => { self with writer := some (.queueing msg) }
    else { self with writer := some (.queueing msg) }
  | .queueing msg =>
    { self with txFifoEmpty := false, enabledTME := true, writer := some (.putting (.called msg)) }
  | .putting (.returning true) =>
    { self with txFifoEmpty := false, enabledTME := true, writer := none }
  | .putting (.returning false) => { self with writer := none }
  | .putting place =>
    { self with
      txFifo := (place.step txFifoLen self.txFifo).1
      accepted := self.accepted ++ place.publishes
      writer := some (.putting (place.step txFifoLen self.txFifo).2) }

def TxIRQHandler (self : CAN_Ctrl) : HandleAt → CAN_Ctrl
  | .looking mbox sending =>
    if mbox < 3 then
      if self.isPending mbox then { self with handler := some (.looking (mbox + 1) sending) }
      else
        match self.txFifo.get txFifoLen with
        | (none, txFifo) =>
          { self with
            txFifo := txFifo
            txFifoEmpty := true
            enabledTME := false
            handler := some .clearing }
        | (some msg, txFifo) =>
          { ({ self with txFifo := txFifo }.putIntoTxMailbox msg).2 with
            handler := some (.looking (mbox + 1) true) }
    else if sending then { self with handler := some (.looking 0 false) }
    else { self with handler := some .clearing }
  | .clearing => { self with completed := [], handler := none }

/-- `CANCtrlProtector` lets one thread write at a time, and none runs during the interrupt. -/
def step (self : CAN_Ctrl) : CanAction → Option CAN_Ctrl
  | .write sendBuf canID extID rtr =>
    match self.handler, self.writer with
    | none, none => some (self.write sendBuf canID extID rtr)
    | _, _ => none
  | .proceed =>
    match self.handler with
    | none => self.writer.map self.proceed
    | some _ => none
  | .txInterrupt =>
    if self.enabledTME ∧ self.completed ≠ [] ∧ self.handler.isNone then
      some { self with handler := some (.looking 0 false) }
    else none
  | .handle => self.handler.map self.TxIRQHandler
  | .transmitted =>
    match self.pending with
    | [] => none
    | (mbox, msg) :: pending =>
      some { self with
        pending := pending
        completed := mbox :: self.completed
        sent := self.sent ++ [msg] }

/-! ### What each call does -/

variable {self next : CAN_Ctrl} {passed gotten : List CanTxMsg}

theorem isPending_iff {mbox : Nat} :
    self.isPending mbox = true ↔ mbox ∈ self.pending.map Prod.fst := by
  simp [isPending]

theorem not_mem_of_not_pending {mbox : Nat} (hfree : self.isPending mbox = false) :
    mbox ∉ self.pending.map Prod.fst := by
  rw [← isPending_iff, hfree]
  nofun

/-- A request never goes to a mailbox that has one. -/
theorem putIntoTxMailbox_cases (self : CAN_Ctrl) (msg : CanTxMsg) :
    ((∀ mbox < 3, self.isPending mbox = true) ∧ self.putIntoTxMailbox msg = (false, self)) ∨
      ∃ mbox, self.isPending mbox = false ∧
        self.putIntoTxMailbox msg = (true, { self with
          pending := self.pending ++ [(mbox, msg)]
          completed := self.completed.filter (· != mbox) }) := by
  unfold putIntoTxMailbox
  split
  · next mbox hfind =>
    exact .inr ⟨mbox, by simpa using List.find?_some hfind, rfl⟩
  · next hfind =>
    refine .inl ⟨fun mbox hmbox => ?_, rfl⟩
    have hall := List.find?_eq_none.mp hfind mbox (by simp; omega)
    simpa using hall

theorem putIntoTxMailbox_of_not_pending {mbox : Nat} (hmbox : mbox < 3)
    (hfree : self.isPending mbox = false) (msg : CanTxMsg) :
    ∃ mbox, self.isPending mbox = false ∧
      self.putIntoTxMailbox msg = (true, { self with
        pending := self.pending ++ [(mbox, msg)]
        completed := self.completed.filter (· != mbox) }) := by
  rcases self.putIntoTxMailbox_cases msg with ⟨hfull, -⟩ | hsome
  · rw [hfull mbox hmbox] at hfree
    cases hfree
  · exact hsome

/-- A mailbox without a request can be added to those that have one. -/
theorem distinct_concat {pending : List (Nat × CanTxMsg)} (h : (pending.map Prod.fst).Nodup)
    {mbox : Nat} (hfree : mbox ∉ pending.map Prod.fst) (msg : CanTxMsg) :
    ((pending ++ [(mbox, msg)]).map Prod.fst).Nodup := by
  rw [List.map_append, List.nodup_append]
  refine ⟨h, by simp, ?_⟩
  rintro other hother _ hmbox rfl
  rw [List.mem_singleton.mp hmbox] at hother
  exact hfree hother

/-! ### The state between two steps -/

/-- Of the frames that were put into the fifo, the interrupt has gotten the first part. -/
structure Invariant (ctrl : CAN_Ctrl) (passed gotten : List CanTxMsg) : Prop where
  carries : ctrl.txFifo.Carries txFifoLen passed gotten
  accepted_eq : ctrl.accepted =
    ctrl.sent ++ ctrl.pending.map Prod.snd ++ passed.drop gotten.length
  distinct : (ctrl.pending.map Prod.fst).Nodup
  knows : ∀ place, ctrl.writer = some (.putting place) →
    place.Knows txFifoLen ctrl.txFifo passed gotten
  bypass : ctrl.txFifoEmpty = true → gotten.length < passed.length →
    ctrl.writer = some (.putting (.returning true))
  awake : gotten.length < passed.length →
    ctrl.enabledTME = true ∨ ∃ place ∈ ctrl.writer, place.WillEnable

theorem initial_invariant (buffer : Memory CanTxMsg) :
    Invariant { txFifo := { buffer := buffer } } [] [] where
  carries := Fifo.carries_initial (by decide) buffer
  accepted_eq := rfl
  distinct := List.nodup_nil
  knows := nofun
  bypass _ hsome := absurd hsome (Nat.lt_irrefl 0)
  awake hsome := absurd hsome (Nat.lt_irrefl 0)

/-- The frames on their way, in terms of the fifo itself. -/
theorem Invariant.accepted_eq_unread (h : Invariant self passed gotten) :
    self.accepted = self.sent ++ self.pending.map Prod.snd ++ self.txFifo.unread txFifoLen := by
  rw [h.carries.unread_eq]
  exact h.accepted_eq

/-- A step that changes neither the frames nor the mailboxes. -/
theorem Invariant.arranged (h : Invariant self passed gotten) {empty tme : Bool}
    {place : Option WriteAt} {handler : Option HandleAt} {completed : List Nat}
    (hknows : ∀ place', place = some (.putting place') →
      place'.Knows txFifoLen self.txFifo passed gotten)
    (hbypass : empty = true → gotten.length < passed.length →
      place = some (.putting (.returning true)))
    (hawake : gotten.length < passed.length →
      tme = true ∨ ∃ place' ∈ place, place'.WillEnable) :
    Invariant { self with
      txFifoEmpty := empty
      enabledTME := tme
      writer := place
      handler := handler
      completed := completed } passed gotten :=
  ⟨h.carries, h.accepted_eq, h.distinct, hknows, hbypass, hawake⟩

/-- The thread is elsewhere than behind a successful `put`. -/
theorem Invariant.bypass_of_ne (h : Invariant self passed gotten)
    (hplace : self.writer ≠ some (.putting (.returning true))) (hempty : self.txFifoEmpty = true) :
    ¬ gotten.length < passed.length :=
  fun hsome => hplace (h.bypass hempty hsome)

theorem Invariant.enabled_of_not_will (h : Invariant self passed gotten)
    (hwill : ∀ place ∈ self.writer, ¬ place.WillEnable) (hsome : gotten.length < passed.length) :
    self.enabledTME = true := by
  rcases h.awake hsome with htme | ⟨place, hplace, hwills⟩
  · exact htme
  · exact absurd hwills (hwill place hplace)

theorem Invariant.write (h : Invariant self passed gotten) (hidle : self.writer = none)
    (sendBuf : List UInt8) (canID : UInt32) (extID rtr : Bool) :
    Invariant (self.write sendBuf canID extID rtr) passed gotten := by
  unfold CAN_Ctrl.write
  split
  · apply h.arranged (by rintro _ ⟨⟩)
    · exact fun hempty hsome => absurd hsome (h.bypass_of_ne (by rw [hidle]; nofun) hempty)
    · intro hsome
      exact .inl (h.enabled_of_not_will (by rw [hidle]; nofun) hsome)
  · exact h

/-- A mailbox takes the frame at once when nothing waits in the fifo. -/
theorem Invariant.bypassed (h : Invariant self passed gotten)
    (hnone : ¬ gotten.length < passed.length) {mbox : Nat} (hfree : self.isPending mbox = false)
    (msg : CanTxMsg) {completed : List Nat} :
    Invariant { self with
      pending := self.pending ++ [(mbox, msg)]
      completed := completed
      accepted := self.accepted ++ [msg]
      writer := none } passed gotten where
  carries := h.carries
  accepted_eq := by
    have hdrop : passed.drop gotten.length = [] := List.drop_eq_nil_of_le (by omega)
    rw [h.accepted_eq, hdrop]
    simp
  distinct := distinct_concat h.distinct (not_mem_of_not_pending hfree) msg
  knows := nofun
  bypass _ hsome := absurd hsome hnone
  awake hsome := absurd hsome hnone

theorem Invariant.testing (h : Invariant self passed gotten) {msg : CanTxMsg}
    (hplace : self.writer = some (.testing msg)) :
    Invariant (self.proceed (.testing msg)) passed gotten := by
  have hbypass := h.bypass_of_ne (by rw [hplace]; nofun)
  have hqueueing : Invariant { self with writer := some (.queueing msg) } passed gotten := by
    apply h.arranged (by rintro _ ⟨⟩)
    · exact fun hempty hsome => absurd hsome (hbypass hempty)
    · exact fun _ => .inr ⟨_, rfl, trivial⟩
  rw [CAN_Ctrl.proceed]
  split
  · next hempty =>
    rcases self.putIntoTxMailbox_cases msg with ⟨-, hfull⟩ | ⟨mbox, hfree, htaken⟩
    · rw [hfull]
      exact hqueueing
    · rw [htaken]
      exact h.bypassed (hbypass hempty) hfree msg
  · exact hqueueing

/-- One access of `put`. -/
theorem Invariant.putting (h : Invariant self passed gotten) {place : PutAt CanTxMsg}
    (hplace : self.writer = some (.putting place)) (hinside : ∀ ok, place ≠ .returning ok) :
    Invariant { self with
      txFifo := (place.step txFifoLen self.txFifo).1
      accepted := self.accepted ++ place.publishes
      writer := some (.putting (place.step txFifoLen self.txFifo).2) }
      (passed ++ place.publishes) gotten := by
  obtain ⟨hcarries, hknows⟩ := (h.knows place hplace).step h.carries
  have hwill : ∀ place' ∈ self.writer, ¬ place'.WillEnable := by
    rw [hplace]
    rintro _ ⟨⟩
    cases place <;> first | exact id | exact absurd rfl (hinside _)
  -- a frame that becomes visible leaves the thread behind a successful `put`
  have hvisible : place.publishes = [] ∨
      (place.step txFifoLen self.txFifo).2 = .returning true := by
    cases place <;> first | exact .inl rfl | exact .inr rfl
  have hle := h.carries.length_le
  constructor
  case carries => exact hcarries
  case accepted_eq =>
    rw [h.accepted_eq, List.drop_append_of_le_length hle, List.append_assoc]
  case distinct => exact h.distinct
  case knows =>
    rintro _ ⟨⟩
    exact hknows
  case bypass =>
    intro hempty hsome
    rcases hvisible with hnothing | hreturning
    · rw [hnothing, List.append_nil] at hsome
      have hreturned := h.bypass hempty hsome
      rw [hplace] at hreturned
      cases hreturned
      exact absurd rfl (hinside true)
    · rw [hreturning]
  case awake =>
    intro hsome
    rcases hvisible with hnothing | hreturning
    · rw [hnothing, List.append_nil] at hsome
      exact .inl (h.enabled_of_not_will hwill hsome)
    · exact .inr ⟨_, rfl, by rw [hreturning]; trivial⟩

theorem Invariant.proceed (h : Invariant self passed gotten) {place : WriteAt}
    (hplace : self.writer = some place) :
    ∃ passed, Invariant (self.proceed place) passed gotten := by
  cases place with
  | entered msg =>
    refine ⟨passed, h.arranged nofun (fun hempty hsome => ?_) fun _ => .inr ⟨_, rfl, trivial⟩⟩
    exact absurd hsome (h.bypass_of_ne (by rw [hplace]; nofun) hempty)
  | testing msg => exact ⟨passed, h.testing hplace⟩
  | queueing msg =>
    refine ⟨passed, h.arranged ?_ nofun fun _ => .inl rfl⟩
    rintro _ ⟨⟩
    trivial
  | putting place =>
    cases place with
    | returning ok =>
      cases ok with
      | true => exact ⟨passed, h.arranged nofun nofun fun _ => .inl rfl⟩
      | false =>
        refine ⟨passed, h.arranged nofun (fun hempty hsome => ?_) fun hsome => .inl ?_⟩
        · exact absurd hsome (h.bypass_of_ne (by rw [hplace]; nofun) hempty)
        · refine h.enabled_of_not_will ?_ hsome
          rw [hplace]
          rintro _ ⟨⟩
          exact id
    | called | comparing | rejecting | addressing | storing | publishing =>
      exact ⟨_, h.putting hplace nofun⟩

/-! ### The interrupt and the controller -/

/-- The interrupt moves a frame from the fifo into a mailbox. -/
theorem Invariant.refilled (h : Invariant self passed gotten) {msg : CanTxMsg}
    (hmsg : passed[gotten.length]? = some msg) {txFifo : Fifo CanTxMsg}
    (hcarries : txFifo.Carries txFifoLen passed (gotten ++ [msg]))
    (hbuffer : txFifo.buffer = self.txFifo.buffer) {mbox : Nat}
    (hfree : self.isPending mbox = false) {completed : List Nat} {handler : Option HandleAt} :
    Invariant { self with
      txFifo := txFifo
      pending := self.pending ++ [(mbox, msg)]
      completed := completed
      handler := handler } passed (gotten ++ [msg]) where
  carries := hcarries
  accepted_eq := by
    obtain ⟨hlt, rfl⟩ := List.getElem?_eq_some_iff.mp hmsg
    rw [h.accepted_eq, List.drop_eq_getElem_cons hlt]
    simp
  distinct := distinct_concat h.distinct (not_mem_of_not_pending hfree) msg
  knows place hplace := (h.knows place hplace).stable hbuffer (by simp)
  bypass hempty hsome := h.bypass hempty (by simp at hsome; omega)
  awake hsome := h.awake (by simp at hsome; omega)

/-- What a step of the loop over the mailboxes does. -/
theorem Invariant.looking_cases (h : Invariant self passed gotten) (mbox : Nat)
    (sending : Bool) :
    (mbox < 3 ∧ self.isPending mbox = true ∧ self.TxIRQHandler (.looking mbox sending) =
      { self with handler := some (.looking (mbox + 1) sending) }) ∨
    (gotten.length = passed.length ∧ self.TxIRQHandler (.looking mbox sending) =
      { self with
        txFifo := { self.txFifo with getErrors := self.txFifo.getErrors + 1 }
        txFifoEmpty := true
        enabledTME := false
        handler := some .clearing }) ∨
    (mbox < 3 ∧ gotten.length < passed.length ∧ ∃ free msg,
      passed[gotten.length]? = some msg ∧ self.isPending free = false ∧
      (self.txFifo.get txFifoLen).2.Carries txFifoLen passed (gotten ++ [msg]) ∧
      self.TxIRQHandler (.looking mbox sending) =
        { self with
          txFifo := (self.txFifo.get txFifoLen).2
          pending := self.pending ++ [(free, msg)]
          completed := self.completed.filter (· != free)
          handler := some (.looking (mbox + 1) true) }) ∨
    (3 ≤ mbox ∧ sending = true ∧ self.TxIRQHandler (.looking mbox sending) =
      { self with handler := some (.looking 0 false) }) ∨
    (3 ≤ mbox ∧ sending = false ∧ self.TxIRQHandler (.looking mbox sending) =
      { self with handler := some .clearing }) := by
  rw [TxIRQHandler]
  split
  · next hmbox =>
    split
    · next hpending => exact .inl ⟨hmbox, hpending, rfl⟩
    · next hfree =>
      rcases h.carries.get_cases with ⟨hnone, hget⟩ | ⟨hsome, msg, hmsg, hgot, hcarries⟩
      · rw [hget]
        exact .inr (.inl ⟨hnone, rfl⟩)
      · have hfree : self.isPending mbox = false := by simpa using hfree
        obtain ⟨free, hfree, htaken⟩ := @putIntoTxMailbox_of_not_pending
          { self with txFifo := (self.txFifo.get txFifoLen).2 } mbox hmbox hfree msg
        have hpair : self.txFifo.get txFifoLen = (some msg, (self.txFifo.get txFifoLen).2) :=
          Prod.ext hgot rfl
        refine .inr (.inr (.inl ⟨hmbox, hsome, free, msg, hmsg, hfree, hcarries, ?_⟩))
        rw [hpair]
        dsimp only
        rw [htaken]
  · next hmbox =>
    have hmbox : 3 ≤ mbox := Nat.le_of_not_lt hmbox
    split
    · next hsending => exact .inr (.inr (.inr (.inl ⟨hmbox, hsending, rfl⟩)))
    · next hsending =>
      exact .inr (.inr (.inr (.inr ⟨hmbox, Bool.eq_false_iff.mpr hsending, rfl⟩)))

/-- Only the place of the interrupt and the flags of the mailboxes change. -/
theorem Invariant.moved (h : Invariant self passed gotten) {handler : Option HandleAt}
    {completed : List Nat} :
    Invariant { self with handler := handler, completed := completed } passed gotten :=
  h.arranged h.knows h.bypass h.awake

theorem Invariant.emptied (h : Invariant self passed gotten)
    (hnone : gotten.length = passed.length) {errors : UInt32} {handler : Option HandleAt} :
    Invariant { self with
      txFifo := { self.txFifo with getErrors := errors }
      txFifoEmpty := true
      enabledTME := false
      handler := handler } passed gotten where
  carries := h.carries.of_eq rfl rfl rfl
  accepted_eq := h.accepted_eq
  distinct := h.distinct
  knows place hplace := (h.knows place hplace).stable rfl (Nat.le_refl _)
  bypass _ hsome := absurd hnone hsome.ne
  awake hsome := absurd hnone hsome.ne

theorem Invariant.looking (h : Invariant self passed gotten) (mbox : Nat) (sending : Bool) :
    ∃ gotten, Invariant (self.TxIRQHandler (.looking mbox sending)) passed gotten := by
  rcases h.looking_cases mbox sending with ⟨-, -, heq⟩ | ⟨hnone, heq⟩ |
      ⟨-, -, free, msg, hmsg, hfree, hcarries, heq⟩ | ⟨-, -, heq⟩ | ⟨-, -, heq⟩
  · exact ⟨gotten, heq ▸ h.moved⟩
  · exact ⟨gotten, heq ▸ h.emptied hnone⟩
  · exact ⟨_, heq ▸ h.refilled hmsg hcarries (Fifo.get_buffer _ _) hfree⟩
  · exact ⟨gotten, heq ▸ h.moved⟩
  · exact ⟨gotten, heq ▸ h.moved⟩

theorem Invariant.handle (h : Invariant self passed gotten) (place : HandleAt) :
    ∃ gotten, Invariant (self.TxIRQHandler place) passed gotten := by
  cases place with
  | looking mbox sending => exact h.looking mbox sending
  | clearing => exact ⟨gotten, h.moved⟩

theorem Invariant.transmitted (h : Invariant self passed gotten) {mbox : Nat} {msg : CanTxMsg}
    {pending : List (Nat × CanTxMsg)} (hpending : self.pending = (mbox, msg) :: pending) :
    Invariant { self with
      pending := pending
      completed := mbox :: self.completed
      sent := self.sent ++ [msg] } passed gotten where
  carries := h.carries
  accepted_eq := by
    rw [h.accepted_eq, hpending]
    simp
  distinct := by
    have hdistinct := h.distinct
    rw [hpending, List.map_cons] at hdistinct
    exact hdistinct.of_cons
  knows := h.knows
  bypass := h.bypass
  awake := h.awake

theorem Invariant.step (h : Invariant self passed gotten) {action : CanAction}
    (hstep : self.step action = some next) : ∃ passed gotten, Invariant next passed gotten := by
  cases action with
  | write sendBuf canID extID rtr =>
    rw [CAN_Ctrl.step] at hstep
    split at hstep
    · next hidle =>
      cases hstep
      exact ⟨passed, gotten, h.write hidle sendBuf canID extID rtr⟩
    · cases hstep
  | proceed =>
    rw [CAN_Ctrl.step] at hstep
    split at hstep
    · obtain ⟨place, hplace, rfl⟩ := Option.map_eq_some_iff.mp hstep
      obtain ⟨passed, hproceeded⟩ := h.proceed hplace
      exact ⟨passed, gotten, hproceeded⟩
    · cases hstep
  | txInterrupt =>
    rw [CAN_Ctrl.step] at hstep
    split at hstep
    · cases hstep
      exact ⟨passed, gotten, h.arranged h.knows h.bypass h.awake⟩
    · cases hstep
  | handle =>
    obtain ⟨place, -, rfl⟩ := Option.map_eq_some_iff.mp hstep
    exact ⟨passed, h.handle place⟩
  | transmitted =>
    rw [CAN_Ctrl.step] at hstep
    split at hstep
    · cases hstep
    · next hpending =>
      cases hstep
      exact ⟨passed, gotten, h.transmitted hpending⟩

/-! ### Sending the rest -/

/-- What the controller and its interrupt do. -/
inductive ByController : CanAction → Prop where
  | txInterrupt : ByController .txInterrupt
  | handle : ByController .handle
  | transmitted : ByController .transmitted

/-- The thread is elsewhere and the interrupt is not running. -/
structure Idle (ctrl : CAN_Ctrl) : Prop where
  writer_eq : ctrl.writer = none
  handler_eq : ctrl.handler = none

/-- Something will come that moves the frames in the fifo on. -/
def Moving (self : CAN_Ctrl) : Prop :=
  self.txFifo.isEmpty = true ∨ self.pending ≠ [] ∨ self.completed ≠ []

theorem Invariant.sent_eq (h : Invariant self passed gotten) (hpending : self.pending = [])
    (hnone : passed.length ≤ gotten.length) : self.sent = self.accepted := by
  rw [h.accepted_eq, hpending, List.drop_eq_nil_of_le hnone]
  simp

/-- The controller has nothing to send and nothing to report, and threads rely on the fifo. -/
structure Dead (ctrl : CAN_Ctrl) : Prop where
  pending_eq : ctrl.pending = []
  completed_eq : ctrl.completed = []
  handler_eq : ctrl.handler = none
  txFifoEmpty_eq : ctrl.txFifoEmpty = false

theorem Invariant.dead (h : Invariant self passed gotten) (hidle : self.Idle)
    (hstill : ¬ self.Moving) : self.Dead := by
  simp only [Moving, not_or, not_not] at hstill
  obtain ⟨hfifo, hpending, hcompleted⟩ := hstill
  refine ⟨hpending, hcompleted, hidle.handler_eq, Bool.eq_false_iff.mpr fun hempty => ?_⟩
  have hnone := h.bypass_of_ne (by rw [hidle.writer_eq]; nofun) hempty
  have hle := h.carries.length_le
  exact hfifo (h.carries.isEmpty_iff.mpr (by omega))

theorem Dead.step_none (h : self.Dead) {action : CanAction} (haction : ByController action) :
    self.step action = none := by
  cases haction with
  | txInterrupt => rw [step, if_neg fun hcomes => hcomes.2.1 h.completed_eq]
  | handle => rw [step, h.handler_eq, Option.map_none]
  | transmitted => rw [step, h.pending_eq]

theorem Dead.proceed (h : self.Dead) (place : WriteAt) :
    (self.proceed place).Dead ∧ (self.proceed place).sent = self.sent := by
  obtain ⟨hpending, hcompleted, hhandler, hempty⟩ := h
  cases place with
  | entered msg => exact ⟨⟨hpending, hcompleted, hhandler, hempty⟩, rfl⟩
  | testing msg =>
    rw [CAN_Ctrl.proceed, if_neg (by rw [hempty]; nofun)]
    exact ⟨⟨hpending, hcompleted, hhandler, hempty⟩, rfl⟩
  | queueing msg => exact ⟨⟨hpending, hcompleted, hhandler, rfl⟩, rfl⟩
  | putting place =>
    cases place with
    | returning ok =>
      cases ok with
      | true => exact ⟨⟨hpending, hcompleted, hhandler, rfl⟩, rfl⟩
      | false => exact ⟨⟨hpending, hcompleted, hhandler, hempty⟩, rfl⟩
    | called | comparing | rejecting | addressing | storing | publishing =>
      exact ⟨⟨hpending, hcompleted, hhandler, hempty⟩, rfl⟩

/-- Threads only go on to fill the fifo. -/
theorem Dead.step (h : self.Dead) {action : CanAction} (hstep : self.step action = some next) :
    next.Dead ∧ next.sent = self.sent := by
  cases action with
  | write sendBuf canID extID rtr =>
    rw [CAN_Ctrl.step] at hstep
    split at hstep
    · cases hstep
      unfold CAN_Ctrl.write
      split
      · exact ⟨⟨h.pending_eq, h.completed_eq, h.handler_eq, h.txFifoEmpty_eq⟩, rfl⟩
      · exact ⟨h, rfl⟩
    · cases hstep
  | proceed =>
    rw [CAN_Ctrl.step, h.handler_eq] at hstep
    obtain ⟨place, -, rfl⟩ := Option.map_eq_some_iff.mp hstep
    exact h.proceed place
  | txInterrupt => cases (h.step_none .txInterrupt).symm.trans hstep
  | handle => cases (h.step_none .handle).symm.trans hstep
  | transmitted => cases (h.step_none .transmitted).symm.trans hstep

/-! ### What keeps the controller moving -/

/-- The fifo is in use, or going to be. -/
def Queues (self : CAN_Ctrl) : Prop :=
  self.txFifoEmpty = false ∨ ∃ place ∈ self.writer, place.Queues

/-- The interrupt does not return while the fifo is in use and all mailboxes are empty. -/
def ReturnsInUse (self : CAN_Ctrl) (action : CanAction) : Prop :=
  action = .handle → self.handler = some .clearing → self.Queues → self.pending ≠ []

/-- While the fifo is in use, an interrupt is running or will come. -/
def Attended (self : CAN_Ctrl) : Prop :=
  self.Queues → self.pending ≠ [] ∨ self.completed ≠ [] ∨ self.handler ≠ none

theorem Attended.of_eq (h : self.Attended) (hqueues : next.Queues → self.Queues)
    (hpending : next.pending = self.pending) (hcompleted : next.completed = self.completed)
    (hhandler : next.handler = self.handler) : next.Attended := by
  rw [Attended, hpending, hcompleted, hhandler]
  exact fun hnext => h (hqueues hnext)

theorem queues_of_place {place : WriteAt} (hplace : self.writer = some place)
    (hqueues : place.Queues) : self.Queues := .inr ⟨place, hplace, hqueues⟩

theorem Attended.testing (h : self.Attended) (msg : CanTxMsg) :
    (self.proceed (.testing msg)).Attended := by
  rw [CAN_Ctrl.proceed]
  split
  · next hempty =>
    rcases self.putIntoTxMailbox_cases msg with ⟨hall, hfull⟩ | ⟨mbox, -, htaken⟩
    · rw [hfull]
      refine fun _ => .inl fun hnil => ?_
      have hfirst := hall 0 (by decide)
      rw [isPending_iff, hnil] at hfirst
      cases hfirst
    · rw [htaken]
      exact fun _ => .inl (by simp)
  · next hfilled => exact fun _ => h (.inl (Bool.eq_false_iff.mpr hfilled))

theorem Attended.proceed (h : self.Attended) {place : WriteAt} (hplace : self.writer = some place) :
    (self.proceed place).Attended := by
  cases place with
  | entered msg =>
    refine h.of_eq ?_ rfl rfl rfl
    rintro (hfilled | ⟨_, ⟨⟩, ⟨⟩⟩)
    exact .inl hfilled
  | testing msg => exact h.testing msg
  | queueing msg => exact h.of_eq (fun _ => queues_of_place hplace trivial) rfl rfl rfl
  | putting place =>
    have hqueues := queues_of_place hplace trivial
    cases place with
    | returning ok => cases ok <;> exact h.of_eq (fun _ => hqueues) rfl rfl rfl
    | called | comparing | rejecting | addressing | storing | publishing =>
      exact h.of_eq (fun _ => hqueues) rfl rfl rfl

theorem looking_handler (self : CAN_Ctrl) (mbox : Nat) (sending : Bool) :
    (self.TxIRQHandler (.looking mbox sending)).handler ≠ none := by
  rw [TxIRQHandler]
  split
  · split
    · nofun
    · split <;> nofun
  · split <;> nofun

theorem Attended.step (h : self.Attended) {action : CanAction} (hreturns : self.ReturnsInUse action)
    (hstep : self.step action = some next) : next.Attended := by
  cases action with
  | write sendBuf canID extID rtr =>
    rw [CAN_Ctrl.step] at hstep
    split at hstep
    · cases hstep
      unfold CAN_Ctrl.write
      split
      · refine h.of_eq ?_ rfl rfl rfl
        rintro (hfilled | ⟨_, ⟨⟩, ⟨⟩⟩)
        exact .inl hfilled
      · exact h
    · cases hstep
  | proceed =>
    rw [CAN_Ctrl.step] at hstep
    split at hstep
    · obtain ⟨place, hplace, rfl⟩ := Option.map_eq_some_iff.mp hstep
      exact h.proceed hplace
    · cases hstep
  | txInterrupt =>
    rw [CAN_Ctrl.step] at hstep
    split at hstep
    · cases hstep
      exact fun _ => .inr (.inr nofun)
    · cases hstep
  | handle =>
    obtain ⟨place, hplace, rfl⟩ := Option.map_eq_some_iff.mp hstep
    cases place with
    | looking mbox sending => exact fun _ => .inr (.inr (self.looking_handler mbox sending))
    | clearing => exact fun hqueues => .inl (hreturns rfl hplace hqueues)
  | transmitted =>
    rw [CAN_Ctrl.step] at hstep
    split at hstep
    · cases hstep
    · cases hstep
      exact fun _ => .inr (.inl (List.cons_ne_nil _ _))

theorem Invariant.moving (h : Invariant self passed gotten) (hattended : self.Attended)
    (hidle : self.Idle) : self.Moving := by
  by_contra hstill
  have hdead := h.dead hidle hstill
  rcases hattended (.inl hdead.txFifoEmpty_eq) with hne | hne | hne
  · exact hne hdead.pending_eq
  · exact hne hdead.completed_eq
  · exact hne hdead.handler_eq

/-! ### Runs -/

section runs

variable {actions later : List CanAction} {between final : CAN_Ctrl}

theorem exists_invariant_of_run (buffer : Memory CanTxMsg)
    (hrun : run step { txFifo := { buffer := buffer } } actions = some final) :
    ∃ passed gotten, Invariant final passed gotten := by
  have hkeeps : ∀ (ctrl : CAN_Ctrl) (action : CanAction) (next : CAN_Ctrl),
      (∃ passed gotten, Invariant ctrl passed gotten) → ctrl.step action = some next →
        ∃ passed gotten, Invariant next passed gotten := by
    rintro ctrl action next ⟨passed, gotten, h⟩ hstep
    exact h.step hstep
  exact run_invariant hkeeps ⟨[], [], initial_invariant buffer⟩ hrun

/-- The accepted frames leave in their order, the next ones in the mailboxes and the others in
the fifo, and no mailbox is given a second frame before it has sent the first one. -/
theorem frames_in_order (buffer : Memory CanTxMsg)
    (hrun : run step { txFifo := { buffer := buffer } } actions = some final) :
    final.accepted = final.sent ++ final.pending.map Prod.snd ++ final.txFifo.unread txFifoLen ∧
      (final.pending.map Prod.fst).Nodup := by
  obtain ⟨passed, gotten, h⟩ := exists_invariant_of_run buffer hrun
  exact ⟨h.accepted_eq_unread, h.distinct⟩

/-- Then nothing is sent any more, whatever threads write. -/
theorem nothing_more_sent (buffer : Memory CanTxMsg)
    (hrun : run step { txFifo := { buffer := buffer } } actions = some between)
    (hidle : between.Idle) (hstill : ¬ between.Moving)
    (hlater : run step between later = some final) : final.sent = between.sent := by
  obtain ⟨passed, gotten, h⟩ := exists_invariant_of_run buffer hrun
  have hkeeps : ∀ (ctrl : CAN_Ctrl) (action : CanAction) (next : CAN_Ctrl),
      ctrl.Dead ∧ ctrl.sent = between.sent → ctrl.step action = some next →
        next.Dead ∧ next.sent = between.sent := by
    rintro ctrl action next ⟨hdead, hsent⟩ hstep
    obtain ⟨hdead, hkept⟩ := hdead.step hstep
    exact ⟨hdead, hkept.trans hsent⟩
  exact (run_invariant hkeeps ⟨h.dead hidle hstill, rfl⟩ hlater).2

/-- It does not come to that as long as the interrupt leaves a mailbox in use behind. -/
theorem moving_of_returnsInUse (buffer : Memory CanTxMsg)
    (hrun : run step { txFifo := { buffer := buffer } } actions = some final)
    (halong : Along step ReturnsInUse { txFifo := { buffer := buffer } } actions)
    (hidle : final.Idle) : final.Moving := by
  obtain ⟨passed, gotten, h⟩ := exists_invariant_of_run buffer hrun
  have hinitial : Attended { txFifo := { buffer := buffer } } := by
    rintro (hfilled | ⟨_, ⟨⟩, -⟩)
    cases hfilled
  have hattended : final.Attended :=
    run_invariant_along (fun _ _ _ hctrl hreturns hstep => hctrl.step hreturns hstep) hinitial
      halong hrun
  exact h.moving hattended hidle

/-- A cell of the fifo before anything is put into it. -/
def blank : CanTxMsg := ⟨0, false, false, [], Nat.zero_le 8⟩

/-- A call that finds an empty mailbox. -/
def direct (byte : UInt8) : List CanAction := [.write [byte] 5 false false, .proceed, .proceed]

/-- Four frames, the last one through the fifo, and the interrupt behind the first of them. -/
def queued : List CanAction :=
  direct 1 ++ direct 2 ++ direct 3 ++ direct 4 ++ List.replicate 7 .proceed ++
    [.transmitted, .txInterrupt, .handle, .handle, .handle]

/-- The mailboxes are empty before the fourth frame is in the fifo. -/
def overtaken : List CanAction :=
  direct 1 ++ direct 2 ++ direct 3 ++ direct 4 ++ [.transmitted, .transmitted, .transmitted] ++
    [.proceed, .txInterrupt, .handle, .handle] ++ List.replicate 6 .proceed

theorem frames_in_order_queued : ∃ final,
    run step { txFifo := { buffer := fun _ => blank } } queued = some final ∧
      final.sent.length = 1 ∧ final.pending.map Prod.fst = [1, 2, 0] ∧
      final.accepted = final.sent ++ final.pending.map Prod.snd ++ final.txFifo.unread txFifoLen ∧
      (final.pending.map Prod.fst).Nodup :=
  ⟨_, rfl, rfl, rfl, @frames_in_order queued _ (fun _ => blank) rfl⟩

theorem nothing_more_sent_overtaken : ∃ between final,
    run step { txFifo := { buffer := fun _ => blank } } overtaken = some between ∧
      run step between (direct 5 ++ List.replicate 7 .proceed) = some final ∧
      final.accepted.length = 5 ∧ final.sent = between.sent :=
  ⟨_, _, rfl, rfl, rfl, @nothing_more_sent overtaken
    (direct 5 ++ List.replicate 7 .proceed) _ _ (fun _ => blank) rfl ⟨rfl, rfl⟩
    (by rintro (h | h | h) <;> exact absurd h (by decide)) rfl⟩

theorem moving_of_returnsInUse_queued : ∃ final,
    run step { txFifo := { buffer := fun _ => blank } }
        (queued ++ List.replicate 6 .handle) = some final ∧ final.Moving := by
  have halong : Along step ReturnsInUse { txFifo := { buffer := fun _ => blank } }
      (queued ++ List.replicate 6 .handle) := by
    repeat first
      | exact trivial
      | exact ⟨nofun, trivial⟩
      | refine ⟨nofun, ?_⟩
      | refine ⟨fun _ h => nomatch h, ?_⟩
      | refine ⟨fun _ _ _ => nofun, ?_⟩
  exact ⟨_, rfl, @moving_of_returnsInUse (queued ++ List.replicate 6 .handle) _
    (fun _ => blank) rfl halong ⟨rfl, rfl⟩⟩

end runs

end CAN_Ctrl

end Rodos.BareMetal.HalCan
