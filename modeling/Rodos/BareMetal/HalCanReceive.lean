import Rodos.BareMetal.HalCanFilterMatch
import Rodos.Api.FifoAccess

/-! The receiving side of `HAL_CAN`: the interrupt of a controller takes its frames to the fifos of
those whose filters have matched, and threads read from there. -/
namespace Rodos.BareMetal.CanFilters
open Library Api

/-- `canID` is `ExtId` or `StdId`, as `IDE` tells. -/
structure CanRxMsg where
  canID : BitVec 32
  IDE : Bool
  RTR : Bool
  DLC : Nat
  Data : List UInt8
  FMI : Nat

def rxFifoLen : Nat := 64

/-- A frame that the interrupt has taken from the controller, whether it was put into the fifo of
its owner, and how many were in there. -/
structure TakenFrame (Owner : Type) where
  msg : CanRxMsg
  owner : Owner
  stored : Bool
  unread : Nat

/-- One controller and those that receive from it, each of which one thread at a time reads from.
The last three fields are not in the program. -/
structure Reception (Owner : Type) where
  /-- What `CAN_Receive` finds. -/
  FIFO0 : List CanRxMsg := []
  RxFifo : Owner → Fifo CanRxMsg
  reader : Owner → Option (GetAt CanRxMsg) := fun _ => none
  arrived : List CanRxMsg := []
  taken : List (TakenFrame Owner) := []
  gotten : Owner → List CanRxMsg := fun _ => []

inductive ReceiveStep (Owner : Type) where
  /-- A filter has accepted a frame. What the controller has no place for is lost there. -/
  | accepted (msg : CanRxMsg)
  | rxInterrupt
  | read (owner : Owner)
  /-- The next access of a thread in `read`. -/
  | proceed (owner : Owner)

namespace Reception

variable {Owner : Type} [DecidableEq Owner]

/-- One turn of the loop of `RxIRQHandler`, up to its `break`. -/
def receive (self : Reception Owner) (msg : CanRxMsg) (f : CAN_Filter Owner) :
    Bool × Reception Owner :=
  let (stored, fifo) := (self.RxFifo f.owner).put rxFifoLen msg
  (stored, { self with
    RxFifo := Function.update self.RxFifo f.owner fifo
    taken := self.taken ++ [{
      msg := msg
      owner := f.owner
      stored := stored
      unread := ((self.RxFifo f.owner).unread rxFifoLen).length }] })

variable (hwFilterOrder : Memory (Option (CAN_Filter Owner)))

/-- The loop of `RxIRQHandler` over the frames in the controller; nothing where it would follow a
null pointer. -/
def receiveAll : List CanRxMsg → Reception Owner → Option (Reception Owner)
  | [], self => some { self with FIFO0 := [] }
  | msg :: rest, self =>
    match hwFilterOrder msg.FMI with
    | none => none
    | some f =>
      let (stored, next) := { self with FIFO0 := rest }.receive msg f
      if stored then receiveAll rest next else some next

def RxIRQHandler (self : Reception Owner) : Option (Reception Owner) :=
  receiveAll hwFilterOrder self.FIFO0 self

def proceed (self : Reception Owner) (owner : Owner) :
    GetAt CanRxMsg → Reception Owner
  | .returning _ => { self with reader := Function.update self.reader owner none }
  | place =>
    { self with
      RxFifo := Function.update self.RxFifo owner (place.step rxFifoLen (self.RxFifo owner)).1
      reader :=
        Function.update self.reader owner (some (place.step rxFifoLen (self.RxFifo owner)).2)
      gotten := Function.update self.gotten owner (self.gotten owner ++ place.releases) }

def step (self : Reception Owner) : ReceiveStep Owner → Option (Reception Owner)
  | .accepted msg =>
    if self.FIFO0.length < 3 then
      some { self with FIFO0 := self.FIFO0 ++ [msg], arrived := self.arrived ++ [msg] }
    else some self
  | .rxInterrupt => self.RxIRQHandler hwFilterOrder
  | .read owner =>
    match self.reader owner with
    | none => some { self with reader := Function.update self.reader owner (some .called) }
    | some _ => none
  | .proceed owner => (self.reader owner).map (self.proceed owner)

/-- The frames in the fifo of the owner, and those that were. -/
def storedFor (taken : List (TakenFrame Owner)) (owner : Owner) : List CanRxMsg :=
  (taken.filter fun t => t.stored && t.owner = owner).map TakenFrame.msg

/-! ### The state between two steps -/

structure Invariant (reception : Reception Owner) : Prop where
  arrived_eq : reception.arrived = reception.taken.map TakenFrame.msg ++ reception.FIFO0
  carries : ∀ owner, (reception.RxFifo owner).Carries rxFifoLen (storedFor reception.taken owner)
    (reception.gotten owner)
  knows : ∀ owner place, reception.reader owner = some place →
    place.Knows rxFifoLen (storedFor reception.taken owner) (reception.gotten owner)
  stored_iff : ∀ t ∈ reception.taken, t.stored = true ↔ t.unread < rxFifoLen - 1
  owned : ∀ t ∈ reception.taken, ∃ f, hwFilterOrder t.msg.FMI = some f ∧ f.owner = t.owner

variable {hwFilterOrder} {self next : Reception Owner}

theorem initial_invariant (buffer : Owner → Memory CanRxMsg) :
    Invariant hwFilterOrder { RxFifo := fun owner => { buffer := buffer owner } } where
  arrived_eq := rfl
  carries owner := Fifo.carries_initial (by decide) (buffer owner)
  knows _ _ hreader := by cases hreader
  stored_iff _ ht := by cases ht
  owned _ ht := by cases ht

theorem storedFor_concat (taken : List (TakenFrame Owner)) (t : TakenFrame Owner)
    (owner : Owner) : storedFor (taken ++ [t]) owner =
      storedFor taken owner ++ if t.stored = true ∧ t.owner = owner then [t.msg] else [] := by
  rw [storedFor, List.filter_append, List.map_append, List.filter_singleton, storedFor]
  cases t.stored <;> by_cases howner : t.owner = owner <;> simp [howner]

/-- One turn of the loop of the interrupt. -/
theorem Invariant.receive {msg : CanRxMsg} {rest : List CanRxMsg} {f : CAN_Filter Owner}
    (h : Invariant hwFilterOrder self) (hfirst : self.FIFO0 = msg :: rest)
    (hmatched : hwFilterOrder msg.FMI = some f) :
    Invariant hwFilterOrder ({ self with FIFO0 := rest }.receive msg f).2 := by
  have hcarries := h.carries f.owner
  have hunread := congrArg List.length hcarries.unread_eq
  have hle := hcarries.length_le
  rw [List.length_drop] at hunread
  -- what both outcomes of `put` have in common
  have hrest : ∀ (stored : Bool) (fifo : Fifo CanRxMsg),
      (stored = true ↔ ((self.RxFifo f.owner).unread rxFifoLen).length < rxFifoLen - 1) →
      fifo.Carries rxFifoLen (storedFor self.taken f.owner ++ if stored then [msg] else [])
        (self.gotten f.owner) →
      Invariant hwFilterOrder { self with
        FIFO0 := rest
        RxFifo := Function.update self.RxFifo f.owner fifo
        taken := self.taken ++ [{
          msg := msg
          owner := f.owner
          stored := stored
          unread := ((self.RxFifo f.owner).unread rxFifoLen).length }] } := by
    intro stored fifo hstored hfifo
    constructor
    case arrived_eq => simp [h.arrived_eq, hfirst]
    case carries =>
      intro owner
      dsimp only
      rw [storedFor_concat]
      by_cases howner : owner = f.owner
      · subst howner
        simpa using hfifo
      · have hother : f.owner ≠ owner := Ne.symm howner
        simpa [howner, hother] using h.carries owner
    case knows =>
      intro owner place hreader
      apply (h.knows owner place hreader).stable
      rw [storedFor_concat]
      exact List.prefix_append _ _
    case stored_iff =>
      intro t ht
      rcases List.mem_append.mp ht with ht | ht
      · exact h.stored_iff t ht
      · rw [List.mem_singleton.mp ht]
        exact hstored
    case owned =>
      intro t ht
      rcases List.mem_append.mp ht with ht | ht
      · exact h.owned t ht
      · rw [List.mem_singleton.mp ht]
        exact ⟨f, hmatched, rfl⟩
  rw [Reception.receive]
  rcases hcarries.put_cases msg with ⟨hfull, hput⟩ | ⟨hroom, hput, hstores⟩
  · dsimp only
    rw [hput]
    apply hrest
    · simp only [Bool.false_eq_true, false_iff]
      omega
    · rw [if_neg Bool.false_ne_true, List.append_nil]
      exact hcarries.of_eq rfl rfl rfl
  · dsimp only
    rw [hput]
    apply hrest
    · simp only [true_iff]
      omega
    · exact hstores

theorem Invariant.receiveAll (pending : List CanRxMsg) {self next : Reception Owner}
    (h : Invariant hwFilterOrder self) (hpending : self.FIFO0 = pending)
    (hnext : receiveAll hwFilterOrder pending self = some next) :
    Invariant hwFilterOrder next := by
  induction pending generalizing self with
  | nil =>
    cases hnext
    exact ⟨by rw [h.arrived_eq, hpending], h.carries, h.knows, h.stored_iff, h.owned⟩
  | cons msg rest ih =>
    rw [Reception.receiveAll] at hnext
    split at hnext
    · cases hnext
    · next f hmatched =>
      have hreceive := h.receive hpending hmatched
      dsimp only at hnext
      split at hnext
      · exact ih hreceive rfl hnext
      · cases hnext
        exact hreceive

/-- A thread moves on in `read`. -/
theorem Invariant.moved (h : Invariant hwFilterOrder self) {owner : Owner} {fifo : Fifo CanRxMsg}
    {place : Option (GetAt CanRxMsg)} {gotten : List CanRxMsg}
    (hfifo : fifo.Carries rxFifoLen (storedFor self.taken owner) gotten)
    (hplace : ∀ place', place = some place' →
      place'.Knows rxFifoLen (storedFor self.taken owner) gotten) :
    Invariant hwFilterOrder { self with
      RxFifo := Function.update self.RxFifo owner fifo
      reader := Function.update self.reader owner place
      gotten := Function.update self.gotten owner gotten } where
  arrived_eq := h.arrived_eq
  carries other := by
    by_cases hother : other = owner
    · subst hother
      simpa using hfifo
    · simpa [hother] using h.carries other
  knows other place' hreader := by
    by_cases hother : other = owner
    · subst hother
      simp only [Function.update_self] at hreader ⊢
      exact hplace place' hreader
    · simp only [Function.update_of_ne hother] at hreader ⊢
      exact h.knows other place' hreader
  stored_iff := h.stored_iff
  owned := h.owned

/-- It enters it or leaves it. -/
theorem Invariant.placed (h : Invariant hwFilterOrder self) {owner : Owner}
    {place : Option (GetAt CanRxMsg)}
    (hplace : ∀ place', place = some place' →
      place'.Knows rxFifoLen (storedFor self.taken owner) (self.gotten owner)) :
    Invariant hwFilterOrder { self with reader := Function.update self.reader owner place } := by
  simpa using h.moved (h.carries owner) hplace

theorem Invariant.proceed {owner : Owner} {place : GetAt CanRxMsg}
    (h : Invariant hwFilterOrder self) (hreader : self.reader owner = some place) :
    Invariant hwFilterOrder (self.proceed owner place) := by
  obtain ⟨hcarries, hknows⟩ := (h.knows owner place hreader).step (h.carries owner)
  have hplace : ∀ place', some (place.step rxFifoLen (self.RxFifo owner)).2 = some place' →
      place'.Knows rxFifoLen (storedFor self.taken owner)
        (self.gotten owner ++ place.releases) := by
    rintro _ ⟨⟩
    exact hknows
  have hmoved := h.moved hcarries hplace
  cases place with
  | returning => exact h.placed nofun
  | called | comparing | rejecting | addressing | fetching | advancing | releasing => exact hmoved

theorem Invariant.step {action : ReceiveStep Owner} (h : Invariant hwFilterOrder self)
    (hstep : self.step hwFilterOrder action = some next) : Invariant hwFilterOrder next := by
  cases action with
  | accepted msg =>
    rw [Reception.step] at hstep
    split at hstep
    · cases hstep
      exact ⟨by simp [h.arrived_eq], h.carries, h.knows, h.stored_iff, h.owned⟩
    · cases hstep
      exact h
  | rxInterrupt => exact h.receiveAll _ rfl hstep
  | read owner =>
    rw [Reception.step] at hstep
    split at hstep
    · cases hstep
      apply h.placed
      rintro _ ⟨⟩
      trivial
    · cases hstep
  | proceed owner =>
    obtain ⟨place, hplace, rfl⟩ := Option.map_eq_some_iff.mp hstep
    exact h.proceed hplace

theorem receiveAll_arrived (pending : List CanRxMsg) {self next : Reception Owner}
    (hnext : receiveAll hwFilterOrder pending self = some next) :
    next.arrived = self.arrived := by
  induction pending generalizing self with
  | nil =>
    cases hnext
    rfl
  | cons msg rest ih =>
    rw [Reception.receiveAll] at hnext
    split at hnext
    · cases hnext
    · dsimp only at hnext
      split at hnext
      · have hrest := ih hnext
        exact hrest
      · cases hnext
        rfl

/-- Only what a filter accepts arrives. -/
theorem mem_arrived_of_step {action : ReceiveStep Owner}
    (hstep : self.step hwFilterOrder action = some next) {msg : CanRxMsg}
    (hmsg : msg ∈ next.arrived) : msg ∈ self.arrived ∨ action = .accepted msg := by
  cases action with
  | accepted other =>
    rw [Reception.step] at hstep
    split at hstep
    · cases hstep
      rcases List.mem_append.mp hmsg with hmsg | hmsg
      · exact .inl hmsg
      · rw [List.mem_singleton.mp hmsg]
        exact .inr rfl
    · cases hstep
      exact .inl hmsg
  | rxInterrupt =>
    rw [receiveAll_arrived _ hstep] at hmsg
    exact .inl hmsg
  | read owner =>
    rw [Reception.step] at hstep
    split at hstep <;> cases hstep
    exact .inl hmsg
  | proceed owner =>
    obtain ⟨place, -, rfl⟩ := Option.map_eq_some_iff.mp hstep
    cases place <;> exact .inl hmsg

theorem mem_arrived_of_run {actions : List (ReceiveStep Owner)} {start : Reception Owner}
    (hstart : start.arrived = [])
    (hrun : run (Reception.step hwFilterOrder) start actions = some self) {msg : CanRxMsg}
    (hmsg : msg ∈ self.arrived) : .accepted msg ∈ actions := by
  have halong : Along (Reception.step hwFilterOrder) (fun _ action => action ∈ actions) start
      actions := along_of_forall (fun _ haction _ => haction) start
  have hkeeps : ∀ (now : Reception Owner) action next,
      (∀ msg ∈ now.arrived, .accepted msg ∈ actions) → action ∈ actions →
      now.step hwFilterOrder action = some next →
      ∀ msg ∈ next.arrived, .accepted msg ∈ actions := by
    intro now action next h haction hstep msg hmsg
    rcases mem_arrived_of_step hstep hmsg with hmsg | rfl
    · exact h msg hmsg
    · exact haction
  exact run_invariant_along hkeeps (by simp [hstart]) halong hrun msg hmsg

theorem exists_receiveAll (pending : List CanRxMsg) (self : Reception Owner)
    (hmatched : ∀ msg ∈ pending, ∃ f, hwFilterOrder msg.FMI = some f) :
    ∃ next, receiveAll hwFilterOrder pending self = some next := by
  induction pending generalizing self with
  | nil => exact ⟨_, rfl⟩
  | cons msg rest ih =>
    obtain ⟨f, hf⟩ := hmatched msg List.mem_cons_self
    have hrest : ∀ msg ∈ rest, ∃ f, hwFilterOrder msg.FMI = some f :=
      fun other hother => hmatched other (List.mem_cons_of_mem _ hother)
    rw [receiveAll, hf]
    dsimp only
    split
    · exact ih _ hrest
    · exact ⟨_, rfl⟩

theorem Invariant.mem_arrived (h : Invariant hwFilterOrder self) {owner : Owner} {msg : CanRxMsg}
    (hmsg : msg ∈ self.gotten owner) :
    msg ∈ self.arrived ∧ ∃ f, hwFilterOrder msg.FMI = some f ∧ f.owner = owner := by
  have hcarries := h.carries owner
  obtain ⟨later, hlater⟩ := hcarries.gotten_prefix
  have hstoredFor : msg ∈ storedFor self.taken owner := by
    rw [← hlater]
    exact List.mem_append_left later hmsg
  obtain ⟨t, ht, rfl⟩ := List.mem_map.mp hstoredFor
  obtain ⟨htaken, hstored⟩ := List.mem_filter.mp ht
  simp only [Bool.and_eq_true, decide_eq_true_eq] at hstored
  rw [h.arrived_eq, ← hstored.2]
  exact ⟨List.mem_append_left _ (List.mem_map_of_mem htaken), h.owned t htaken⟩

/-- What a thread has read came by a filter of its `HAL_CAN`. -/
theorem Invariant.exists_filter {controllers : Controllers Owner} {canIdx : CAN_IDX}
    (h : Invariant (controllers.CANs canIdx).hwFilterOrder self) (hsetUp : SetUp controllers canIdx)
    (hgranted : banksNeeded (controllers.CANs canIdx).filters ≤ numBanks)
    (hnames : controllers.NamesMatched canIdx)
    (harrived : ∀ msg ∈ self.arrived, msg.FMI < (controllers.hwFilters canIdx).length)
    {owner : Owner} {msg : CanRxMsg} (hmsg : msg ∈ self.gotten owner) :
    ∃ f ∈ (controllers.CANs canIdx).filters, f.owner = owner ∧
      (controllers.hwFilters canIdx)[msg.FMI]? = some f.hwFilter := by
  obtain ⟨hmem, f, hf, howner⟩ := h.mem_arrived hmsg
  obtain ⟨other, hother, horder, hfilter⟩ :=
    hsetUp.exists_filter hgranted hnames (harrived msg hmem)
  obtain rfl : f = other := Option.some.inj (hf.symm.trans horder)
  exact ⟨f, hother, howner, hfilter⟩

/-- Once the filters of a controller are set up such that `hwFilterOrder` names them, the interrupt
follows no null pointer, and what a thread reads has been accepted by a filter of its `HAL_CAN`. -/
theorem received_by_owner {calls : List (IncomingFilter Owner)} {controllers : Controllers Owner}
    (hcalls : run Controllers.step {} calls = some controllers) (canIdx : CAN_IDX)
    (hgranted : banksNeeded (controllers.CANs canIdx).filters ≤ numBanks)
    (hnames : controllers.NamesMatched canIdx) {buffer : Owner → Memory CanRxMsg}
    {actions : List (ReceiveStep Owner)}
    (hrun : run (Reception.step (controllers.CANs canIdx).hwFilterOrder)
      { RxFifo := fun owner => { buffer := buffer owner } } actions = some self)
    (haccepted : ∀ msg, .accepted msg ∈ actions →
      msg.FMI < (controllers.hwFilters canIdx).length) :
    (∃ next, self.RxIRQHandler (controllers.CANs canIdx).hwFilterOrder = some next) ∧
      ∀ owner, ∀ msg ∈ self.gotten owner, ∃ f ∈ (controllers.CANs canIdx).filters,
        f.owner = owner ∧ (controllers.hwFilters canIdx)[msg.FMI]? = some f.hwFilter := by
  have h : Invariant (controllers.CANs canIdx).hwFilterOrder self :=
    run_invariant (fun _ _ _ h hstep => h.step hstep) (initial_invariant buffer) hrun
  have harrived : ∀ msg ∈ self.arrived, msg.FMI < (controllers.hwFilters canIdx).length :=
    fun msg hmsg => haccepted msg (mem_arrived_of_run rfl hrun hmsg)
  have hsetUp := setUp_of_run hcalls canIdx
  constructor
  · apply exists_receiveAll
    intro msg hmsg
    have hmem : msg ∈ self.arrived := by simp [h.arrived_eq, hmsg]
    obtain ⟨f, -, hf, -⟩ := hsetUp.exists_filter hgranted hnames (harrived msg hmem)
    exact ⟨f, hf⟩
  · intro owner msg hmsg
    exact h.exists_filter hsetUp hgranted hnames harrived hmsg

/-- A frame with the identifier of the only filter. -/
def matchedFrame : CanRxMsg := ⟨0x12, false, false, 1, [7, 0, 0, 0, 0, 0, 0, 0], 0⟩

def oneFilter : Controllers Unit :=
  (({} : Controllers Unit).addIncomingFilter (standardFilter 0x12)).2

theorem run_oneFilter : run Controllers.step {} [standardFilter 0x12] = some oneFilter := rfl

theorem namesMatched_oneFilter : oneFilter.NamesMatched .CAN_IDX0 :=
  ((setUp_of_run run_oneFilter .CAN_IDX0).namesMatched_iff_matches (by decide)).mpr
    fun _ hbank => matches_of_few (by decide) (by decide) hbank

/-- Two frames, of which a thread reads one. -/
def readOnce : List (ReceiveStep Unit) :=
  [.accepted matchedFrame, .accepted matchedFrame, .rxInterrupt, .read ()] ++
    List.replicate 7 (.proceed ())

theorem received_by_owner_readOnce : ∃ final,
    run (Reception.step (oneFilter.CANs .CAN_IDX0).hwFilterOrder)
      { RxFifo := fun _ => { buffer := fun _ => matchedFrame } } readOnce = some final ∧
      ∀ msg ∈ final.gotten (), ∃ f ∈ (oneFilter.CANs .CAN_IDX0).filters, f.owner = () ∧
        (oneFilter.hwFilters .CAN_IDX0)[msg.FMI]? = some f.hwFilter := by
  have haccepted : ∀ msg, .accepted msg ∈ readOnce →
      msg.FMI < (oneFilter.hwFilters .CAN_IDX0).length := by
    intro msg hmsg
    obtain rfl : msg = matchedFrame := by simpa [readOnce] using hmsg
    decide
  exact ⟨_, rfl, (@received_by_owner Unit _ _ _ _ run_oneFilter .CAN_IDX0 (by decide)
    namesMatched_oneFilter (fun _ _ => matchedFrame) readOnce rfl haccepted).2 ()⟩

end Reception

end Rodos.BareMetal.CanFilters
