import Rodos.BareMetal.HalCanReceive

/-! Which frames the filters accept, in terms of what `addIncomingFilter` was called with. -/
namespace Rodos.BareMetal.CanFilters
open Library

/-- The identifier register of a received frame, as `CAN_Receive` reads it. -/
structure RxIdentifier where
  canID : BitVec 32
  IDE : Bool
  RTR : Bool

def CAN_Receive (RIR : BitVec 32) : RxIdentifier where
  canID :=
    if RIR.getLsbD 2 then (0x1FFFFFFF : BitVec 32) &&& RIR >>> 3
    else (0x7FF : BitVec 32) &&& RIR >>> 21
  IDE := RIR.getLsbD 2
  RTR := RIR.getLsbD 1

/-- What a filter of 16 bits sees of the register: the upper bits of the identifier, `RTR`, `IDE`
and three more bits of an extended identifier. -/
def rir16 (RIR : BitVec 32) : BitVec 16 :=
  RIR.extractLsb' 21 11 ++ RIR.extractLsb' 1 1 ++ RIR.extractLsb' 2 1 ++ RIR.extractLsb' 18 3

/-- A bit counts where the mask has a one. -/
def HwFilter.accepts (RIR : BitVec 32) : HwFilter → Bool
  | .mask32 id mask => RIR &&& mask == id &&& mask
  | .list32 id => RIR == id
  | .mask16 id mask => rir16 RIR &&& mask == id &&& mask
  | .list16 id => rir16 RIR == id

/-! ### The constants of `setupFilters`, bit by bit -/

theorem getLsbD_lowerHalf : ∀ bit < 32, (0xFFFF : BitVec 32).getLsbD bit = decide (bit < 16) := by
  decide

theorem getLsbD_upperBits : ∀ bit < 32,
    ((0xFFE0 : Nat) : BitVec 32).getLsbD bit = decide (5 ≤ bit ∧ bit < 16) := by decide

theorem getLsbD_lowBits : ∀ bit < 32, (0b111 : BitVec 32).getLsbD bit = decide (bit < 3) := by
  decide

theorem getLsbD_extID : ∀ bit < 32, (0x1FFFFFFF : BitVec 32).getLsbD bit = decide (bit < 29) := by
  decide

theorem getLsbD_upperMask : ∀ bit < 32,
    (0x1FFF <<< 16 : BitVec 32).getLsbD bit = decide (16 ≤ bit ∧ bit < 29) := by decide

theorem getLsbD_stdID : ∀ bit < 32, (0x7FF : BitVec 32).getLsbD bit = decide (bit < 11) := by
  decide

theorem getLsbD_ide32 : ∀ bit < 32, (0b100 : BitVec 32).getLsbD bit = decide (bit = 2) := by
  decide

theorem getLsbD_rtr32 : ∀ bit < 16, (0b10 : BitVec 16).getLsbD bit = decide (bit = 1) := by
  decide

theorem getLsbD_ide16 : ∀ bit < 16, (0b1000 : BitVec 16).getLsbD bit = decide (bit = 3) := by
  decide

theorem getLsbD_rtr16 : ∀ bit < 16, (0b10000 : BitVec 16).getLsbD bit = decide (bit = 4) := by
  decide

theorem getLsbD_ite_or {w bit : Nat} (word flag : BitVec w) (condition : Bool) :
    (if condition then word ||| flag else word).getLsbD bit =
      (word.getLsbD bit || condition && flag.getLsbD bit) := by
  cases condition <;> simp

variable {Owner : Type} (f : CAN_Filter Owner)

namespace CAN_Filter

theorem getLsbD_idLow32 {bit : Nat} (hbit : bit < 16) : f.idLow32.getLsbD bit =
    (decide (bit = 1) && f.rtr || decide (bit = 2) ||
      decide (3 ≤ bit) && f.canID.getLsbD (bit - 3)) := by
  have hwide : bit < 32 := by omega
  rw [idLow32, getLsbD_ite_or, getLsbD_rtr32 bit hbit, BitVec.getLsbD_setWidth,
    BitVec.getLsbD_or, BitVec.getLsbD_and, BitVec.getLsbD_shiftLeft, getLsbD_lowerHalf bit hwide,
    getLsbD_ide32 bit hwide]
  grind

theorem getLsbD_idHigh32 {bit : Nat} (hbit : bit < 16) :
    f.idHigh32.getLsbD bit = f.canID.getLsbD (bit + 13) := by
  have hwide : bit < 32 := by omega
  rw [idHigh32, BitVec.getLsbD_setWidth, BitVec.getLsbD_and, BitVec.getLsbD_ushiftRight,
    getLsbD_lowerHalf bit hwide]
  grind

theorem getLsbD_maskLow32 {bit : Nat} (hbit : bit < 16) :
    f.maskLow32.getLsbD bit = !(decide (3 ≤ bit) && f.canIDmask.getLsbD (bit - 3)) := by
  have hwide : bit < 32 := by omega
  rw [maskLow32, BitVec.getLsbD_setWidth, BitVec.getLsbD_not, BitVec.getLsbD_and,
    BitVec.getLsbD_shiftLeft, getLsbD_lowerHalf bit hwide]
  grind

theorem getLsbD_maskHigh32 {bit : Nat} (hbit : bit < 16) :
    f.maskHigh32.getLsbD bit = !f.canIDmask.getLsbD (bit + 13) := by
  have hwide : bit < 32 := by omega
  rw [maskHigh32, BitVec.getLsbD_setWidth, BitVec.getLsbD_not, BitVec.getLsbD_and,
    BitVec.getLsbD_ushiftRight, getLsbD_lowerHalf bit hwide]
  grind

theorem getLsbD_id16 {bit : Nat} (hbit : bit < 16) : f.id16.getLsbD bit =
    (decide (bit < 3) && f.canID.getLsbD (bit + 15) || decide (bit = 3) && f.isExtID ||
      decide (bit = 4) && f.rtr || decide (5 ≤ bit) && f.canID.getLsbD (bit + 13)) := by
  have hwide : bit < 32 := by omega
  rw [id16, getLsbD_ite_or, getLsbD_ite_or, getLsbD_ide16 bit hbit, getLsbD_rtr16 bit hbit,
    BitVec.getLsbD_setWidth, BitVec.getLsbD_or, BitVec.getLsbD_and, BitVec.getLsbD_and,
    BitVec.getLsbD_ushiftRight, BitVec.getLsbD_ushiftRight, getLsbD_upperBits bit hwide,
    getLsbD_lowBits bit hwide]
  grind

theorem getLsbD_mask16 {bit : Nat} (hbit : bit < 16) : f.mask16.getLsbD bit =
    !(decide (bit < 3) && f.canIDmask.getLsbD (bit + 15) ||
      decide (5 ≤ bit) && f.canIDmask.getLsbD (bit + 13)) := by
  have hwide : bit < 32 := by omega
  rw [mask16, BitVec.getLsbD_setWidth, BitVec.getLsbD_not, BitVec.getLsbD_or, BitVec.getLsbD_and,
    BitVec.getLsbD_and, BitVec.getLsbD_ushiftRight, BitVec.getLsbD_ushiftRight,
    getLsbD_upperBits bit hwide, getLsbD_lowBits bit hwide]
  grind

theorem getLsbD_id32 {bit : Nat} (hbit : bit < 32) : (f.idHigh32 ++ f.idLow32).getLsbD bit =
    (decide (bit = 1) && f.rtr || decide (bit = 2) ||
      decide (3 ≤ bit) && f.canID.getLsbD (bit - 3)) := by
  rw [BitVec.getLsbD_append]
  by_cases hlow : bit < 16
  · rw [if_pos hlow]
    exact f.getLsbD_idLow32 hlow
  · have hhigh := f.getLsbD_idHigh32 (show bit - 16 < 16 by omega)
    grind

theorem getLsbD_mask32 {bit : Nat} (hbit : bit < 32) :
    (f.maskHigh32 ++ f.maskLow32).getLsbD bit =
      !(decide (3 ≤ bit) && f.canIDmask.getLsbD (bit - 3)) := by
  rw [BitVec.getLsbD_append]
  by_cases hlow : bit < 16
  · rw [if_pos hlow]
    exact f.getLsbD_maskLow32 hlow
  · have hhigh := f.getLsbD_maskHigh32 (show bit - 16 < 16 by omega)
    grind

end CAN_Filter

theorem getLsbD_rir16 (RIR : BitVec 32) {bit : Nat} (hbit : bit < 16) : (rir16 RIR).getLsbD bit =
    if bit < 3 then RIR.getLsbD (bit + 18)
    else if bit = 3 then RIR.getLsbD 2
    else if bit = 4 then RIR.getLsbD 1
    else RIR.getLsbD (bit + 16) := by
  rw [rir16, BitVec.getLsbD_append, BitVec.getLsbD_append, BitVec.getLsbD_append,
    BitVec.getLsbD_extractLsb', BitVec.getLsbD_extractLsb', BitVec.getLsbD_extractLsb',
    BitVec.getLsbD_extractLsb']
  grind

theorem and_eq_and_iff {w : Nat} {word id mask : BitVec w} : word &&& mask = id &&& mask ↔
    ∀ bit < w, mask.getLsbD bit = true → word.getLsbD bit = id.getLsbD bit := by
  constructor
  · intro heq bit _ hmask
    have hbits := congrArg (·.getLsbD bit) heq
    simpa [hmask] using hbits
  · intro hbits
    apply BitVec.eq_of_getLsbD_eq
    intro bit hbit
    rw [BitVec.getLsbD_and, BitVec.getLsbD_and]
    cases hmask : mask.getLsbD bit
    · rw [Bool.and_false, Bool.and_false]
    · rw [hbits bit hbit hmask]

section accepts

variable {call : IncomingFilter Owner} {RIR : BitVec 32}

theorem getLsbD_canID_extended (hext : call.extID = true) {bit : Nat} (hbit : bit < 29) :
    call.filter.canID.getLsbD bit = call.ID.getLsbD bit ∧
      call.filter.canIDmask.getLsbD bit = call.IDMask.getLsbD bit := by
  have hwide : bit < 32 := by omega
  simp only [IncomingFilter.filter, hext, if_true]
  rw [BitVec.getLsbD_and, BitVec.getLsbD_and, getLsbD_extID bit hwide]
  simp [hbit]

theorem getLsbD_canID_standard (hstd : call.extID = false) {bit : Nat} (hbit : bit < 29) :
    call.filter.canID.getLsbD bit = (decide (18 ≤ bit) && call.ID.getLsbD (bit - 18)) ∧
      call.filter.canIDmask.getLsbD bit =
        (decide (18 ≤ bit) && call.IDMask.getLsbD (bit - 18)) := by
  have hwide : bit < 32 := by omega
  simp only [IncomingFilter.filter, hstd, Bool.false_eq_true, if_false]
  rw [BitVec.getLsbD_and, BitVec.getLsbD_and, getLsbD_extID bit hwide, BitVec.getLsbD_shiftLeft,
    BitVec.getLsbD_shiftLeft]
  grind

theorem accepts_extended_iff (hext : f.isExtID = true) : f.hwFilter.accepts RIR = true ↔
    ∀ bit < 32, (3 ≤ bit → f.canIDmask.getLsbD (bit - 3) = false) →
      RIR.getLsbD bit = (decide (bit = 1) && f.rtr || decide (bit = 2) ||
        decide (3 ≤ bit) && f.canID.getLsbD (bit - 3)) := by
  have hwide : f.is16Bit = false := by rw [f.is16Bit_eq, hext, Bool.not_true]
  have hid : ∀ bit < 32, _ := fun bit hbit => f.getLsbD_id32 hbit
  cases hsingle : f.isSingleIdWhen32
  case false =>
    have hfilter : f.hwFilter =
        .mask32 (f.idHigh32 ++ f.idLow32) (f.maskHigh32 ++ f.maskLow32) := by
      rw [CAN_Filter.hwFilter, CAN_Filter.kind, hwide, hsingle]
    rw [hfilter, HwFilter.accepts, beq_iff_eq, and_eq_and_iff]
    have hmask : ∀ bit < 32, _ := fun bit hbit => f.getLsbD_mask32 hbit
    grind
  case true =>
    have hfilter : f.hwFilter = .list32 (f.idHigh32 ++ f.idLow32) := by
      rw [CAN_Filter.hwFilter, CAN_Filter.kind, hwide, hsingle]
    have hzero : f.canIDmask = 0 := beq_iff_eq.mp hsingle
    rw [hfilter, HwFilter.accepts, beq_iff_eq, BitVec.eq_of_getLsbD_eq_iff]
    simp only [hzero, BitVec.ofNat_eq_ofNat, BitVec.getLsbD_zero]
    grind

/-- Without a mask there is none for the low bits either: a standard identifier has none. -/
theorem accepts_standard_iff (hstd : call.extID = false) :
    call.filter.hwFilter.accepts RIR = true ↔
      ∀ bit < 16, (5 ≤ bit → call.filter.canIDmask.getLsbD (bit + 13) = false) →
        (rir16 RIR).getLsbD bit = call.filter.id16.getLsbD bit := by
  have hnarrow : call.filter.is16Bit = true := by
    rw [call.filter.is16Bit_eq]
    exact congrArg Bool.not hstd
  have hlow : ∀ bit < 3, call.filter.canIDmask.getLsbD (bit + 15) = false := by
    intro bit hbit
    rw [(getLsbD_canID_standard hstd (show bit + 15 < 29 by omega)).2]
    grind
  cases hsingle : call.filter.isSingleIdWhen16
  case false =>
    have hfilter : call.filter.hwFilter = .mask16 call.filter.id16 call.filter.mask16 := by
      rw [CAN_Filter.hwFilter, CAN_Filter.kind, hnarrow, hsingle]
    rw [hfilter, HwFilter.accepts, beq_iff_eq, and_eq_and_iff]
    have hmask : ∀ bit < 16, _ := fun bit hbit => call.filter.getLsbD_mask16 hbit
    grind
  case true =>
    have hfilter : call.filter.hwFilter = .list16 call.filter.id16 := by
      rw [CAN_Filter.hwFilter, CAN_Filter.kind, hnarrow, hsingle]
    have hhigh : ∀ bit < 16, 5 ≤ bit → call.filter.canIDmask.getLsbD (bit + 13) = false := by
      intro bit hbit hupper
      have hzero := congrArg (·.getLsbD (bit + 13)) (beq_iff_eq.mp hsingle)
      rw [BitVec.getLsbD_and, getLsbD_upperMask (bit + 13) (by omega)] at hzero
      simpa [show 16 ≤ bit + 13 ∧ bit + 13 < 29 by omega] using hzero
    rw [hfilter, HwFilter.accepts, beq_iff_eq, BitVec.eq_of_getLsbD_eq_iff]
    grind

theorem getLsbD_received_extended (hext : RIR.getLsbD 2 = true) {bit : Nat} (hbit : bit < 29) :
    (CAN_Receive RIR).canID.getLsbD bit = RIR.getLsbD (bit + 3) := by
  rw [CAN_Receive, if_pos hext, BitVec.getLsbD_and, BitVec.getLsbD_ushiftRight,
    getLsbD_extID bit (by omega)]
  grind

theorem getLsbD_received_standard (hstd : RIR.getLsbD 2 = false) {bit : Nat} (hbit : bit < 11) :
    (CAN_Receive RIR).canID.getLsbD bit = RIR.getLsbD (bit + 21) := by
  rw [CAN_Receive, hstd, if_neg Bool.false_ne_true, BitVec.getLsbD_and,
    BitVec.getLsbD_ushiftRight, getLsbD_stdID bit (by omega)]
  grind

/-- A filter accepts the frames that it was asked for, in every bit that its mask does not leave
out. The lowest bit of the register is reserved, and a standard frame has the bits of an extended
identifier clear. -/
theorem accepts_iff_asked_for (hreserved : RIR.getLsbD 0 = false)
    (hstandard : RIR.getLsbD 2 = false → ∀ bit, 3 ≤ bit → bit < 21 → RIR.getLsbD bit = false) :
    call.filter.hwFilter.accepts RIR = true ↔
      (CAN_Receive RIR).IDE = call.extID ∧ (CAN_Receive RIR).RTR = call.rtr ∧
        ∀ bit < if call.extID then 29 else 11, call.IDMask.getLsbD bit = false →
          (CAN_Receive RIR).canID.getLsbD bit = call.ID.getLsbD bit := by
  have hIDE : (CAN_Receive RIR).IDE = RIR.getLsbD 2 := rfl
  have hRTR : (CAN_Receive RIR).RTR = RIR.getLsbD 1 := rfl
  have hrtr : call.filter.rtr = call.rtr := rfl
  rw [hIDE, hRTR]
  cases hext : call.extID
  case false =>
    have hisExtID : call.filter.isExtID = false := hext
    rw [accepts_standard_iff hext, if_neg Bool.false_ne_true]
    constructor
    · intro h
      have hide := h 3 (by omega) (by omega)
      have hremote := h 4 (by omega) (by omega)
      rw [getLsbD_rir16 RIR (by omega), CAN_Filter.getLsbD_id16 _ (by omega)] at hide hremote
      replace hide : RIR.getLsbD 2 = false := by simpa [hisExtID] using hide
      replace hremote : RIR.getLsbD 1 = call.rtr := by simpa [hrtr] using hremote
      refine ⟨hide, hremote, ?_⟩
      intro bit hbit hmask
      obtain ⟨hid, hidmask⟩ := getLsbD_canID_standard hext (show bit + 18 < 29 by omega)
      have hupper := h (bit + 5) (by omega) (by grind)
      rw [getLsbD_rir16 RIR (by omega), CAN_Filter.getLsbD_id16 _ (by omega)] at hupper
      rw [getLsbD_received_standard hide hbit]
      grind
    · rintro ⟨hide, hremote, h⟩ bit hbit hmask
      rw [getLsbD_rir16 RIR hbit, CAN_Filter.getLsbD_id16 _ hbit]
      by_cases hupper : 5 ≤ bit
      · obtain ⟨hid, hidmask⟩ := getLsbD_canID_standard hext (show bit + 13 < 29 by omega)
        have hbits := h (bit - 5) (by omega) (by grind)
        rw [getLsbD_received_standard hide (by omega)] at hbits
        grind
      · by_cases hlower : bit < 3
        · have hclear := hstandard hide (bit + 18) (by omega) (by omega)
          have hid := (getLsbD_canID_standard hext (show bit + 15 < 29 by omega)).1
          grind
        · obtain rfl | rfl : bit = 3 ∨ bit = 4 := by omega
          · simpa [hisExtID] using hide
          · simpa [hrtr] using hremote
  case true =>
    rw [accepts_extended_iff _ hext, if_pos rfl]
    constructor
    · intro h
      have hide : RIR.getLsbD 2 = true := by simpa using h 2 (by omega) (by omega)
      have hremote : RIR.getLsbD 1 = call.rtr := by simpa [hrtr] using h 1 (by omega) (by omega)
      refine ⟨hide, hremote, ?_⟩
      intro bit hbit hmask
      obtain ⟨hid, hidmask⟩ := getLsbD_canID_extended hext hbit
      rw [getLsbD_received_extended hide hbit, h (bit + 3) (by omega) (by grind)]
      grind
    · rintro ⟨hide, hremote, h⟩ bit hbit hmask
      by_cases hupper : 3 ≤ bit
      · obtain ⟨hid, hidmask⟩ := getLsbD_canID_extended hext (show bit - 3 < 29 by omega)
        have hbits := h (bit - 3) (by omega) (by grind)
        rw [getLsbD_received_extended hide (by omega)] at hbits
        grind
      · obtain rfl | rfl | rfl : bit = 0 ∨ bit = 1 ∨ bit = 2 := by omega
        · simpa using hreserved
        · simpa [hrtr] using hremote
        · simpa using hide

end accepts

/-! ### From a call to what a thread reads -/

theorem exists_call_of_mem_filters {calls : List (IncomingFilter Owner)}
    {controllers : Controllers Owner}
    (hcalls : run Controllers.step {} calls = some controllers) {canIdx : CAN_IDX}
    {f : CAN_Filter Owner} (hf : f ∈ (controllers.CANs canIdx).filters) :
    ∃ call ∈ calls, call.canIdx = canIdx ∧ call.filter = f := by
  have halong : Along Controllers.step (fun _ call => call ∈ calls) {} calls :=
    along_of_forall (fun _ hcall _ => hcall) _
  have hkeeps : ∀ (now : Controllers Owner) call next,
      (∀ canIdx, ∀ f ∈ (now.CANs canIdx).filters,
        ∃ call ∈ calls, call.canIdx = canIdx ∧ call.filter = f) → call ∈ calls →
      now.step call = some next → ∀ canIdx, ∀ f ∈ (next.CANs canIdx).filters,
        ∃ call ∈ calls, call.canIdx = canIdx ∧ call.filter = f := by
    intro now call next h hcall hstep canIdx f hf
    rw [← Option.some.inj hstep] at hf
    rcases addIncomingFilter_cases now call with ⟨-, hsame⟩ | ⟨-, setup, -, hset⟩
    · rw [hsame] at hf
      exact h canIdx f hf
    · rw [hset] at hf
      dsimp only [Controllers.set] at hf
      by_cases hown : canIdx = call.canIdx
      · subst hown
        rw [Function.update_self] at hf
        rcases List.mem_append.mp hf with hf | hf
        · exact h _ f hf
        · exact ⟨call, hcall, rfl, (List.mem_singleton.mp hf).symm⟩
      · rw [Function.update_of_ne hown] at hf
        exact h canIdx f hf
  exact run_invariant_along hkeeps (fun _ _ hmem => by cases hmem) halong hcalls canIdx f hf

/-- A frame with this register comes in by the filter that its `FMI` names. -/
structure ComesBy (hwFilters : List HwFilter) (msg : CanRxMsg) (RIR : BitVec 32) : Prop where
  canID_eq : msg.canID = (CAN_Receive RIR).canID
  IDE_eq : msg.IDE = (CAN_Receive RIR).IDE
  RTR_eq : msg.RTR = (CAN_Receive RIR).RTR
  accepted : ∃ filter, hwFilters[msg.FMI]? = some filter ∧ filter.accepts RIR = true
  reserved : RIR.getLsbD 0 = false
  standard : RIR.getLsbD 2 = false → ∀ bit, 3 ≤ bit → bit < 21 → RIR.getLsbD bit = false

/-- Where `hwFilterOrder` names the filters, a `HAL_CAN` receives only what one of its own calls of
`addIncomingFilter` has asked for. -/
theorem received_as_asked_for [DecidableEq Owner] {calls : List (IncomingFilter Owner)}
    {controllers : Controllers Owner}
    (hcalls : run Controllers.step {} calls = some controllers) (canIdx : CAN_IDX)
    (hgranted : banksNeeded (controllers.CANs canIdx).filters ≤ numBanks)
    (hnames : controllers.NamesMatched canIdx) {buffer : Owner → Memory CanRxMsg}
    {actions : List (ReceiveStep Owner)} {reception : Reception Owner}
    (hrun : run (Reception.step (controllers.CANs canIdx).hwFilterOrder)
      { RxFifo := fun owner => { buffer := buffer owner } } actions = some reception)
    (haccepted : ∀ msg, .accepted msg ∈ actions →
      ∃ RIR, ComesBy (controllers.hwFilters canIdx) msg RIR) :
    ∀ owner, ∀ msg ∈ reception.gotten owner, ∃ call ∈ calls,
      call.canIdx = canIdx ∧ call.owner = owner ∧ msg.IDE = call.extID ∧ msg.RTR = call.rtr ∧
        ∀ bit < if call.extID then 29 else 11, call.IDMask.getLsbD bit = false →
          msg.canID.getLsbD bit = call.ID.getLsbD bit := by
  have h : reception.Invariant (controllers.CANs canIdx).hwFilterOrder :=
    run_invariant (fun _ _ _ h hstep => h.step hstep) (Reception.initial_invariant buffer) hrun
  have hcomes : ∀ msg ∈ reception.arrived, ∃ RIR, ComesBy (controllers.hwFilters canIdx) msg RIR :=
    fun msg hmsg => haccepted msg (Reception.mem_arrived_of_run rfl hrun hmsg)
  have harrived : ∀ msg ∈ reception.arrived,
      msg.FMI < (controllers.hwFilters canIdx).length := by
    intro msg hmsg
    obtain ⟨RIR, hRIR⟩ := hcomes msg hmsg
    obtain ⟨filter, hfilter, -⟩ := hRIR.accepted
    exact (List.getElem?_eq_some_iff.mp hfilter).1
  intro owner msg hmsg
  obtain ⟨f, hf, howner, hnamed⟩ :=
    h.exists_filter (setUp_of_run hcalls canIdx) hgranted hnames harrived hmsg
  obtain ⟨call, hcall, hcanIdx, rfl⟩ := exists_call_of_mem_filters hcalls hf
  obtain ⟨RIR, hRIR⟩ := hcomes msg (h.mem_arrived hmsg).1
  obtain ⟨filter, hfilter, haccepts⟩ := hRIR.accepted
  obtain rfl : call.filter.hwFilter = filter := Option.some.inj (hnamed.symm.trans hfilter)
  rw [hRIR.IDE_eq, hRIR.RTR_eq, hRIR.canID_eq]
  exact ⟨call, hcall, hcanIdx, howner,
    (accepts_iff_asked_for hRIR.reserved hRIR.standard).mp haccepts⟩

theorem received_as_asked_for_readOnce : ∃ final,
    run (Reception.step (Reception.oneFilter.CANs .CAN_IDX0).hwFilterOrder)
      { RxFifo := fun _ => { buffer := fun _ => Reception.matchedFrame } } Reception.readOnce =
        some final ∧
      ∀ msg ∈ final.gotten (), ∃ call ∈ [standardFilter 0x12], call.canIdx = .CAN_IDX0 ∧
        call.owner = () ∧ msg.IDE = call.extID ∧ msg.RTR = call.rtr ∧
          ∀ bit < if call.extID then 29 else 11, call.IDMask.getLsbD bit = false →
            msg.canID.getLsbD bit = call.ID.getLsbD bit := by
  have haccepted : ∀ msg, .accepted msg ∈ Reception.readOnce →
      ∃ RIR, ComesBy (Reception.oneFilter.hwFilters .CAN_IDX0) msg RIR := by
    intro msg hmsg
    obtain rfl : msg = Reception.matchedFrame := by simpa [Reception.readOnce] using hmsg
    exact ⟨0x2400000, rfl, rfl, rfl, ⟨_, rfl, by decide⟩, by decide, by decide⟩
  exact ⟨_, rfl, @received_as_asked_for Unit _ _ _ Reception.run_oneFilter .CAN_IDX0 (by decide)
    Reception.namesMatched_oneFilter (fun _ _ => Reception.matchedFrame) Reception.readOnce _ rfl
    haccepted ()⟩

end Rodos.BareMetal.CanFilters
