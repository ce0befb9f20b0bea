import Rodos.BareMetal.HalCanFilterLayout
import Rodos.Library.Runs

/-! `addIncomingFilter`. The two controllers share the filter banks, and each call sets up those of
its controller anew. -/
namespace Rodos.BareMetal.CanFilters
open Library

inductive CAN_IDX where
  | CAN_IDX0
  | CAN_IDX1
deriving DecidableEq

/-- The first half of the banks belongs to the first controller. -/
def CAN_IDX.bankOffset : CAN_IDX → Nat
  | .CAN_IDX0 => 0
  | .CAN_IDX1 => numBanks

theorem CAN_IDX.bankOffset_apart {canIdx other : CAN_IDX} (hother : canIdx ≠ other) :
    canIdx.bankOffset + numBanks ≤ other.bankOffset ∨
      other.bankOffset + numBanks ≤ canIdx.bankOffset := by
  cases canIdx <;> cases other
  case CAN_IDX0.CAN_IDX1 => exact .inl (Nat.le_refl _)
  case CAN_IDX1.CAN_IDX0 => exact .inr (Nat.le_refl _)
  all_goals exact absurd rfl hother

variable {Owner : Type}

/-- The receiving side of a controller; `numFilters` is the length of `filters`. -/
structure CAN_Ctrl (Owner : Type) where
  filters : List (CAN_Filter Owner) := []
  hwFilterOrder : Memory (Option (CAN_Filter Owner)) := fun _ => none

structure Controllers (Owner : Type) where
  CANs : CAN_IDX → CAN_Ctrl Owner := fun _ => {}
  sFilterRegister : Memory FilterBank := fun _ => {}

/-- A call of `addIncomingFilter`; `filterInit` is what the stack holds where `setupFilters` has its
variable. -/
structure IncomingFilter (Owner : Type) where
  canIdx : CAN_IDX
  owner : Owner
  ID : BitVec 32
  IDMask : BitVec 32
  extID : Bool
  rtr : Bool
  filterInit : CAN_FilterInitTypeDef

def IncomingFilter.filter (call : IncomingFilter Owner) : CAN_Filter Owner where
  canID := (if call.extID then call.ID else call.ID <<< 18) &&& 0x1FFFFFFF
  canIDmask := (if call.extID then call.IDMask else call.IDMask <<< 18) &&& 0x1FFFFFFF
  isExtID := call.extID
  rtr := call.rtr
  owner := call.owner

namespace Controllers

def set (self : Controllers Owner) (canIdx : CAN_IDX) (filters : List (CAN_Filter Owner))
    (setup : FilterSetup Owner) : Controllers Owner where
  CANs := Function.update self.CANs canIdx ⟨filters, setup.hwFilterOrder⟩
  sFilterRegister := setup.sFilterRegister

def addIncomingFilter (self : Controllers Owner) (call : IncomingFilter Owner) :
    Bool × Controllers Owner :=
  let ctrl := self.CANs call.canIdx
  if MAX_FILTERS ≤ ctrl.filters.length then (false, self)
  else
    let filters := ctrl.filters ++ [call.filter]
    let start : FilterSetup Owner := {
      filterInit := call.filterInit
      hwFilterOrder := ctrl.hwFilterOrder
      sFilterRegister := self.sFilterRegister }
    match start.setupFilters call.canIdx.bankOffset filters with
    | .ok setup => (true, self.set call.canIdx filters setup)
    | .error setup => (false, self.set call.canIdx filters setup)

def step (self : Controllers Owner) (call : IncomingFilter Owner) : Option (Controllers Owner) :=
  some (self.addIncomingFilter call).2

end Controllers

/-- The banks that a controller has for its filters. -/
def banksOfCtrl (filters : List (CAN_Filter Owner)) : List (Bank Owner) :=
  (layout filters).take numBanks

/-- The registers and `hwFilterOrder` agree with the filters of the controller. -/
structure SetUp (controllers : Controllers Owner) (canIdx : CAN_IDX) : Prop where
  filters_le : (controllers.CANs canIdx).filters.length ≤ MAX_FILTERS
  incoming : ∀ f ∈ (controllers.CANs canIdx).filters,
    ∃ call : IncomingFilter Owner, f = call.filter
  registers : ∀ number bank,
    (banksOfCtrl (controllers.CANs canIdx).filters)[number]? = some bank →
      controllers.sFilterRegister (canIdx.bankOffset + number) = bank.configured
  inactive : ∀ number < numBanks, banksNeeded (controllers.CANs canIdx).filters ≤ number →
    (controllers.sFilterRegister (canIdx.bankOffset + number)).isActive = false
  order : (controllers.CANs canIdx).hwFilterOrder.front
      (listed (banksOfCtrl (controllers.CANs canIdx).filters)).length =
    (listed (banksOfCtrl (controllers.CANs canIdx).filters)).map some
  bounded : ∀ index, MAX_FILTERS + 5 ≤ index →
    (controllers.CANs canIdx).hwFilterOrder index = none

theorem setUp_initial (canIdx : CAN_IDX) : SetUp ({} : Controllers Owner) canIdx where
  filters_le := Nat.zero_le _
  incoming := by simp
  registers := by simp [banksOfCtrl, layout, banksOf, Packing.pack, Packing.finish]
  inactive _ _ _ := rfl
  order := rfl
  bounded _ _ := rfl

/-- What `setupFilters` has done, whatever it returns. -/
structure Leaves (bankOffset : Nat) (start : FilterSetup Owner)
    (filters : List (CAN_Filter Owner)) (setup : FilterSetup Owner) : Prop
    extends Loaded bankOffset start (banksOfCtrl filters) setup where
  filterIndex_le : setup.filterIndex ≤ filters.length + 5

theorem setupFilters_leaves (bankOffset : Nat) (filters : List (CAN_Filter Owner))
    {start : FilterSetup Owner} (hstart : Settled bankOffset start [] start) :
    Outcome (fun setup => banksNeeded filters ≤ numBanks ∧ Leaves bankOffset start filters setup)
      (fun setup => numBanks < banksNeeded filters ∧ Leaves bankOffset start filters setup)
      (start.setupFilters bankOffset filters) := by
  have hlisted := length_listed_layout filters
  rw [← length_layout]
  apply (FilterSetup.setupFilters_outcome bankOffset filters hstart).mono
  · intro setup h
    have htake : banksOfCtrl filters = layout filters := List.take_of_length_le h.fits
    refine ⟨h.fits, ?_, ?_⟩
    · rw [htake]
      exact h.toLoaded
    · rw [h.filterIndex_eq]
      exact hlisted
  · rintro setup ⟨banks, more, hlayout, hmore, hlength, hloaded, hindex⟩
    have htake : banksOfCtrl filters = banks := by
      rw [banksOfCtrl, hlayout, ← hlength, List.take_left]
    have hpositive := List.length_pos_iff.mpr hmore
    refine ⟨?_, ?_, hindex.trans hlisted⟩
    · rw [hlayout, List.length_append]
      omega
    · rw [htake]
      exact hloaded

section step

variable {self : Controllers Owner} {canIdx : CAN_IDX} {call : IncomingFilter Owner}

theorem settled_start (bankOffset : Nat) (filterInit : CAN_FilterInitTypeDef)
    (hwFilterOrder : Memory (Option (CAN_Filter Owner))) (sFilterRegister : Memory FilterBank) :
    Settled bankOffset { filterInit, hwFilterOrder, sFilterRegister } []
      { filterInit, hwFilterOrder, sFilterRegister } where
  fits := Nat.zero_le _
  registers := by simp
  otherBanks _ _ := rfl
  listed_le := Nat.le_refl _
  order := rfl
  behind _ _ := rfl
  bank_eq := rfl
  filterIndex_eq := rfl

/-- The call sets up the banks of its controller. -/
theorem SetUp.set (h : SetUp self call.canIdx)
    (hroom : (self.CANs call.canIdx).filters.length < MAX_FILTERS) {setup : FilterSetup Owner}
    (hleaves : Leaves call.canIdx.bankOffset {
      filterInit := call.filterInit
      hwFilterOrder := (self.CANs call.canIdx).hwFilterOrder
      sFilterRegister := self.sFilterRegister }
      ((self.CANs call.canIdx).filters ++ [call.filter]) setup) :
    SetUp (self.set call.canIdx ((self.CANs call.canIdx).filters ++ [call.filter]) setup)
      call.canIdx := by
  have hctrl : (self.set call.canIdx ((self.CANs call.canIdx).filters ++ [call.filter])
      setup).CANs call.canIdx =
        ⟨(self.CANs call.canIdx).filters ++ [call.filter], setup.hwFilterOrder⟩ :=
    Function.update_self ..
  have hgrows := banksNeeded_le_append (self.CANs call.canIdx).filters [call.filter]
  have hindex := hleaves.filterIndex_le
  rw [List.length_append, List.length_singleton] at hindex
  constructor
  case filters_le =>
    rw [hctrl, List.length_append, List.length_singleton]
    exact hroom
  case incoming =>
    rw [hctrl]
    intro f hf
    rcases List.mem_append.mp hf with hf | hf
    · exact h.incoming f hf
    · exact ⟨call, List.mem_singleton.mp hf⟩
  case registers =>
    rw [hctrl]
    exact hleaves.registers
  case inactive =>
    intro number hnumber hneeded
    rw [hctrl] at hneeded
    have hbehind : (banksOfCtrl ((self.CANs call.canIdx).filters ++ [call.filter])).length ≤
        number := by
      rw [banksOfCtrl, List.length_take, length_layout]
      exact (Nat.min_le_right _ _).trans hneeded
    have hsame := hleaves.otherBanks (call.canIdx.bankOffset + number)
      (.inr (Nat.add_le_add_left hbehind _))
    exact (congrArg FilterBank.isActive hsame).trans
      (h.inactive number hnumber (hgrows.trans hneeded))
  case order =>
    rw [hctrl]
    exact hleaves.order
  case bounded =>
    intro index hbound
    rw [hctrl]
    exact (hleaves.behind index (by omega)).trans (h.bounded index hbound)

/-- And leaves the other controller alone. -/
theorem SetUp.set_other (h : SetUp self canIdx) (hother : canIdx ≠ call.canIdx)
    {start setup : FilterSetup Owner} {filters : List (CAN_Filter Owner)}
    (hstart : start.sFilterRegister = self.sFilterRegister)
    (hleaves : Leaves call.canIdx.bankOffset start filters setup) :
    SetUp (self.set call.canIdx filters setup) canIdx := by
  have hctrl : (self.set call.canIdx filters setup).CANs canIdx = self.CANs canIdx :=
    Function.update_of_ne hother ..
  have hsame : ∀ number < numBanks,
      setup.sFilterRegister (canIdx.bankOffset + number) =
        self.sFilterRegister (canIdx.bankOffset + number) := by
    intro number hnumber
    have hfits := hleaves.fits
    have hapart := CAN_IDX.bankOffset_apart hother
    rw [← hstart]
    apply hleaves.otherBanks
    omega
  constructor
  case filters_le =>
    rw [hctrl]
    exact h.filters_le
  case incoming =>
    rw [hctrl]
    exact h.incoming
  case registers =>
    rw [hctrl]
    intro number bank hbank
    have hnumber := (List.getElem?_eq_some_iff.mp hbank).1
    rw [banksOfCtrl, List.length_take] at hnumber
    exact (hsame number (Nat.lt_of_lt_of_le hnumber (Nat.min_le_left _ _))).trans
      (h.registers number bank hbank)
  case inactive =>
    rw [hctrl]
    intro number hnumber hneeded
    exact (congrArg FilterBank.isActive (hsame number hnumber)).trans
      (h.inactive number hnumber hneeded)
  case order =>
    rw [hctrl]
    exact h.order
  case bounded =>
    rw [hctrl]
    exact h.bounded

/-- What a call returns, and what it leaves. -/
theorem addIncomingFilter_cases (self : Controllers Owner) (call : IncomingFilter Owner) :
    MAX_FILTERS ≤ (self.CANs call.canIdx).filters.length ∧
        self.addIncomingFilter call = (false, self) ∨
      (self.CANs call.canIdx).filters.length < MAX_FILTERS ∧ ∃ setup,
        Leaves call.canIdx.bankOffset {
          filterInit := call.filterInit
          hwFilterOrder := (self.CANs call.canIdx).hwFilterOrder
          sFilterRegister := self.sFilterRegister }
          ((self.CANs call.canIdx).filters ++ [call.filter]) setup ∧
        self.addIncomingFilter call =
          (decide (banksNeeded ((self.CANs call.canIdx).filters ++ [call.filter]) ≤ numBanks),
            self.set call.canIdx ((self.CANs call.canIdx).filters ++ [call.filter]) setup) := by
  rw [Controllers.addIncomingFilter]
  by_cases hfull : MAX_FILTERS ≤ (self.CANs call.canIdx).filters.length
  · exact .inl ⟨hfull, if_pos hfull⟩
  · have hleaves := setupFilters_leaves call.canIdx.bankOffset
      ((self.CANs call.canIdx).filters ++ [call.filter])
      (settled_start call.canIdx.bankOffset call.filterInit
        (self.CANs call.canIdx).hwFilterOrder self.sFilterRegister)
    refine .inr ⟨Nat.not_le.mp hfull, ?_⟩
    dsimp only
    rw [if_neg hfull]
    split
    · next setup hsetup =>
      rw [hsetup] at hleaves
      exact ⟨setup, hleaves.2, by rw [decide_eq_true hleaves.1]⟩
    · next setup hsetup =>
      rw [hsetup] at hleaves
      exact ⟨setup, hleaves.2, by rw [decide_eq_false (Nat.not_le.mpr hleaves.1)]⟩

theorem SetUp.step (h : ∀ canIdx, SetUp self canIdx) (call : IncomingFilter Owner)
    (canIdx : CAN_IDX) : SetUp (self.addIncomingFilter call).2 canIdx := by
  rcases addIncomingFilter_cases self call with ⟨-, hcall⟩ | ⟨hroom, setup, hleaves, hcall⟩
  · rw [hcall]
    exact h canIdx
  · rw [hcall]
    by_cases hown : canIdx = call.canIdx
    · subst hown
      exact (h _).set hroom hleaves
    · exact (h canIdx).set_other hown rfl hleaves

end step

theorem setUp_of_run {calls : List (IncomingFilter Owner)} {controllers : Controllers Owner}
    (hrun : run Controllers.step {} calls = some controllers) (canIdx : CAN_IDX) :
    SetUp controllers canIdx := by
  have hkeeps : ∀ (now : Controllers Owner) call next, (∀ canIdx, SetUp now canIdx) →
      now.step call = some next → ∀ canIdx, SetUp next canIdx := by
    intro now call next h hstep
    rw [← Option.some.inj hstep]
    exact SetUp.step h call
  exact run_invariant hkeeps setUp_initial hrun canIdx

/-- A filter is granted exactly when the controller has banks for all its filters, and
`setupFilters` stays inside `hwFilterOrder` also when it is not. -/
theorem granted_iff {calls : List (IncomingFilter Owner)} {controllers : Controllers Owner}
    (hrun : run Controllers.step {} calls = some controllers) (call : IncomingFilter Owner) :
    ((controllers.addIncomingFilter call).1 = true ↔
      (controllers.CANs call.canIdx).filters.length < MAX_FILTERS ∧
        banksNeeded ((controllers.CANs call.canIdx).filters ++ [call.filter]) ≤ numBanks) ∧
      ∀ canIdx index, MAX_FILTERS + 5 ≤ index →
        ((controllers.addIncomingFilter call).2.CANs canIdx).hwFilterOrder index = none := by
  have h := SetUp.step (setUp_of_run hrun) call
  refine ⟨?_, fun canIdx => (h canIdx).bounded⟩
  rcases addIncomingFilter_cases controllers call with ⟨hfull, hcall⟩ | ⟨hroom, setup, -, hcall⟩
  · rw [hcall]
    simp [Nat.not_lt.mpr hfull]
  · rw [hcall]
    simp [hroom]

/-- An identifier without a mask, for the first controller. -/
def standardFilter (ID : BitVec 32) : IncomingFilter Unit where
  canIdx := .CAN_IDX0
  owner := ()
  ID := ID
  IDMask := 0
  extID := false
  rtr := false
  filterInit := ⟨0, 0, 0, 0, 0, .IdMask, .scale16bit⟩

theorem granted_iff_secondFilter :
    ((({} : Controllers Unit).addIncomingFilter (standardFilter 0x12)).2.addIncomingFilter
      (standardFilter 0x34)).1 = true := by
  have hrun : run Controllers.step {} [standardFilter 0x12] =
      some (({} : Controllers Unit).addIncomingFilter (standardFilter 0x12)).2 := rfl
  exact (granted_iff hrun (standardFilter 0x34)).1.mpr ⟨by decide, by decide⟩

end Rodos.BareMetal.CanFilters
