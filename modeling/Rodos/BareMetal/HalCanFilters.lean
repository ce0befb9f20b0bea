import Rodos.Library.Memory
import Rodos.Library.Packing
import Mathlib.Data.BitVec

/-! The filters of `HAL_CAN` of the STM32F4: `setupFilters` distributes what the program wants to
receive over the filter banks of a controller. -/
namespace Rodos.BareMetal.CanFilters
open Library

def MAX_FILTERS : Nat := 20

/-- Both controllers have as many. -/
def numBanks : Nat := 14

/-- `owner` is the `HAL_CAN` that wants to receive. -/
structure CAN_Filter (Owner : Type) where
  canID : BitVec 32
  canIDmask : BitVec 32
  isExtID : Bool
  rtr : Bool
  owner : Owner

inductive FilterMode where
  | IdMask
  | IdList

inductive FilterScale where
  | scale16bit
  | scale32bit

structure CAN_FilterInitTypeDef where
  CAN_FilterIdLow : BitVec 16
  CAN_FilterIdHigh : BitVec 16
  CAN_FilterMaskIdLow : BitVec 16
  CAN_FilterMaskIdHigh : BitVec 16
  CAN_FilterNumber : Nat
  CAN_FilterMode : FilterMode
  CAN_FilterScale : FilterScale

/-- What `FA1R`, `FM1R` and `FS1R` say about a bank, and its own two registers. -/
structure FilterBank where
  isActive : Bool := false
  mode : FilterMode := .IdMask
  scale : FilterScale := .scale16bit
  FR1 : BitVec 32 := 0
  FR2 : BitVec 32 := 0

/-- The bank as `CAN_FilterInit` leaves it. -/
def CAN_FilterInitTypeDef.configured (init : CAN_FilterInitTypeDef) : FilterBank where
  isActive := true
  mode := init.CAN_FilterMode
  scale := init.CAN_FilterScale
  FR1 := match init.CAN_FilterScale with
    | .scale16bit =>
      (0xFFFF &&& init.CAN_FilterMaskIdLow.setWidth 32) <<< 16 |||
        (0xFFFF &&& init.CAN_FilterIdLow.setWidth 32)
    | .scale32bit =>
      (0xFFFF &&& init.CAN_FilterIdHigh.setWidth 32) <<< 16 |||
        (0xFFFF &&& init.CAN_FilterIdLow.setWidth 32)
  FR2 := match init.CAN_FilterScale with
    | .scale16bit =>
      (0xFFFF &&& init.CAN_FilterMaskIdHigh.setWidth 32) <<< 16 |||
        (0xFFFF &&& init.CAN_FilterIdHigh.setWidth 32)
    | .scale32bit =>
      (0xFFFF &&& init.CAN_FilterMaskIdHigh.setWidth 32) <<< 16 |||
        (0xFFFF &&& init.CAN_FilterMaskIdLow.setWidth 32)

namespace CAN_Filter

variable {Owner : Type} (f : CAN_Filter Owner)

/-- `IS_16BIT`. -/
def is16Bit : Bool := !f.isExtID || ~~~(f.canIDmask &&& 0x7FFF) == 0

/-- `IS_SINGLEID_WHEN32`. -/
def isSingleIdWhen32 : Bool := f.canIDmask == 0

/-- `IS_SINGLEID_WHEN16`. -/
def isSingleIdWhen16 : Bool := f.canIDmask &&& (0x1FFF <<< 16) == 0

def idLow32 : BitVec 16 :=
  let word := ((f.canID <<< 3 &&& 0xFFFF) ||| 0b100).setWidth 16
  if f.rtr then word ||| 0b10 else word

def idHigh32 : BitVec 16 := (f.canID >>> 13 &&& 0xFFFF).setWidth 16

def maskLow32 : BitVec 16 := (~~~(f.canIDmask <<< 3 &&& 0xFFFF)).setWidth 16

def maskHigh32 : BitVec 16 := (~~~(f.canIDmask >>> 13 &&& 0xFFFF)).setWidth 16

def id16 : BitVec 16 :=
  let word := ((f.canID >>> 13 &&& 0xFFE0) ||| (f.canID >>> 15 &&& 0b111)).setWidth 16
  let word := if f.isExtID then word ||| 0b1000 else word
  if f.rtr then word ||| 0b10000 else word

def mask16 : BitVec 16 :=
  (~~~((f.canIDmask >>> 13 &&& 0xFFE0) ||| (f.canIDmask >>> 15 &&& 0b111))).setWidth 16

end CAN_Filter

/-- The variables of `setupFilters`, and what it writes: `hwFilterOrder` holds the filters that its
pointers point at. -/
structure FilterSetup (Owner : Type) where
  bank : Nat := 0
  subBank : Nat := 0
  filterIndex : Nat := 0
  filterInit : CAN_FilterInitTypeDef
  hwFilterOrder : Memory (Option (CAN_Filter Owner))
  sFilterRegister : Memory FilterBank

namespace FilterSetup

variable {Owner : Type}

def CAN_FilterInit (self : FilterSetup Owner) : FilterSetup Owner :=
  { self with
    sFilterRegister :=
      self.sFilterRegister.store self.filterInit.CAN_FilterNumber self.filterInit.configured }

/-- The next bank, or `return false`. -/
def takeBank (bankOffset : Nat) (self : FilterSetup Owner) :
    Except (FilterSetup Owner) (FilterSetup Owner) :=
  if numBanks ≤ self.bank then .error self
  else .ok { self with
    filterInit := { self.filterInit with CAN_FilterNumber := bankOffset + self.bank }
    bank := self.bank + 1 }

def addToOrder (self : FilterSetup Owner) (f : CAN_Filter Owner) : FilterSetup Owner :=
  { self with
    hwFilterOrder := self.hwFilterOrder.store self.filterIndex (some f)
    filterIndex := self.filterIndex + 1 }

def repeatInOrder (self : FilterSetup Owner) : FilterSetup Owner :=
  { self with
    hwFilterOrder :=
      self.hwFilterOrder.store self.filterIndex (self.hwFilterOrder (self.filterIndex - 1))
    filterIndex := self.filterIndex + 1 }

/-- The body of the first loop. -/
def addMask32 (bankOffset : Nat) (self : FilterSetup Owner) (f : CAN_Filter Owner) :
    Except (FilterSetup Owner) (FilterSetup Owner) :=
  if !f.is16Bit && !f.isSingleIdWhen32 then do
    let self ← self.takeBank bankOffset
    let self := { self with
      filterInit := { self.filterInit with
        CAN_FilterIdLow := f.idLow32
        CAN_FilterIdHigh := f.idHigh32
        CAN_FilterMaskIdLow := f.maskLow32
        CAN_FilterMaskIdHigh := f.maskHigh32 } }
    pure (self.addToOrder f).CAN_FilterInit
  else pure self

def addList32 (bankOffset : Nat) (self : FilterSetup Owner) (f : CAN_Filter Owner) :
    Except (FilterSetup Owner) (FilterSetup Owner) :=
  if !f.is16Bit && f.isSingleIdWhen32 then
    if self.subBank = 0 then
      let self := { self with
        filterInit := { self.filterInit with
          CAN_FilterIdLow := f.idLow32
          CAN_FilterIdHigh := f.idHigh32 }
        subBank := self.subBank + 1 }
      pure (self.addToOrder f)
    else do
      let self := { self with
        filterInit := { self.filterInit with
          CAN_FilterMaskIdLow := f.idLow32
          CAN_FilterMaskIdHigh := f.idHigh32 } }
      let self ← self.takeBank bankOffset
      pure { (self.addToOrder f).CAN_FilterInit with subBank := 0 }
  else pure self

/-- Behind the loops that put two filters into a bank. -/
def finishPair (bankOffset : Nat) (self : FilterSetup Owner) :
    Except (FilterSetup Owner) (FilterSetup Owner) :=
  if self.subBank = 1 then do
    let self := { self with
      filterInit := { self.filterInit with
        CAN_FilterMaskIdLow := self.filterInit.CAN_FilterIdLow
        CAN_FilterMaskIdHigh := self.filterInit.CAN_FilterIdHigh } }
    let self ← self.repeatInOrder.takeBank bankOffset
    pure self.CAN_FilterInit
  else pure self

def addMask16 (bankOffset : Nat) (self : FilterSetup Owner) (f : CAN_Filter Owner) :
    Except (FilterSetup Owner) (FilterSetup Owner) :=
  if f.is16Bit && !f.isSingleIdWhen16 then
    if self.subBank = 0 then
      let self := { self with
        filterInit := { self.filterInit with
          CAN_FilterIdLow := f.id16
          CAN_FilterIdHigh := f.mask16 }
        subBank := self.subBank + 1 }
      pure (self.addToOrder f)
    else do
      let self := { self with
        filterInit := { self.filterInit with
          CAN_FilterMaskIdLow := f.id16
          CAN_FilterMaskIdHigh := f.mask16 } }
      let self ← (self.addToOrder f).takeBank bankOffset
      pure { self.CAN_FilterInit with subBank := 0 }
  else pure self

def addList16 (bankOffset : Nat) (self : FilterSetup Owner) (f : CAN_Filter Owner) :
    Except (FilterSetup Owner) (FilterSetup Owner) :=
  if f.is16Bit && f.isSingleIdWhen16 then do
    let filterInit ← match self.subBank with
      | 0 => .ok { self.filterInit with CAN_FilterIdLow := f.id16 }
      | 1 => .ok { self.filterInit with CAN_FilterIdHigh := f.id16 }
      | 2 => .ok { self.filterInit with CAN_FilterMaskIdLow := f.id16 }
      | 3 => .ok { self.filterInit with CAN_FilterMaskIdHigh := f.id16 }
      | _ => .error self
    let self := { self with filterInit := filterInit, subBank := self.subBank + 1 }.addToOrder f
    if self.subBank = 4 then
      let self ← self.takeBank bankOffset
      pure { self.CAN_FilterInit with subBank := 0 }
    else pure self
  else pure self

/-- The body of the loop that fills the last bank. -/
def padList16 (self : FilterSetup Owner) : FilterSetup Owner :=
  let filterInit := match self.subBank with
    | 1 => { self.filterInit with CAN_FilterIdHigh := self.filterInit.CAN_FilterIdLow }
    | 2 => { self.filterInit with CAN_FilterMaskIdLow := self.filterInit.CAN_FilterIdHigh }
    | 3 => { self.filterInit with CAN_FilterMaskIdHigh := self.filterInit.CAN_FilterMaskIdLow }
    | _ => self.filterInit
  { self.repeatInOrder with filterInit := filterInit, subBank := self.subBank + 1 }

def finishList16 (bankOffset : Nat) (self : FilterSetup Owner) :
    Except (FilterSetup Owner) (FilterSetup Owner) :=
  if 0 < self.subBank then do
    let self ← (padList16^[4 - self.subBank] self).takeBank bankOffset
    pure self.CAN_FilterInit
  else pure self

/-- For the next loop. -/
def withMode (self : FilterSetup Owner) (mode : FilterMode) (scale : FilterScale) :
    FilterSetup Owner :=
  { self with
    filterInit := { self.filterInit with CAN_FilterMode := mode, CAN_FilterScale := scale }
    subBank := 0 }

/-- Either result is the state in which it returns, `ok` with `true`. -/
def setupFilters (bankOffset : Nat) (filters : List (CAN_Filter Owner))
    (self : FilterSetup Owner) : Except (FilterSetup Owner) (FilterSetup Owner) := do
  let self ← filters.foldlM (addMask32 bankOffset) (self.withMode .IdMask .scale32bit)
  let self ← filters.foldlM (addList32 bankOffset) (self.withMode .IdList .scale32bit)
  let self ← self.finishPair bankOffset
  let self ← filters.foldlM (addMask16 bankOffset) (self.withMode .IdMask .scale16bit)
  let self ← self.finishPair bankOffset
  let self ← filters.foldlM (addList16 bankOffset) (self.withMode .IdList .scale16bit)
  self.finishList16 bankOffset

end FilterSetup

end Rodos.BareMetal.CanFilters
