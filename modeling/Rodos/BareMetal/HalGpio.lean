import Mathlib.Data.BitVec
import Mathlib.Logic.Function.Basic
import Mathlib.Tactic.Common

/-! The GPIO driver of the STM32H7: groups of pins that lie next to each other in one port. -/
namespace Rodos.BareMetal.HalGpio

/-- `GPIO_000` to `GPIO_167`. The other enumerators have no port. -/
abbrev GPIO_PIN := Fin 168

inductive Port where
  | GPIOA | GPIOB | GPIOC | GPIOD | GPIOE | GPIOF | GPIOG | GPIOH | GPIOI | GPIOJ | GPIOK
deriving DecidableEq

/-- The output data and the input data of a port, one bit for each pin. -/
structure GPIO_TypeDef where
  ODR : BitVec 16
  IDR : BitVec 16
deriving DecidableEq

abbrev Ports := Port → GPIO_TypeDef

/-! ### The vendor's functions -/

inductive GPIO_PinState where
  | GPIO_PIN_RESET
  | GPIO_PIN_SET
deriving DecidableEq

def HAL_GPIO_ReadPin (GPIOx : GPIO_TypeDef) (GPIO_Pin : BitVec 16) : GPIO_PinState :=
  if GPIOx.IDR &&& GPIO_Pin ≠ 0 then .GPIO_PIN_SET else .GPIO_PIN_RESET

/-- Through the register `BSRR`, which sets or resets the output data of the pins written to it. -/
def HAL_GPIO_WritePin (GPIOx : GPIO_TypeDef) (GPIO_Pin : BitVec 16) :
    GPIO_PinState → GPIO_TypeDef
  | .GPIO_PIN_SET => { GPIOx with ODR := GPIOx.ODR ||| GPIO_Pin }
  | .GPIO_PIN_RESET => { GPIOx with ODR := GPIOx.ODR &&& ~~~GPIO_Pin }

/-! ### The driver -/

def getSTM32Port (pinIdx : GPIO_PIN) : Port :=
  if pinIdx.val < 16 then .GPIOA
  else if pinIdx.val < 32 then .GPIOB
  else if pinIdx.val < 48 then .GPIOC
  else if pinIdx.val < 64 then .GPIOD
  else if pinIdx.val < 80 then .GPIOE
  else if pinIdx.val < 96 then .GPIOF
  else if pinIdx.val < 112 then .GPIOG
  else if pinIdx.val < 128 then .GPIOH
  else if pinIdx.val < 144 then .GPIOI
  else if pinIdx.val < 160 then .GPIOJ
  else .GPIOK

def getSTM32Pin (pinIdx : GPIO_PIN) : BitVec 16 := BitVec.ofNat 16 (1 <<< (pinIdx.val &&& 0xF))

structure HW_HAL_GPIO where
  pinIdx : GPIO_PIN
  numOfPins : Nat
  isOutput : Bool
  pinMask : BitVec 16 := 0
  PORT : Port

namespace HW_HAL_GPIO

/-- A group that exceeds its port is cut off at the last pin of the port. -/
def setPinMask (self : HW_HAL_GPIO) : HW_HAL_GPIO :=
  if self.numOfPins + (self.pinIdx.val &&& 0xF) > 16 then
    { self with pinMask := BitVec.ofNat 16 (0xFFFF <<< (self.pinIdx.val &&& 0xF)) }
  else
    let pinMask := BitVec.ofNat 16 (0xFFFF >>> (16 - self.numOfPins))
    { self with pinMask := BitVec.ofNat 16 (pinMask.toNat <<< (self.pinIdx.val &&& 0xF)) }

/-- The constructor. -/
def new (pinIdx : GPIO_PIN) (numOfPins : Nat) (isOutput : Bool) : HW_HAL_GPIO :=
  let self : HW_HAL_GPIO := { pinIdx, numOfPins, isOutput, PORT := getSTM32Port pinIdx }
  self.setPinMask

end HW_HAL_GPIO

def setPins (context : HW_HAL_GPIO) (ports : Ports) (val : BitVec 32) : Ports :=
  if context.isOutput then
    let pin := getSTM32Pin context.pinIdx
    if val = 0 then
      Function.update ports context.PORT
        (HAL_GPIO_WritePin (ports context.PORT) pin .GPIO_PIN_RESET)
    else
      Function.update ports context.PORT
        (HAL_GPIO_WritePin (ports context.PORT) pin .GPIO_PIN_SET)
  else ports

def readPins (context : HW_HAL_GPIO) (ports : Ports) : BitVec 32 :=
  let pin := getSTM32Pin context.pinIdx
  match HAL_GPIO_ReadPin (ports context.PORT) pin with
  | .GPIO_PIN_RESET => 0
  | .GPIO_PIN_SET => 1

/-- `init`, without the modes that it sets in the hardware. -/
def init (context : HW_HAL_GPIO) (ports : Ports) (isOutput : Bool) (numOfPins : Nat)
    (initVal : BitVec 32) : HW_HAL_GPIO × Ports :=
  let context := if numOfPins > 0 then { context with numOfPins := numOfPins } else context
  let context := { context with isOutput := isOutput }
  let context := context.setPinMask
  if context.isOutput then (context, setPins context ports initVal) else (context, ports)

/-! ### Groups -/

/-- A group of output pins inside one port. -/
structure PinGroup extends HW_HAL_GPIO where
  PORT_eq : PORT = getSTM32Port pinIdx
  output : isOutput = true
  numOfPins_pos : 0 < numOfPins
  inside : pinIdx.val % 16 + numOfPins ≤ 16

namespace PinGroup

/-- The place in the port of the first pin of the group. -/
def first (group : PinGroup) : Nat := group.pinIdx.val % 16

/-- A pin of the chip belongs to the group. -/
def Has (group : PinGroup) (port : Port) (pin : Nat) : Prop :=
  port = group.PORT ∧ group.first ≤ pin ∧ pin < group.first + group.numOfPins

instance (group : PinGroup) (port : Port) (pin : Nat) : Decidable (group.Has port pin) :=
  inferInstanceAs (Decidable (_ ∧ _ ∧ _))

/-- The outputs of the group become the bits of the value, and no other output changes. -/
def SetsPins (group : PinGroup) (ports : Ports) (val : BitVec 32) : Prop :=
  ∀ port, ∀ pin < 16, (setPins group.toHW_HAL_GPIO ports val port).ODR.getLsbD pin =
    if group.Has port pin then val.getLsbD (pin - group.first) else (ports port).ODR.getLsbD pin

/-- The levels of the group are the lowest bits of what is read, and the others are zero. -/
def ReadsPins (group : PinGroup) (ports : Ports) : Prop :=
  ∀ bit < 32, (readPins group.toHW_HAL_GPIO ports).getLsbD bit =
    (decide (bit < group.numOfPins) && (ports group.PORT).IDR.getLsbD (group.first + bit))

/-- The value is zero or odd, and all outputs of the group but the first one are as it says
already. -/
def SettledButFirst (group : PinGroup) (ports : Ports) (val : BitVec 32) : Prop :=
  (val = 0 ∨ val.getLsbD 0) ∧ ∀ bit, 0 < bit → bit < group.numOfPins →
    (ports group.PORT).ODR.getLsbD (group.first + bit) = val.getLsbD bit

/-- All pins of the group but the first one are low. -/
def LowButFirst (group : PinGroup) (ports : Ports) : Prop :=
  ∀ bit, 0 < bit → bit < group.numOfPins →
    (ports group.PORT).IDR.getLsbD (group.first + bit) = false

end PinGroup

/-! ### Masks -/

theorem and_ones (value : Nat) : value &&& 0xF = value % 16 :=
  Nat.and_two_pow_sub_one_eq_mod value 4

theorem getLsbD_getSTM32Pin (pinIdx : GPIO_PIN) (pin : Nat) :
    (getSTM32Pin pinIdx).getLsbD pin = decide (pin = pinIdx.val % 16) := by
  have hplace : pinIdx.val % 16 < 16 := Nat.mod_lt _ (by decide)
  rw [getSTM32Pin, and_ones, BitVec.getLsbD_ofNat, Nat.one_shiftLeft, Nat.testBit_two_pow]
  by_cases hpin : pin = pinIdx.val % 16
  · simp [hpin, hplace]
  · simp [hpin, Ne.symm hpin]

/-- The mask covers the pins of the group. -/
theorem getLsbD_setPinMask (context : HW_HAL_GPIO)
    (hinside : context.pinIdx.val % 16 + context.numOfPins ≤ 16) (pin : Nat) :
    context.setPinMask.pinMask.getLsbD pin =
      decide (context.pinIdx.val % 16 ≤ pin ∧
        pin < context.pinIdx.val % 16 + context.numOfPins) := by
  have hones (bit : Nat) : Nat.testBit 0xFFFF bit = decide (bit < 16) :=
    Nat.testBit_two_pow_sub_one 16 bit
  unfold HW_HAL_GPIO.setPinMask
  rw [and_ones, if_neg (by omega)]
  simp only [BitVec.getLsbD_ofNat, Nat.testBit_shiftLeft, BitVec.testBit_toNat,
    Nat.testBit_shiftRight, hones]
  rw [Bool.eq_iff_iff]
  simp only [Bool.and_eq_true, decide_eq_true_eq]
  omega

theorem setPinMask_group (context : HW_HAL_GPIO) :
    context.setPinMask.pinIdx = context.pinIdx ∧
      context.setPinMask.numOfPins = context.numOfPins ∧
      context.setPinMask.isOutput = context.isOutput ∧
      context.setPinMask.PORT = context.PORT := by
  unfold HW_HAL_GPIO.setPinMask
  split <;> exact ⟨rfl, rfl, rfl, rfl⟩

/-! ### Writing and reading -/

theorem getLsbD_HAL_GPIO_WritePin (GPIOx : GPIO_TypeDef) (GPIO_Pin : BitVec 16)
    (state : GPIO_PinState) {pin : Nat} (hpin : pin < 16) :
    (HAL_GPIO_WritePin GPIOx GPIO_Pin state).ODR.getLsbD pin =
      if GPIO_Pin.getLsbD pin then decide (state = .GPIO_PIN_SET) else GPIOx.ODR.getLsbD pin := by
  cases state with
  | GPIO_PIN_RESET =>
    show (GPIOx.ODR &&& ~~~GPIO_Pin).getLsbD pin = _
    rw [BitVec.getLsbD_and, BitVec.getLsbD_not, decide_eq_true hpin]
    cases GPIO_Pin.getLsbD pin <;> simp
  | GPIO_PIN_SET =>
    show (GPIOx.ODR ||| GPIO_Pin).getLsbD pin = _
    rw [BitVec.getLsbD_or]
    cases GPIO_Pin.getLsbD pin <;> simp

/-- One pin is written. -/
theorem getLsbD_setPins (group : PinGroup) (ports : Ports) (val : BitVec 32) (port : Port)
    {pin : Nat} (hpin : pin < 16) :
    (setPins group.toHW_HAL_GPIO ports val port).ODR.getLsbD pin =
      if port = group.PORT ∧ pin = group.first then decide (val ≠ 0)
      else (ports port).ODR.getLsbD pin := by
  have hwritten : setPins group.toHW_HAL_GPIO ports val =
      Function.update ports group.PORT (HAL_GPIO_WritePin (ports group.PORT)
        (getSTM32Pin group.pinIdx) (if val = 0 then .GPIO_PIN_RESET else .GPIO_PIN_SET)) := by
    rw [setPins, if_pos group.output]
    split <;> rfl
  rw [hwritten]
  by_cases hport : port = group.PORT
  · subst hport
    rw [Function.update_self, getLsbD_HAL_GPIO_WritePin _ _ _ hpin, getLsbD_getSTM32Pin]
    by_cases hval : val = 0 <;> simp [hval, PinGroup.first]
  · rw [Function.update_of_ne hport, if_neg fun h => hport h.1]

theorem and_getSTM32Pin_eq_zero_iff (pins : BitVec 16) (pinIdx : GPIO_PIN) :
    pins &&& getSTM32Pin pinIdx = 0 ↔ pins.getLsbD (pinIdx.val % 16) = false := by
  constructor
  · intro hnone
    have hbit := congrArg (fun word => word.getLsbD (pinIdx.val % 16)) hnone
    simpa [BitVec.getLsbD_and, getLsbD_getSTM32Pin, -BitVec.getElem_and] using hbit
  · intro hlow
    apply BitVec.eq_of_getLsbD_eq
    intro pin _
    rw [BitVec.getLsbD_and, getLsbD_getSTM32Pin]
    by_cases hpin : pin = pinIdx.val % 16
    · simp [hpin, hlow]
    · simp [hpin]

/-- One pin is read. -/
theorem getLsbD_readPins (group : PinGroup) (ports : Ports) (bit : Nat) :
    (readPins group.toHW_HAL_GPIO ports).getLsbD bit =
      (decide (bit = 0) && (ports group.PORT).IDR.getLsbD group.first) := by
  have hread := and_getSTM32Pin_eq_zero_iff (ports group.PORT).IDR group.pinIdx
  unfold readPins HAL_GPIO_ReadPin PinGroup.first
  by_cases hlow : (ports group.PORT).IDR &&& getSTM32Pin group.pinIdx = 0
  · simp only [hlow, hread.mp hlow, ne_eq, not_true_eq_false, if_false, Bool.and_false]
    exact BitVec.getLsbD_zero
  · have hhigh := Bool.not_eq_false _ |>.mp fun h => hlow (hread.mpr h)
    simp only [hlow, hhigh, ne_eq, not_false_eq_true, if_true, Bool.and_true]
    cases bit with
    | zero => rfl
    | succ bit => simp [BitVec.getLsbD_one]

theorem setsPins_iff (group : PinGroup) (ports : Ports) (val : BitVec 32) :
    group.SetsPins ports val ↔ group.SettledButFirst ports val := by
  have hpos := group.numOfPins_pos
  have hinside : group.first + group.numOfPins ≤ 16 := group.inside
  have hodd : decide (val ≠ 0) = val.getLsbD 0 ↔ val = 0 ∨ val.getLsbD 0 := by
    by_cases hval : val = 0
    · subst hval
      decide
    · rw [decide_eq_true hval, or_iff_right hval]
      exact eq_comm
  constructor
  · intro hsets
    constructor
    · have hfirst := hsets group.PORT group.first (by omega)
      rw [getLsbD_setPins group ports val _ (by omega), if_pos ⟨rfl, rfl⟩,
        if_pos ⟨rfl, Nat.le_refl _, by omega⟩, Nat.sub_self] at hfirst
      exact hodd.mp hfirst
    · intro bit hbit hlast
      have hother := hsets group.PORT (group.first + bit) (by omega)
      rw [getLsbD_setPins group ports val _ (by omega), if_neg (by omega),
        if_pos ⟨rfl, by omega, by omega⟩, Nat.add_sub_cancel_left] at hother
      exact hother
  · rintro ⟨hval, hothers⟩ port pin hpin
    rw [getLsbD_setPins group ports val port hpin]
    by_cases hhas : group.Has port pin
    · obtain ⟨hport, hlow, hhigh⟩ := id hhas
      subst hport
      rw [if_pos hhas]
      by_cases hfirst : pin = group.first
      · rw [if_pos ⟨rfl, hfirst⟩, hfirst, Nat.sub_self]
        exact hodd.mpr hval
      · have hother := hothers (pin - group.first) (by omega) (by omega)
        rw [Nat.add_sub_cancel' hlow] at hother
        rw [if_neg fun h => hfirst h.2, hother]
    · rw [if_neg hhas, if_neg]
      rintro ⟨hport, hfirst⟩
      exact hhas ⟨hport, by omega, by omega⟩

theorem readsPins_iff (group : PinGroup) (ports : Ports) :
    group.ReadsPins ports ↔ group.LowButFirst ports := by
  have hpos := group.numOfPins_pos
  have hinside : group.first + group.numOfPins ≤ 16 := group.inside
  unfold PinGroup.ReadsPins PinGroup.LowButFirst
  simp only [getLsbD_readPins]
  constructor
  · intro hreads bit hbit hlast
    have hread := hreads bit (by omega)
    rw [decide_eq_false (by omega), decide_eq_true hlast, Bool.false_and, Bool.true_and] at hread
    exact hread.symm
  · intro hlow bit _
    by_cases hzero : bit = 0
    · subst hzero
      rw [decide_eq_true rfl, decide_eq_true hpos, Nat.add_zero]
    · rw [decide_eq_false hzero, Bool.false_and]
      by_cases hlast : bit < group.numOfPins
      · rw [hlow bit (by omega) hlast, Bool.and_false]
      · rw [decide_eq_false hlast, Bool.false_and]

/-- What is set is the group, and what is read is the group, exactly if the driver's way to treat it
like its first pin makes no difference. -/
theorem pins_iff (group : PinGroup) (ports : Ports) (val : BitVec 32) :
    (group.SetsPins ports val ↔ group.SettledButFirst ports val) ∧
      (group.ReadsPins ports ↔ group.LowButFirst ports) :=
  ⟨setsPins_iff group ports val, readsPins_iff group ports⟩

theorem new_group {context : HW_HAL_GPIO} {pinIdx : GPIO_PIN} {numOfPins : Nat}
    {isOutput : Bool} (hnew : context = .new pinIdx numOfPins isOutput) :
    context.pinIdx = pinIdx ∧ context.PORT = getSTM32Port pinIdx := by
  subst hnew
  unfold HW_HAL_GPIO.new
  obtain ⟨hpinIdx, -, -, hport⟩ := setPinMask_group
    { pinIdx, numOfPins, isOutput, PORT := getSTM32Port pinIdx }
  exact ⟨hpinIdx, hport⟩

theorem init_group (pinIdx : GPIO_PIN) {numOfPins : Nat} (hpos : 0 < numOfPins) (ports : Ports)
    (initVal : BitVec 32) :
    (init (.new pinIdx 1 false) ports true numOfPins initVal).1.pinIdx = pinIdx ∧
      (init (.new pinIdx 1 false) ports true numOfPins initVal).1.numOfPins = numOfPins ∧
      (init (.new pinIdx 1 false) ports true numOfPins initVal).1.isOutput = true ∧
      (init (.new pinIdx 1 false) ports true numOfPins initVal).1.PORT = getSTM32Port pinIdx := by
  obtain ⟨hpinIdx, hport⟩ := @new_group _ pinIdx 1 false rfl
  obtain ⟨hpinIdx', hnumOfPins', houtput', hport'⟩ := setPinMask_group
    { HW_HAL_GPIO.new pinIdx 1 false with numOfPins := numOfPins, isOutput := true }
  unfold init
  rw [if_pos hpos, if_pos houtput']
  exact ⟨hpinIdx'.trans hpinIdx, hnumOfPins', houtput', hport'.trans hport⟩

/-- What `init` leaves of a new driver. -/
def PinGroup.ofInit (pinIdx : GPIO_PIN) (numOfPins : Nat) (hpos : 0 < numOfPins)
    (hinside : pinIdx.val % 16 + numOfPins ≤ 16) (ports : Ports) (initVal : BitVec 32) :
    PinGroup where
  toHW_HAL_GPIO := (init (.new pinIdx 1 false) ports true numOfPins initVal).1
  PORT_eq := by
    obtain ⟨hpinIdx, _, _, hport⟩ := init_group pinIdx hpos ports initVal
    rw [hpinIdx, hport]
  output := (init_group pinIdx hpos ports initVal).2.2.1
  numOfPins_pos := by
    rw [(init_group pinIdx hpos ports initVal).2.1]
    exact hpos
  inside := by
    obtain ⟨hpinIdx, hnumOfPins, _⟩ := init_group pinIdx hpos ports initVal
    rw [hpinIdx, hnumOfPins]
    exact hinside

/-- Two pins of the first port. -/
def twoPins : PinGroup :=
  .ofInit 0 2 (by decide) (by decide) (fun _ => ⟨0, 0⟩) 0

/-- Only the first of two pins is set, and only the first of two is read. -/
theorem first_pin_only :
    ¬ twoPins.SetsPins (fun _ => ⟨0, 0⟩) 3 ∧ ¬ twoPins.ReadsPins fun _ => ⟨0, 3⟩ := by
  constructor
  · intro hsets
    exact absurd (hsets .GPIOA 1 (by decide)) (by decide)
  · intro hreads
    exact absurd (hreads 1 (by decide)) (by decide)

end Rodos.BareMetal.HalGpio
