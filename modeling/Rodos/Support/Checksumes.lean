import Mathlib.Tactic.IntervalCases
import Rodos.Library.XorLinear

/-! The two 16-bit CRCs of `checksumes.cpp`: bit by bit, and byte by byte with a table that the
constructor of `CRC` fills in. -/
namespace Rodos.Support
open Library

/-- One round of the inner loop of `computeCrc`, the shift of the character apart. -/
def shiftBit (currentValue : UInt16) (curChar : UInt8) : UInt16 :=
  if (curChar &&& 0x80).toUInt16 ^^^ ((currentValue &&& 0x8000) >>> 8) ≠ 0 then
    (currentValue <<< 1) ^^^ 0x1021 -- Standard Polynom for CCSDS
  else
    currentValue <<< 1

def shiftBits (currentValue : UInt16) (curChar : UInt8) : Nat → UInt16
  | 0 => currentValue
  | bits + 1 => shiftBits (shiftBit currentValue curChar) (curChar <<< 1) bits

def computeCrc (buf : List UInt8) (initialValue : UInt16) : UInt16 :=
  buf.foldl (fun currentValue curChar => shiftBits currentValue curChar 8) initialValue

structure CRC where
  lookUpTable : UInt8 → UInt16

namespace CRC

/-- The entry that the constructor computes for the index `i`. -/
def tableEntry (i : UInt8) : UInt16 :=
  (if i &&& 1 ≠ 0 then 0x1021 else 0) ^^^
  (if i &&& 2 ≠ 0 then 0x2042 else 0) ^^^
  (if i &&& 4 ≠ 0 then 0x4084 else 0) ^^^
  (if i &&& 8 ≠ 0 then 0x8108 else 0) ^^^
  (if i &&& 16 ≠ 0 then 0x1231 else 0) ^^^
  (if i &&& 32 ≠ 0 then 0x2462 else 0) ^^^
  (if i &&& 64 ≠ 0 then 0x48C4 else 0) ^^^
  (if i &&& 128 ≠ 0 then 0x9188 else 0)

def new : CRC where
  lookUpTable := tableEntry

/-- One round of the loop of `computeCRC`. -/
def takeByte (self : CRC) (currentValue : UInt16) (data : UInt8) : UInt16 :=
  let index : UInt16 := ((currentValue >>> 8) ^^^ data.toUInt16) &&& 0x00FF
  ((currentValue <<< 8) &&& 0xFF00) ^^^ self.lookUpTable index.toUInt8

def computeCRC (self : CRC) (buf : List UInt8) (initialValue : UInt16) : UInt16 :=
  buf.foldl self.takeByte initialValue

end CRC

theorem and_twoPow_cases {width : Nat} (word : BitVec width) (bit : Nat) :
    word &&& BitVec.twoPow width bit = 0 ∨
      word &&& BitVec.twoPow width bit = BitVec.twoPow width bit := by
  rw [BitVec.and_twoPow]
  split
  · exact .inr rfl
  · exact .inl rfl

theorem and8_xor (mask : UInt8) : XorLinear (· &&& mask) := by
  intro a b
  apply UInt8.toBitVec_inj.mp
  ext bit hbit
  simp [Bool.and_xor_distrib_right]

theorem and16_xor (mask : UInt16) : XorLinear (· &&& mask) := by
  intro a b
  apply UInt16.toBitVec_inj.mp
  ext bit hbit
  simp [Bool.and_xor_distrib_right]

/-- What is added under a test of one bit. -/
theorem select_xor {left right mask : UInt16} (constant : UInt16)
    (hleft : left = 0 ∨ left = mask) (hright : right = 0 ∨ right = mask) :
    (if left ^^^ right ≠ 0 then constant else 0) =
      (if left ≠ 0 then constant else 0) ^^^ (if right ≠ 0 then constant else 0) := by
  obtain rfl | rfl := hleft <;> obtain rfl | rfl := hright <;> simp

section bits

/-- The word whose bit decides whether the polynomial is added. -/
def topBits (currentValue : UInt16) (curChar : UInt8) : UInt16 :=
  (curChar &&& 0x80).toUInt16 ^^^ ((currentValue &&& 0x8000) >>> 8)

theorem shiftBit_eq (currentValue : UInt16) (curChar : UInt8) :
    shiftBit currentValue curChar =
      (currentValue <<< 1) ^^^ (if topBits currentValue curChar ≠ 0 then 0x1021 else 0) := by
  unfold shiftBit topBits
  split <;> simp

theorem topBits_cases (currentValue : UInt16) (curChar : UInt8) :
    topBits currentValue curChar = 0 ∨ topBits currentValue curChar = 0x80 := by
  have hchar : curChar &&& 0x80 = 0 ∨ curChar &&& 0x80 = 0x80 :=
    (and_twoPow_cases curChar.toBitVec 7).imp UInt8.toBitVec_inj.mp UInt8.toBitVec_inj.mp
  have hvalue : currentValue &&& 0x8000 = 0 ∨ currentValue &&& 0x8000 = 0x8000 :=
    (and_twoPow_cases currentValue.toBitVec 15).imp UInt16.toBitVec_inj.mp UInt16.toBitVec_inj.mp
  unfold topBits
  obtain hchar | hchar := hchar <;> obtain hvalue | hvalue := hvalue <;>
    rw [hchar, hvalue] <;> decide

theorem topBits_xor (a b : UInt16) (c d : UInt8) :
    topBits (a ^^^ b) (c ^^^ d) = topBits a c ^^^ topBits b d := by
  have hchar := and8_xor 0x80 c d
  have hvalue := and16_xor 0x8000 a b
  dsimp only at hchar hvalue
  unfold topBits
  rw [hchar, hvalue, UInt8.toUInt16_xor, UInt16.shiftRight_xor]
  ac_rfl

theorem shiftBit_xor (a b : UInt16) (c d : UInt8) :
    shiftBit (a ^^^ b) (c ^^^ d) = shiftBit a c ^^^ shiftBit b d := by
  rw [shiftBit_eq, shiftBit_eq, shiftBit_eq, UInt16.shiftLeft_xor, topBits_xor,
    select_xor _ (topBits_cases a c) (topBits_cases b d)]
  ac_rfl

theorem shiftBits_xor (a b : UInt16) (c d : UInt8) (bits : Nat) :
    shiftBits (a ^^^ b) (c ^^^ d) bits = shiftBits a c bits ^^^ shiftBits b d bits := by
  induction bits generalizing a b c d with
  | zero => rfl
  | succ bits ih => rw [shiftBits, shiftBit_xor, UInt8.shiftLeft_xor, ih, ← shiftBits, ← shiftBits]

end bits

section table

/-- One line of the constructor's loop. -/
theorem tableLine_xor {mask : UInt8} (constant : UInt16)
    (hmask : ∀ i : UInt8, i &&& mask = 0 ∨ i &&& mask = mask) :
    XorLinear fun i : UInt8 => if i &&& mask ≠ 0 then constant else 0 := by
  intro a b
  have hand := and8_xor mask a b
  dsimp only at hand ⊢
  rw [hand]
  obtain ha | ha := hmask a <;> obtain hb | hb := hmask b <;> rw [ha, hb] <;> simp

theorem tableEntry_xor : XorLinear CRC.tableEntry := by
  have hline (bit : Nat) (constant : UInt16) : XorLinear fun i : UInt8 =>
      if i &&& ⟨BitVec.twoPow 8 bit⟩ ≠ 0 then constant else 0 :=
    tableLine_xor constant fun i =>
      (and_twoPow_cases i.toBitVec bit).imp UInt8.toBitVec_inj.mp UInt8.toBitVec_inj.mp
  have h1 := XorLinear.xor (hline 0 0x1021) (hline 1 0x2042)
  have h2 := XorLinear.xor h1 (hline 2 0x4084)
  have h3 := XorLinear.xor h2 (hline 3 0x8108)
  have h4 := XorLinear.xor h3 (hline 4 0x1231)
  have h5 := XorLinear.xor h4 (hline 5 0x2462)
  have h6 := XorLinear.xor h5 (hline 6 0x48C4)
  exact XorLinear.xor h6 (hline 7 0x9188)

theorem takeByte_xor (a b : UInt16) (c d : UInt8) :
    CRC.new.takeByte (a ^^^ b) (c ^^^ d) = CRC.new.takeByte a c ^^^ CRC.new.takeByte b d := by
  have hhigh := and16_xor 0xFF00 (a <<< 8) (b <<< 8)
  have hlow := and16_xor 0x00FF ((a >>> 8) ^^^ c.toUInt16) ((b >>> 8) ^^^ d.toUInt16)
  have hindex : ((a ^^^ b) >>> 8) ^^^ (c ^^^ d).toUInt16 =
      ((a >>> 8) ^^^ c.toUInt16) ^^^ ((b >>> 8) ^^^ d.toUInt16) := by
    rw [UInt16.shiftRight_xor, UInt8.toUInt16_xor]
    ac_rfl
  dsimp only at hhigh hlow
  simp only [CRC.takeByte, CRC.new]
  rw [hindex, hlow, UInt16.toUInt8_xor, tableEntry_xor, UInt16.shiftLeft_xor, hhigh]
  ac_rfl

/-- A round of the table loop is the eight rounds of the inner loop of `computeCrc`: both respect
exclusive or, and they agree on every single bit of the value and of the character. -/
theorem takeByte_eq_shiftBits (currentValue : UInt16) (data : UInt8) :
    CRC.new.takeByte currentValue data = shiftBits currentValue data 8 := by
  have hvalue : CRC.new.takeByte currentValue 0 = shiftBits currentValue 0 8 := by
    have hspan : XorSpan (fun word : UInt16 => ∃ bit, bit ≤ 15 ∧ word = UInt16.ofNat (2 ^ bit))
        (UInt16.ofNat currentValue.toNat) :=
      XorSpan.image UInt16.ofNat_xor (fun word ⟨bit, hbit, hword⟩ => ⟨bit, hbit, by rw [hword]⟩)
        (XorSpan.nat_of_lt_two_pow currentValue.toNat_lt)
    rw [UInt16.ofNat_toNat] at hspan
    have htable : XorLinear fun value => CRC.new.takeByte value 0 := fun a b => takeByte_xor a b 0 0
    have hbits : XorLinear fun value => shiftBits value 0 8 := fun a b => shiftBits_xor a b 0 0 8
    refine htable.eq_of_span hbits ?_ hspan
    rintro _ ⟨bit, hbit, rfl⟩
    interval_cases bit <;> decide
  have hchar : CRC.new.takeByte 0 data = shiftBits 0 data 8 := by
    have hspan : XorSpan (fun char : UInt8 => ∃ bit, bit ≤ 7 ∧ char = UInt8.ofNat (2 ^ bit))
        (UInt8.ofNat data.toNat) :=
      XorSpan.image UInt8.ofNat_xor (fun char ⟨bit, hbit, hchar⟩ => ⟨bit, hbit, by rw [hchar]⟩)
        (XorSpan.nat_of_lt_two_pow data.toNat_lt)
    rw [UInt8.ofNat_toNat] at hspan
    have htable : XorLinear fun char => CRC.new.takeByte 0 char := fun c d => takeByte_xor 0 0 c d
    have hbits : XorLinear fun char => shiftBits 0 char 8 := fun c d => shiftBits_xor 0 0 c d 8
    refine htable.eq_of_span hbits ?_ hspan
    rintro _ ⟨bit, hbit, rfl⟩
    interval_cases bit <;> decide
  calc CRC.new.takeByte currentValue data
      = CRC.new.takeByte (currentValue ^^^ 0) (0 ^^^ data) := by
        rw [UInt16.xor_zero, UInt8.zero_xor]
    _ = shiftBits currentValue 0 8 ^^^ shiftBits 0 data 8 := by
        rw [takeByte_xor, hvalue, hchar]
    _ = shiftBits currentValue data 8 := by
        rw [← shiftBits_xor, UInt16.xor_zero, UInt8.zero_xor]

end table

/-- The optimized CRC is the one computed bit by bit. -/
theorem computeCRC_eq_computeCrc (buf : List UInt8) (initialValue : UInt16) :
    CRC.new.computeCRC buf initialValue = computeCrc buf initialValue := by
  induction buf generalizing initialValue with
  | nil => rfl
  | cons data buf ih =>
    rw [computeCrc, List.foldl_cons, ← takeByte_eq_shiftBits]
    exact ih _

/-- The check value of this polynomial: the CRC of the digits 1 to 9. -/
example : computeCrc [0x31, 0x32, 0x33, 0x34, 0x35, 0x36, 0x37, 0x38, 0x39] 0xFFFF = 0x29B1 := by
  decide +kernel

end Rodos.Support
