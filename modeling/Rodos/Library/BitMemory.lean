import Mathlib.Data.Nat.Bitwise
import Rodos.Library.BigEndian

/-! Byte memory as a sequence of bits, the most significant bit of each byte first, and the numbers
that lie in it as fields of bits. -/
namespace Rodos.Library

abbrev Bits := Nat → Bool

namespace Bits

/-- A number written into the bits from a position on, most significant bit first. -/
def write (bits : Bits) (position width value : Nat) : Bits := fun i =>
  if position ≤ i ∧ i < position + width then value.testBit (position + width - 1 - i) else bits i

def read (bits : Bits) (position : Nat) : Nat → Nat
  | 0 => 0
  | width + 1 => 2 * read bits position width + (bits (position + width)).toNat

variable {bits other : Bits} {position width value : Nat}

theorem write_inside {i : Nat} (hlow : position ≤ i) (hhigh : i < position + width) :
    bits.write position width value i = value.testBit (position + width - 1 - i) :=
  if_pos ⟨hlow, hhigh⟩

theorem write_outside {i : Nat} (houtside : i < position ∨ position + width ≤ i) :
    bits.write position width value i = bits i :=
  if_neg (by omega)

theorem read_congr (hsame : ∀ i, position ≤ i → i < position + width → bits i = other i) :
    bits.read position width = other.read position width := by
  induction width with
  | zero => rfl
  | succ width ih =>
    rw [read, read, ih fun i hlow hhigh => hsame i hlow (by omega),
      hsame (position + width) (by omega) (by omega)]

theorem testBit_read (bits : Bits) (position width j : Nat) :
    (bits.read position width).testBit j =
      (decide (j < width) && bits (position + width - 1 - j)) := by
  induction width generalizing j with
  | zero => simp [read]
  | succ width ih =>
    cases j with
    | zero =>
      cases hbit : bits (position + width) <;> simp [read, hbit, Nat.testBit_zero]
    | succ j =>
      have hhalf : (2 * bits.read position width + (bits (position + width)).toNat) / 2 =
          bits.read position width := by
        have hbit := Bool.toNat_lt (bits (position + width))
        omega
      have hposition : position + (width + 1) - 1 - (j + 1) = position + width - 1 - j := by omega
      rw [read, Nat.testBit_succ, hhalf, ih, hposition]
      simp

theorem read_lt (bits : Bits) (position width : Nat) : bits.read position width < 2 ^ width := by
  induction width with
  | zero => simp [read]
  | succ width ih =>
    have hbit := Bool.toNat_lt (bits (position + width))
    rw [read, Nat.pow_succ]
    omega

theorem read_write (bits : Bits) (position width value : Nat) :
    (bits.write position width value).read position width = value % 2 ^ width := by
  refine Nat.eq_of_testBit_eq fun j => ?_
  rw [testBit_read, Nat.testBit_mod_two_pow]
  by_cases hj : j < width
  · have hback : position + width - 1 - (position + width - 1 - j) = j := by omega
    rw [write_inside (by omega) (by omega), hback]
  · simp [hj]

/-- Only the bits that the width has room for are written. -/
theorem write_mod (bits : Bits) (position width value : Nat) :
    bits.write position width (value % 2 ^ width) = bits.write position width value := by
  funext i
  by_cases hinside : position ≤ i ∧ i < position + width
  · have hbit : position + width - 1 - i < width := by omega
    rw [write_inside hinside.1 hinside.2, write_inside hinside.1 hinside.2,
      Nat.testBit_mod_two_pow]
    simp [hbit]
  · rw [write_outside (by omega), write_outside (by omega)]

/-- Two numbers written one behind the other are one. -/
theorem write_append (bits : Bits) (position width more value : Nat) :
    (bits.write position width (value / 2 ^ more)).write (position + width) more value =
      bits.write position (width + more) value := by
  funext i
  by_cases hback : position + width ≤ i ∧ i < position + width + more
  · have hindex : position + (width + more) - 1 - i = position + width + more - 1 - i := by omega
    rw [write_inside hback.1 hback.2, write_inside (by omega) (by omega), hindex]
  · rw [write_outside (by omega)]
    by_cases hfront : position ≤ i ∧ i < position + width
    · have hindex : position + width - 1 - i + more = position + (width + more) - 1 - i := by omega
      rw [write_inside hfront.1 hfront.2, write_inside (by omega) (by omega),
        Nat.testBit_div_two_pow, hindex]
    · rw [write_outside (by omega), write_outside (by omega)]

/-- Fields that share no bit can be written in any order. -/
theorem write_comm (bits : Bits) {otherPosition otherWidth otherValue : Nat}
    (hdisjoint : position + width ≤ otherPosition ∨ otherPosition + otherWidth ≤ position) :
    (bits.write position width value).write otherPosition otherWidth otherValue =
      (bits.write otherPosition otherWidth otherValue).write position width value := by
  funext i
  by_cases hfirst : position ≤ i ∧ i < position + width
  · rw [write_outside (by omega), write_inside hfirst.1 hfirst.2,
      write_inside hfirst.1 hfirst.2]
  · rw [@write_outside (bits.write otherPosition otherWidth otherValue) _ _ _ _ (by omega)]
    by_cases hsecond : otherPosition ≤ i ∧ i < otherPosition + otherWidth
    · rw [write_inside hsecond.1 hsecond.2, write_inside hsecond.1 hsecond.2]
    · rw [write_outside (by omega), write_outside (by omega), write_outside (by omega)]

theorem read_append (bits : Bits) (position width more : Nat) :
    bits.read position (width + more) =
      bits.read position width * 2 ^ more + bits.read (position + width) more := by
  induction more with
  | zero => simp [read]
  | succ more ih =>
    rw [← Nat.add_assoc, read, read, ih, Nat.add_assoc position, Nat.pow_succ]
    ring

/-- Fields, each of a width and a value, written one behind the other. -/
def pack (bits : Bits) (position : Nat) : List (Nat × Nat) → Bits
  | [] => bits
  | (width, value) :: fields => pack (bits.write position width value) (position + width) fields

/-- The values of fields of these widths that lie one behind the other. -/
def unpack (bits : Bits) (position : Nat) : List Nat → List Nat
  | [] => []
  | width :: widths => bits.read position width :: unpack bits (position + width) widths

theorem pack_outside {fields : List (Nat × Nat)} {i : Nat}
    (houtside : i < position ∨ position + (fields.map Prod.fst).sum ≤ i) :
    bits.pack position fields i = bits i := by
  induction fields generalizing bits position with
  | nil => rfl
  | cons field fields ih =>
    rw [List.map_cons, List.sum_cons] at houtside
    rw [pack, ih (by omega), write_outside (by omega)]

theorem pack_append (bits : Bits) (position : Nat) (front back : List (Nat × Nat)) :
    bits.pack position (front ++ back) =
      (bits.pack position front).pack (position + (front.map Prod.fst).sum) back := by
  induction front generalizing bits position with
  | nil => rfl
  | cons field front ih =>
    rw [List.cons_append, pack, pack, ih, List.map_cons, List.sum_cons, Nat.add_assoc]

/-- What has been there before the fields is gone. -/
theorem pack_inside {fields : List (Nat × Nat)} {i : Nat} (hlow : position ≤ i)
    (hhigh : i < position + (fields.map Prod.fst).sum) :
    bits.pack position fields i = other.pack position fields i := by
  induction fields generalizing bits other position with
  | nil => exact absurd hhigh (Nat.not_lt.mpr hlow)
  | cons field fields ih =>
    rw [List.map_cons, List.sum_cons] at hhigh
    rw [pack, pack]
    by_cases hlater : position + field.1 ≤ i
    · exact ih hlater (by omega)
    · rw [pack_outside (.inl (Nat.not_le.mp hlater)), pack_outside (.inl (Nat.not_le.mp hlater)),
        write_inside hlow (by omega), write_inside hlow (by omega)]

theorem unpack_congr {widths : List Nat}
    (hsame : ∀ i, position ≤ i → i < position + widths.sum → bits i = other i) :
    bits.unpack position widths = other.unpack position widths := by
  induction widths generalizing position with
  | nil => rfl
  | cons width widths ih =>
    rw [List.sum_cons] at hsame
    rw [unpack, unpack, read_congr fun i hlow hhigh => hsame i hlow (by omega),
      ih fun i hlow hhigh => hsame i (by omega) (by omega)]

/-- Fields are read as they have been written, as far as they fit their widths. -/
theorem unpack_pack (bits : Bits) (position : Nat) (fields : List (Nat × Nat)) :
    (bits.pack position fields).unpack position (fields.map Prod.fst) =
      fields.map fun field => field.2 % 2 ^ field.1 := by
  induction fields generalizing bits position with
  | nil => rfl
  | cons field fields ih =>
    obtain ⟨width, value⟩ := field
    rw [pack, List.map_cons, unpack, ih, List.map_cons]
    have hfirst : ((bits.write position width value).pack (position + width) fields).read position
        width = (bits.write position width value).read position width :=
      read_congr fun i hlow hhigh => pack_outside (.inl hhigh)
    rw [hfirst, read_write]

end Bits

namespace Memory

def bits (memory : Memory UInt8) : Bits := fun i =>
  (memory (i / 8)).toNat.testBit (7 - i % 8)

variable {memory other : Memory UInt8} {index : Nat}

theorem bits_byte (memory : Memory UInt8) (index : Nat) {j : Nat} (hj : j < 8) :
    memory.bits (8 * index + j) = (memory index).toNat.testBit (7 - j) := by
  have hindex : (8 * index + j) / 8 = index := by omega
  have hbit : (8 * index + j) % 8 = j := by omega
  rw [bits, hindex, hbit]

/-- A byte is known by its bits. -/
theorem eq_of_bits (hsame : ∀ j < 8, memory.bits (8 * index + j) = other.bits (8 * index + j)) :
    memory index = other index := by
  refine UInt8.toNat_inj.mp (Nat.eq_of_testBit_eq fun j => ?_)
  by_cases hj : j < 8
  · have hbit := hsame (7 - j) (by omega)
    rw [bits_byte memory index (by omega), bits_byte other index (by omega)] at hbit
    have hback : 7 - (7 - j) = j := by omega
    rwa [hback] at hbit
  · have hlarge : 2 ^ 8 ≤ 2 ^ j := Nat.pow_le_pow_right (by decide) (by omega)
    rw [Nat.testBit_eq_false_of_lt (Nat.lt_of_lt_of_le (memory index).toNat_lt hlarge),
      Nat.testBit_eq_false_of_lt (Nat.lt_of_lt_of_le (other index).toNat_lt hlarge)]

theorem eq_of_bits_eq {left right : Memory UInt8} (hbits : left.bits = right.bits) :
    left = right := by
  funext index
  exact eq_of_bits fun j _ => congrFun hbits _

theorem bits_congr {i : Nat} (hsame : memory (i / 8) = other (i / 8)) :
    memory.bits i = other.bits i := by
  rw [bits, bits, hsame]

theorem bits_store (memory : Memory UInt8) (index : Nat) (value : UInt8) :
    (memory.store index value).bits = memory.bits.write (8 * index) 8 value.toNat := by
  funext i
  by_cases hinside : 8 * index ≤ i ∧ i < 8 * index + 8
  · have hindex : i / 8 = index := by omega
    have hbit : 7 - i % 8 = 8 * index + 8 - 1 - i := by omega
    rw [Bits.write_inside hinside.1 hinside.2, bits, hindex, store_same, hbit]
  · rw [Bits.write_outside (by omega)]
    exact bits_congr (store_other _ _ (by omega))

theorem read_byte (memory : Memory UInt8) (index : Nat) :
    memory.bits.read (8 * index) 8 = (memory index).toNat := by
  refine Nat.eq_of_testBit_eq fun j => ?_
  rw [Bits.testBit_read]
  by_cases hj : j < 8
  · have hposition : 8 * index + 8 - 1 - j = 8 * index + (7 - j) := by omega
    have hback : 7 - (7 - j) = j := by omega
    rw [hposition, bits_byte memory index (by omega), hback]
    simp [hj]
  · have hlarge : 2 ^ 8 ≤ 2 ^ j := Nat.pow_le_pow_right (by decide) (by omega)
    rw [Nat.testBit_eq_false_of_lt (Nat.lt_of_lt_of_le (memory index).toNat_lt hlarge)]
    simp [hj]

theorem byte_eq_read (memory : Memory UInt8) (index : Nat) :
    memory index = UInt8.ofNat (memory.bits.read (8 * index) 8) := by
  rw [read_byte, UInt8.ofNat_toNat]

theorem bits_storeBigEndian (memory : Memory UInt8) (offset width value : Nat) :
    (memory.storeBigEndian offset width value).bits =
      memory.bits.write (8 * offset) (8 * width) value := by
  induction width generalizing value with
  | zero =>
    funext i
    rw [storeBigEndian, Bits.write_outside (by omega)]
  | succ width ih =>
    rw [storeBigEndian, bits_store, Nat.mul_add, UInt8.toNat_ofNat', Bits.write_mod, ih]
    exact Bits.write_append memory.bits (8 * offset) (8 * width) 8 value

theorem loadBigEndian_eq_read (memory : Memory UInt8) (offset width : Nat) :
    memory.loadBigEndian offset width = memory.bits.read (8 * offset) (8 * width) := by
  induction width with
  | zero => rfl
  | succ width ih =>
    rw [loadBigEndian, ih, Nat.mul_succ 8 width, Bits.read_append, ← Nat.mul_add, read_byte]
    rfl

end Memory

end Rodos.Library
