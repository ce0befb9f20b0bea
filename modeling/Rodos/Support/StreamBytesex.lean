import Rodos.Library.BitMemory

/-! The bit fields of `stream-bytesex.cpp`: numbers of at most 16 bits anywhere in a byte stream,
bit 0 being the most significant one. -/
namespace Rodos.Support
open Library

def uint32_tOnes (n : UInt8) : UInt32 := ((1 : UInt32) <<< n.toUInt32) - 1

section fields

variable (buffer : Memory UInt8) (start bitPos : Nat) (numOfBits : UInt8)

/-- The three bytes around a field, those apart that the field does not reach. `buffer` is the whole
memory, the stream starts at `start`. -/
def wordAt (byteIndex used : Nat) : UInt32 :=
  let word := (buffer byteIndex).toUInt32 <<< 16
  let word := if used > 8 then word ||| (buffer (byteIndex + 1)).toUInt32 <<< 8 else word
  if used > 16 then word ||| (buffer (byteIndex + 2)).toUInt32 else word

def setBitField (val : UInt32) : Memory UInt8 :=
  let byteIndex := start + bitPos / 8
  let used := bitPos % 8 + numOfBits.toNat
  let shifts : UInt8 := 24 - UInt8.ofNat used
  let mask := uint32_tOnes numOfBits <<< shifts.toUInt32
  let val := val <<< shifts.toUInt32
  let word := (wordAt buffer byteIndex used &&& ~~~mask) ||| (mask &&& val)
  let buffer := buffer.store byteIndex (word >>> 16).toUInt8
  let buffer := if used > 8 then buffer.store (byteIndex + 1) (word >>> 8).toUInt8 else buffer
  if used > 16 then buffer.store (byteIndex + 2) word.toUInt8 else buffer

def getBitField : UInt32 :=
  let byteIndex := start + bitPos / 8
  let used := bitPos % 8 + numOfBits.toNat
  let shifts : UInt8 := 24 - UInt8.ofNat used
  (wordAt buffer byteIndex used >>> shifts.toUInt32) &&& uint32_tOnes numOfBits

end fields

section bits

theorem testBit_shiftLeft (x : UInt32) {shifts : UInt32} (hshifts : shifts.toNat < 32) {j : Nat}
    (hj : j < 32) :
    (x <<< shifts).toNat.testBit j =
      (decide (shifts.toNat ≤ j) && x.toNat.testBit (j - shifts.toNat)) := by
  rw [UInt32.toNat_shiftLeft, Nat.mod_eq_of_lt hshifts, Nat.testBit_mod_two_pow,
    Nat.testBit_shiftLeft]
  simp [hj]

theorem testBit_shiftRight (x : UInt32) {shifts : UInt32} (hshifts : shifts.toNat < 32) (j : Nat) :
    (x >>> shifts).toNat.testBit j = x.toNat.testBit (shifts.toNat + j) := by
  rw [UInt32.toNat_shiftRight, Nat.mod_eq_of_lt hshifts, Nat.testBit_shiftRight]

theorem testBit_and_not (x mask : UInt32) {j : Nat} (hj : j < 32) :
    (x &&& ~~~mask).toNat.testBit j = (x.toNat.testBit j && !mask.toNat.testBit j) := by
  rw [← UInt32.toNat_toBitVec, ← UInt32.toNat_toBitVec, ← UInt32.toNat_toBitVec,
    BitVec.testBit_toNat, BitVec.testBit_toNat, BitVec.testBit_toNat]
  simp [hj]

theorem testBit_ones {n : UInt8} (hn : n.toNat < 32) (j : Nat) :
    (uint32_tOnes n).toNat.testBit j = decide (j < n.toNat) := by
  have hshift : ((1 : UInt32) <<< n.toUInt32).toNat = 2 ^ n.toNat := by
    have hsmall : 2 ^ n.toNat < 2 ^ 32 := Nat.pow_lt_pow_right (by decide) (by omega)
    rw [UInt32.toNat_shiftLeft, UInt8.toNat_toUInt32, Nat.mod_eq_of_lt hn,
      Nat.shiftLeft_eq, Nat.mod_eq_of_lt]
    · simp
    · simpa using hsmall
  have hone : (1 : UInt32) ≤ 1 <<< n.toUInt32 := by
    rw [UInt32.le_iff_toNat_le, hshift]
    exact Nat.one_le_two_pow
  rw [uint32_tOnes, UInt32.toNat_sub_of_le _ _ hone, hshift]
  exact Nat.testBit_two_pow_sub_one n.toNat j

theorem testBit_byte (x : UInt8) {j : Nat} (hj : 8 ≤ j) : x.toNat.testBit j = false :=
  Nat.testBit_eq_false_of_lt (Nat.lt_of_lt_of_le x.toNat_lt (Nat.pow_le_pow_right (by decide) hj))

theorem testBit_shifted (x : UInt8) (shifts : UInt32) (hshifts : shifts.toNat < 32) {j : Nat}
    (hj : j < 32) : (x.toUInt32 <<< shifts).toNat.testBit j =
      (decide (shifts.toNat ≤ j) && x.toNat.testBit (j - shifts.toNat)) := by
  rw [testBit_shiftLeft _ hshifts hj, UInt8.toNat_toUInt32]

/-- The bits of the word, without regard to how far the field reaches. -/
theorem testBit_wordAt (buffer : Memory UInt8) (byteIndex : Nat) {used j : Nat} (hj : j < 32) :
    (wordAt buffer byteIndex used).toNat.testBit j =
      ((decide (16 ≤ j) && (buffer byteIndex).toNat.testBit (j - 16)) ||
        (decide (used > 8) && decide (8 ≤ j) && (buffer (byteIndex + 1)).toNat.testBit (j - 8)) ||
        (decide (used > 16) && (buffer (byteIndex + 2)).toNat.testBit j)) := by
  have hfirst := testBit_shifted (buffer byteIndex) 16 (by decide) hj
  have hsecond := testBit_shifted (buffer (byteIndex + 1)) 8 (by decide) hj
  have hsixteen : (16 : UInt32).toNat = 16 := rfl
  have height : (8 : UInt32).toNat = 8 := rfl
  rw [hsixteen] at hfirst
  rw [height] at hsecond
  unfold wordAt
  by_cases hmiddle : used > 8 <;> by_cases hlast : used > 16 <;>
    simp only [hmiddle, hlast, if_true, if_false, UInt32.toNat_or, Nat.testBit_or, hfirst, hsecond,
      UInt8.toNat_toUInt32, decide_true, decide_false, Bool.true_and, Bool.false_and, Bool.or_false]

/-- A bit of the word that the field reaches is a bit of the memory. -/
theorem testBit_wordAt_bits (buffer : Memory UInt8) (byteIndex : Nat) {used d : Nat}
    (hd : d < 24) (hreached : d < 8 ∨ 8 * (d / 8) < used) :
    (wordAt buffer byteIndex used).toNat.testBit (23 - d) = buffer.bits (8 * byteIndex + d) := by
  rw [testBit_wordAt buffer byteIndex (by omega)]
  obtain hfirst | hsecond | hthird : d < 8 ∨ (8 ≤ d ∧ d < 16) ∨ 16 ≤ d := by omega
  · have hbit : 23 - d - 16 = 7 - d := by omega
    rw [Memory.bits_byte buffer byteIndex hfirst, hbit, testBit_byte _ (by omega : 8 ≤ 23 - d - 8),
      testBit_byte (buffer (byteIndex + 2)) (by omega : 8 ≤ 23 - d)]
    simp; omega
  · have hbit : 23 - d - 8 = 7 - (d - 8) := by omega
    have hbits : buffer.bits (8 * byteIndex + d) =
        (buffer (byteIndex + 1)).toNat.testBit (7 - (d - 8)) := by
      rw [← Memory.bits_byte buffer (byteIndex + 1) (by omega : d - 8 < 8)]
      congr 1
      omega
    rw [hbits, ← hbit, testBit_byte (buffer (byteIndex + 2)) (by omega : 8 ≤ 23 - d)]
    have hnot : ¬ 16 ≤ 23 - d := by omega
    have hused : used > 8 := by omega
    have height : 8 ≤ 23 - d := by omega
    simp [hnot, hused, height]
  · have hbits : buffer.bits (8 * byteIndex + d) =
        (buffer (byteIndex + 2)).toNat.testBit (7 - (d - 16)) := by
      rw [← Memory.bits_byte buffer (byteIndex + 2) (by omega : d - 16 < 8)]
      congr 1
      omega
    have hbit : 7 - (d - 16) = 23 - d := by omega
    rw [hbits, hbit]
    have hnotFirst : ¬ 16 ≤ 23 - d := by omega
    have hnotSecond : ¬ 8 ≤ 23 - d := by omega
    have hused : used > 16 := by omega
    simp [hnotFirst, hnotSecond, hused]

theorem toNat_shifts {used : Nat} (hused : used ≤ 24) :
    ((24 : UInt8) - UInt8.ofNat used).toUInt32.toNat = 24 - used := by
  have hbyte : (UInt8.ofNat used).toNat = used :=
    UInt8.toNat_ofNat_of_lt' (Nat.lt_of_le_of_lt hused (by decide))
  have hle : UInt8.ofNat used ≤ 24 := by
    rw [UInt8.le_iff_toNat_le, hbyte]
    exact hused
  rw [UInt8.toNat_toUInt32, UInt8.toNat_sub_of_le _ _ hle, hbyte]
  rfl

/-- The bits of the word with the field in it, counted from the most significant one of the three
bytes. -/
theorem testBit_newWord (word val : UInt32) {q used d : Nat} {n : UInt8}
    (hused : used = q + n.toNat) (hbound : used ≤ 24) (hd : d < 24) :
    let shifts : UInt8 := 24 - UInt8.ofNat used
    let mask := uint32_tOnes n <<< shifts.toUInt32
    ((word &&& ~~~mask) ||| (mask &&& val <<< shifts.toUInt32)).toNat.testBit (23 - d) =
      if q ≤ d ∧ d < used then val.toNat.testBit (used - 1 - d)
      else word.toNat.testBit (23 - d) := by
  intro shifts mask
  have hshifts : shifts.toUInt32.toNat = 24 - used := toNat_shifts hbound
  have hsmall : shifts.toUInt32.toNat < 32 := by omega
  have hmask : mask.toNat.testBit (23 - d) = decide (q ≤ d ∧ d < used) := by
    rw [testBit_shiftLeft _ hsmall (by omega), testBit_ones (by omega), hshifts, ← Bool.decide_and]
    exact decide_eq_decide.mpr (by omega)
  rw [UInt32.toNat_or, Nat.testBit_or, testBit_and_not _ _ (by omega), UInt32.toNat_and,
    Nat.testBit_and, hmask, testBit_shiftLeft _ hsmall (by omega), hshifts]
  by_cases hinside : q ≤ d ∧ d < used
  · have hbit : 23 - d - (24 - used) = used - 1 - d := by omega
    have hreaches : 24 - used ≤ 23 - d := by omega
    rw [hbit, if_pos hinside]
    simp [hinside, hreaches]
  · rw [if_neg hinside]
    simp [hinside]

theorem testBit_toUInt8 (word : UInt32) {shifts : UInt32} (hshifts : shifts.toNat < 32) {j : Nat}
    (hj : j < 8) :
    (word >>> shifts).toUInt8.toNat.testBit j = word.toNat.testBit (shifts.toNat + j) := by
  have hbyte : (word >>> shifts).toUInt8.toNat = (word >>> shifts).toNat % 2 ^ 8 :=
    UInt32.toNat_toUInt8 _
  rw [hbyte, Nat.testBit_mod_two_pow, testBit_shiftRight _ hshifts]
  simp [hj]

/-- Where the bytes of the word are stored. -/
theorem bits_storeWord (buffer : Memory UInt8) (byteIndex : Nat) (word : UInt32) {used d : Nat}
    (hd : d < 24) (hreached : d < 8 ∨ 8 * (d / 8) < used) :
    let first := buffer.store byteIndex (word >>> 16).toUInt8
    let second := if used > 8 then first.store (byteIndex + 1) (word >>> 8).toUInt8 else first
    Memory.bits (if used > 16 then second.store (byteIndex + 2) word.toUInt8 else second)
      (8 * byteIndex + d) = word.toNat.testBit (23 - d) := by
  intro first second
  have hlast : (word >>> 0).toUInt8 = word.toUInt8 := by simp
  obtain hfirst | hsecond | hthird : d < 8 ∨ (8 ≤ d ∧ d < 16) ∨ 16 ≤ d := by omega
  · have hsame : (if used > 16 then second.store (byteIndex + 2) word.toUInt8 else second)
        byteIndex = (word >>> 16).toUInt8 := by
      simp only [first, second]
      split <;> split <;> simp [Memory.store]
    rw [Memory.bits_byte _ _ hfirst, hsame, testBit_toUInt8 word (by decide) (by omega)]
    congr 1
    change 16 + (7 - d) = 23 - d
    omega
  · have hused : used > 8 := by omega
    have hindex : 8 * byteIndex + d = 8 * (byteIndex + 1) + (d - 8) := by omega
    have hsame : (if used > 16 then second.store (byteIndex + 2) word.toUInt8 else second)
        (byteIndex + 1) = (word >>> 8).toUInt8 := by
      simp only [second, if_pos hused]
      split <;> simp [Memory.store]
    rw [hindex, Memory.bits_byte _ _ (by omega), hsame,
      testBit_toUInt8 word (by decide) (by omega)]
    congr 1
    change 8 + (7 - (d - 8)) = 23 - d
    omega
  · have hused : used > 16 := by omega
    have hindex : 8 * byteIndex + d = 8 * (byteIndex + 2) + (d - 16) := by omega
    rw [if_pos hused, hindex, Memory.bits_byte _ _ (by omega), Memory.store_same, ← hlast,
      testBit_toUInt8 word (by decide) (by omega)]
    congr 1
    change 0 + (7 - (d - 16)) = 23 - d
    omega

theorem storeWord_other (buffer : Memory UInt8) (byteIndex : Nat) (word : UInt32) {used index : Nat}
    (hother : index < byteIndex ∨ 8 * byteIndex + used ≤ 8 * index ∧ byteIndex < index) :
    let first := buffer.store byteIndex (word >>> 16).toUInt8
    let second := if used > 8 then first.store (byteIndex + 1) (word >>> 8).toUInt8 else first
    (if used > 16 then second.store (byteIndex + 2) word.toUInt8 else second) index =
      buffer index := by
  intro first second
  have hfirst : first index = buffer index := Memory.store_other _ _ (by omega)
  have hsecond : second index = buffer index := by
    by_cases hmiddle : used > 8
    · simp only [second, if_pos hmiddle]
      rw [Memory.store_other _ _ (by omega), hfirst]
    · simp only [second, if_neg hmiddle, hfirst]
  by_cases hlast : used > 16
  · rw [if_pos hlast, Memory.store_other _ _ (by omega), hsecond]
  · rw [if_neg hlast, hsecond]

/-- A field in three bytes is written where it belongs, as many bits of the value as it has, and
nowhere else. -/
theorem bits_setBitField_of_threeBytes (buffer : Memory UInt8) (start bitPos : Nat) {n : UInt8}
    (hreach : bitPos % 8 + n.toNat ≤ 24) (val : UInt32) :
    (setBitField buffer start bitPos n val).bits =
      buffer.bits.write (8 * start + bitPos) n.toNat val.toNat := by
  funext i
  set q := bitPos % 8 with hq
  set byteIndex := start + bitPos / 8 with hbyteIndex
  set used := q + n.toNat with hused
  have hq8 : q < 8 := Nat.mod_lt _ (by decide)
  have hposition : 8 * start + bitPos = 8 * byteIndex + q := by omega
  rw [hposition]
  by_cases hreached : 8 * byteIndex ≤ i ∧
      (i < 8 * byteIndex + 8 ∨ 8 * (i / 8) < 8 * byteIndex + used)
  · obtain ⟨d, rfl⟩ := Nat.exists_eq_add_of_le hreached.1
    have hd : d < 24 := by omega
    have hnear : d < 8 ∨ 8 * (d / 8) < used := by omega
    have hstored := bits_storeWord buffer byteIndex
      ((wordAt buffer byteIndex used &&&
          ~~~(uint32_tOnes n <<< (24 - UInt8.ofNat used).toUInt32)) |||
        (uint32_tOnes n <<< (24 - UInt8.ofNat used).toUInt32 &&&
          val <<< (24 - UInt8.ofNat used).toUInt32)) hd hnear
    apply hstored.trans
    rw [testBit_newWord (wordAt buffer byteIndex used) val hused (by omega) hd]
    by_cases hinside : q ≤ d ∧ d < used
    · have hbit : used - 1 - d = 8 * byteIndex + q + n.toNat - 1 - (8 * byteIndex + d) := by omega
      rw [if_pos hinside, Bits.write_inside (by omega) (by omega), hbit]
    · rw [if_neg hinside, Bits.write_outside (by omega),
        testBit_wordAt_bits buffer byteIndex hd hnear]
  · rw [Bits.write_outside (by omega)]
    exact Memory.bits_congr (storeWord_other buffer byteIndex _ (by omega))

theorem bits_setBitField (buffer : Memory UInt8) (start bitPos : Nat) {n : UInt8}
    (hn : n.toNat ≤ 16) (val : UInt32) :
    (setBitField buffer start bitPos n val).bits =
      buffer.bits.write (8 * start + bitPos) n.toNat val.toNat :=
  bits_setBitField_of_threeBytes buffer start bitPos (by omega) val

theorem toNat_getBitField_of_threeBytes (buffer : Memory UInt8) (start bitPos : Nat) {n : UInt8}
    (hreach : bitPos % 8 + n.toNat ≤ 24) :
    (getBitField buffer start bitPos n).toNat =
      buffer.bits.read (8 * start + bitPos) n.toNat := by
  set q := bitPos % 8 with hq
  set byteIndex := start + bitPos / 8 with hbyteIndex
  set used := q + n.toNat with hused
  have hq8 : q < 8 := Nat.mod_lt _ (by decide)
  have hposition : 8 * start + bitPos = 8 * byteIndex + q := by omega
  have hshifts := toNat_shifts (by omega : used ≤ 24)
  refine Nat.eq_of_testBit_eq fun j => ?_
  change ((wordAt buffer byteIndex used >>> (24 - UInt8.ofNat used).toUInt32) &&&
    uint32_tOnes n).toNat.testBit j = _
  rw [UInt32.toNat_and, Nat.testBit_and, testBit_ones (by omega), Bits.testBit_read, hposition,
    testBit_shiftRight _ (by omega), hshifts]
  by_cases hj : j < n.toNat
  · have hbit : 24 - used + j = 23 - (used - 1 - j) := by omega
    have hindex : 8 * byteIndex + q + n.toNat - 1 - j = 8 * byteIndex + (used - 1 - j) := by omega
    rw [hbit, hindex, testBit_wordAt_bits buffer byteIndex (by omega) (by omega), Bool.and_comm]
  · simp [hj]

theorem toNat_getBitField (buffer : Memory UInt8) (start bitPos : Nat) {n : UInt8}
    (hn : n.toNat ≤ 16) :
    (getBitField buffer start bitPos n).toNat = buffer.bits.read (8 * start + bitPos) n.toNat :=
  toNat_getBitField_of_threeBytes buffer start bitPos (by omega)

theorem toUInt8_getBitField (buffer : Memory UInt8) (start bitPos : Nat) {n : UInt8}
    (hn : n.toNat ≤ 16) : (getBitField buffer start bitPos n).toUInt8 =
      UInt8.ofNat (buffer.bits.read (8 * start + bitPos) n.toNat) := by
  rw [← toNat_getBitField buffer start bitPos hn, UInt8.ofNat_uInt32ToNat]

theorem toUInt16_getBitField (buffer : Memory UInt8) (start bitPos : Nat) {n : UInt8}
    (hn : n.toNat ≤ 16) : (getBitField buffer start bitPos n).toUInt16 =
      UInt16.ofNat (buffer.bits.read (8 * start + bitPos) n.toNat) := by
  rw [← toNat_getBitField buffer start bitPos hn, UInt16.ofNat_uInt32ToNat]

end bits

end Rodos.Support
