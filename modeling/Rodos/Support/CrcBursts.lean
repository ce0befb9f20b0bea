import Rodos.Library.ShiftRegister
import Rodos.Support.Checksumes

/-! What the CRCs detect for sure: every burst of errors of at most 16 bits. -/
namespace Rodos.Support
open Library

/-- The bits of a character in the order in which they are shifted into the CRC. -/
def charBits (curChar : UInt8) : List Bool := (List.range 8).map curChar.toBitVec.getMsbD

def bufferBits (buf : List UInt8) : List Bool := buf.flatMap charBits

/-- The bit of a buffer at a position, the most significant bit of the first character at 0. -/
def bitAt (buf : List UInt8) (position : Nat) : Bool :=
  (buf.getD (position / 8) 0).toBitVec.getMsbD (position % 8)

/-- The polynomial of both CRCs. -/
def ccitt : BitVec 16 := 0x1021

@[simp] theorem length_charBits (curChar : UInt8) : (charBits curChar).length = 8 := by
  simp [charBits]

theorem getD_charBits (curChar : UInt8) {bit : Nat} (hbit : bit < 8) :
    (charBits curChar).getD bit false = curChar.toBitVec.getMsbD bit := by
  rw [List.getD_eq_getElem _ _ (by simpa using hbit)]
  simp [charBits]

@[simp] theorem length_bufferBits (buf : List UInt8) :
    (bufferBits buf).length = 8 * buf.length := by
  induction buf with
  | nil => rfl
  | cons curChar buf ih =>
    rw [bufferBits, List.flatMap_cons, List.length_append, ← bufferBits, ih, length_charBits,
      List.length_cons]
    omega

theorem getD_bufferBits (buf : List UInt8) (position : Nat) :
    (bufferBits buf).getD position false = bitAt buf position := by
  induction buf generalizing position with
  | nil => simp [bufferBits, bitAt]
  | cons curChar buf ih =>
    rw [bufferBits, List.flatMap_cons, ← bufferBits]
    by_cases hfirst : position < 8
    · rw [List.getD_append _ _ _ _ (by simpa using hfirst), getD_charBits _ hfirst]
      simp [bitAt, Nat.div_eq_of_lt hfirst, Nat.mod_eq_of_lt hfirst]
    · rw [List.getD_append_right _ _ _ _ (by simpa using hfirst), length_charBits, ih]
      have hdiv : position / 8 = (position - 8) / 8 + 1 := by omega
      have hmod : position % 8 = (position - 8) % 8 := by omega
      rw [bitAt, bitAt, hdiv, hmod, List.getD_cons_succ]

theorem bitAt_of_length_le {buf : List UInt8} {position : Nat}
    (hposition : 8 * buf.length ≤ position) : bitAt buf position = false := by
  rw [← getD_bufferBits, List.getD_eq_default _ _ (by simpa using hposition)]

theorem charBits_xor (c d : UInt8) :
    charBits (c ^^^ d) = List.zipWith xor (charBits c) (charBits d) := by
  simp [charBits, List.zipWith_map]

theorem bufferBits_xor (buf pattern : List UInt8) (hlength : pattern.length = buf.length) :
    bufferBits (List.zipWith (· ^^^ ·) buf pattern) =
      List.zipWith xor (bufferBits buf) (bufferBits pattern) := by
  induction buf generalizing pattern with
  | nil => rfl
  | cons curChar buf ih =>
    cases pattern with
    | nil => simp at hlength
    | cons error pattern =>
      have htail := ih pattern (by simpa using hlength)
      simp only [bufferBits] at htail
      rw [bufferBits, List.zipWith_cons_cons, List.flatMap_cons, htail, charBits_xor, bufferBits,
        List.flatMap_cons, bufferBits, List.flatMap_cons, List.zipWith_append (by simp)]

/-- A character that is not zero has a bit that is set. -/
theorem true_mem_charBits {curChar : UInt8} (hchar : curChar ≠ 0) : true ∈ charBits curChar := by
  by_contra hnone
  apply hchar
  apply UInt8.toBitVec_inj.mp
  apply BitVec.eq_of_getMsbD_eq
  intro bit hbit
  have hfalse : curChar.toBitVec.getMsbD bit ≠ true := by
    intro hset
    apply hnone
    rw [← hset]
    exact List.mem_map_of_mem (List.mem_range.mpr hbit)
  simpa using hfalse

theorem topBits_ne_zero (currentValue : UInt16) (curChar : UInt8) :
    topBits currentValue curChar ≠ 0 ↔
      (currentValue.toBitVec.msb ^^ curChar.toBitVec.msb) = true := by
  have hchar : curChar &&& 0x80 = if curChar.toBitVec.msb then 0x80 else 0 := by
    apply UInt8.toBitVec_inj.mp
    exact (BitVec.and_twoPow curChar.toBitVec 7).trans (by
      rw [BitVec.msb_eq_getLsbD_last]
      cases curChar.toBitVec.getLsbD 7 <;> rfl)
  have hvalue : currentValue &&& 0x8000 = if currentValue.toBitVec.msb then 0x8000 else 0 := by
    apply UInt16.toBitVec_inj.mp
    exact (BitVec.and_twoPow currentValue.toBitVec 15).trans (by
      rw [BitVec.msb_eq_getLsbD_last]
      cases currentValue.toBitVec.getLsbD 15 <;> rfl)
  rw [topBits, hchar, hvalue]
  cases curChar.toBitVec.msb <;> cases currentValue.toBitVec.msb <;> decide

/-- A round of the inner loop feeds the highest bit of the character. -/
theorem toBitVec_shiftBit (currentValue : UInt16) (curChar : UInt8) :
    (shiftBit currentValue curChar).toBitVec =
      ShiftRegister.feed ccitt currentValue.toBitVec curChar.toBitVec.msb := by
  have hadd : (if topBits currentValue curChar ≠ 0 then (0x1021 : UInt16) else 0).toBitVec =
      if currentValue.toBitVec.msb ^^ curChar.toBitVec.msb then ccitt else 0 := by
    simp only [topBits_ne_zero]
    split <;> rfl
  rw [shiftBit_eq, UInt16.toBitVec_xor, hadd]
  rfl

theorem toBitVec_shiftBits (currentValue : UInt16) (curChar : UInt8) (bits : Nat) :
    (shiftBits currentValue curChar bits).toBitVec =
      ShiftRegister.feedAll ccitt currentValue.toBitVec
        ((List.range bits).map curChar.toBitVec.getMsbD) := by
  induction bits generalizing currentValue curChar with
  | zero => rfl
  | succ bits ih =>
    have hshift : (curChar <<< 1).toBitVec.getMsbD =
        curChar.toBitVec.getMsbD ∘ Nat.succ := by
      funext bit
      exact BitVec.getMsbD_shiftLeft _ 1
    rw [shiftBits, ih, toBitVec_shiftBit, hshift, List.range_succ_eq_map, List.map_cons,
      List.map_map, ShiftRegister.feedAll_cons, BitVec.msb_eq_getMsbD_zero]

theorem toBitVec_computeCrc (buf : List UInt8) (initialValue : UInt16) :
    (computeCrc buf initialValue).toBitVec =
      ShiftRegister.feedAll ccitt initialValue.toBitVec (bufferBits buf) := by
  induction buf generalizing initialValue with
  | nil => rfl
  | cons curChar buf ih =>
    rw [bufferBits, List.flatMap_cons, ShiftRegister.feedAll_append, charBits,
      ← toBitVec_shiftBits]
    exact ih _

/-- Both CRCs detect every burst of at most 16 bits. -/
theorem crc_detects_burst (buf pattern : List UInt8) (initialValue : UInt16) (start : Nat)
    (hlength : pattern.length = buf.length) (herror : ∃ error ∈ pattern, error ≠ 0)
    (hburst : ∀ position, bitAt pattern position = true →
      start ≤ position ∧ position < start + 16) :
    computeCrc (List.zipWith (· ^^^ ·) buf pattern) initialValue ≠ computeCrc buf initialValue ∧
      CRC.new.computeCRC (List.zipWith (· ^^^ ·) buf pattern) initialValue ≠
        CRC.new.computeCRC buf initialValue := by
  have hset : true ∈ bufferBits pattern := by
    obtain ⟨error, hmem, hnonzero⟩ := herror
    exact List.mem_flatMap.mpr ⟨error, hmem, true_mem_charBits hnonzero⟩
  have hdiffer : computeCrc (List.zipWith (· ^^^ ·) buf pattern) initialValue ≠
      computeCrc buf initialValue := by
    intro hsame
    have hbits := congrArg UInt16.toBitVec hsame
    rw [toBitVec_computeCrc, toBitVec_computeCrc, bufferBits_xor _ _ hlength] at hbits
    have hstretch (position : Nat) (hposition : (bufferBits pattern).getD position false = true) :
        start ≤ position ∧ position < start + 16 := by
      rw [getD_bufferBits] at hposition
      exact hburst position hposition
    exact ShiftRegister.feedAll_ne_of_stretch (by decide) initialValue.toBitVec (by simp [hlength])
      hstretch hset hbits
  exact ⟨hdiffer, by rwa [computeCRC_eq_computeCrc, computeCRC_eq_computeCrc]⟩

/-- A burst of 16 bits that straddles three characters. -/
theorem crc_detects_burst_straddling :
    computeCrc (List.zipWith (· ^^^ ·) [0x31, 0x32, 0x33] [0x01, 0xFF, 0xFE]) 0xFFFF ≠
        computeCrc [0x31, 0x32, 0x33] 0xFFFF ∧
      CRC.new.computeCRC (List.zipWith (· ^^^ ·) [0x31, 0x32, 0x33] [0x01, 0xFF, 0xFE]) 0xFFFF ≠
        CRC.new.computeCRC [0x31, 0x32, 0x33] 0xFFFF := by
  refine crc_detects_burst _ _ _ 7 rfl ⟨0x01, by decide, by decide⟩ ?_
  have hpositions : ∀ position < 24, bitAt [0x01, 0xFF, 0xFE] position = true →
      7 ≤ position ∧ position < 7 + 16 := by decide
  intro position hset
  by_cases hinside : position < 24
  · exact hpositions position hinside hset
  · rw [bitAt_of_length_le (by simpa using hinside)] at hset
    exact absurd hset Bool.false_ne_true

end Rodos.Support
