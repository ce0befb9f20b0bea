import Rodos.Library.Logged
import Rodos.Support.StreamBytesex

/-! What setting and getting a bit field accesses, and fields beside each other. The functions for
single bits are bit fields of width one. -/
namespace Rodos.Support
open Library

section accesses

/-- `wordAt`, with each byte that is read in the log. -/
def wordAtLogged (buffer : Logged UInt8) (byteIndex used : Nat) : UInt32 × Logged UInt8 :=
  let (byte, buffer) := buffer.load byteIndex
  let word := byte.toUInt32 <<< 16
  let (word, buffer) :=
    if used > 8 then
      let (byte, buffer) := buffer.load (byteIndex + 1)
      (word ||| byte.toUInt32 <<< 8, buffer)
    else (word, buffer)
  if used > 16 then
    let (byte, buffer) := buffer.load (byteIndex + 2)
    (word ||| byte.toUInt32, buffer)
  else (word, buffer)

/-- `setBitField`, with each byte that is read or written in the log. -/
def setBitFieldLogged (buffer : Logged UInt8) (start bitPos : Nat) (numOfBits : UInt8)
    (val : UInt32) : Logged UInt8 :=
  let byteIndex := start + bitPos / 8
  let used := bitPos % 8 + numOfBits.toNat
  let shifts : UInt8 := 24 - UInt8.ofNat used
  let mask := uint32_tOnes numOfBits <<< shifts.toUInt32
  let val := val <<< shifts.toUInt32
  let (word, buffer) := wordAtLogged buffer byteIndex used
  let word := (word &&& ~~~mask) ||| (mask &&& val)
  let buffer := buffer.store byteIndex (word >>> 16).toUInt8
  let buffer := if used > 8 then buffer.store (byteIndex + 1) (word >>> 8).toUInt8 else buffer
  if used > 16 then buffer.store (byteIndex + 2) word.toUInt8 else buffer

def getBitFieldLogged (buffer : Logged UInt8) (start bitPos : Nat) (numOfBits : UInt8) :
    UInt32 × Logged UInt8 :=
  let byteIndex := start + bitPos / 8
  let used := bitPos % 8 + numOfBits.toNat
  let shifts : UInt8 := 24 - UInt8.ofNat used
  let (word, buffer) := wordAtLogged buffer byteIndex used
  ((word >>> shifts.toUInt32) &&& uint32_tOnes numOfBits, buffer)

variable {buffer : Logged UInt8} {allowed : Nat → Prop} (start bitPos : Nat) (numOfBits : UInt8)

theorem wordAtLogged_fst (buffer : Logged UInt8) (byteIndex used : Nat) :
    (wordAtLogged buffer byteIndex used).1 = wordAt buffer.cells byteIndex used := by
  unfold wordAtLogged wordAt
  by_cases hsecond : used > 8 <;> by_cases hthird : used > 16 <;> simp [hsecond, hthird]

theorem cells_wordAtLogged (buffer : Logged UInt8) (byteIndex used : Nat) :
    (wordAtLogged buffer byteIndex used).2.cells = buffer.cells := by
  unfold wordAtLogged
  by_cases hsecond : used > 8 <;> by_cases hthird : used > 16 <;> simp [hsecond, hthird]

/-- The log of a field that uses so many bits from the start of its first byte on. -/
theorem wordAtLogged_within (hwithin : buffer.Within allowed) {byteIndex used : Nat}
    (hfirst : allowed byteIndex) (hsecond : used > 8 → allowed (byteIndex + 1))
    (hthird : used > 16 → allowed (byteIndex + 2)) :
    (wordAtLogged buffer byteIndex used).2.Within allowed := by
  unfold wordAtLogged
  by_cases hmiddle : used > 8 <;> by_cases hlast : used > 16 <;>
    simp only [hmiddle, hlast, if_true, if_false]
  · exact ((hwithin.load hfirst).load (hsecond hmiddle)).load (hthird hlast)
  · exact (hwithin.load hfirst).load (hsecond hmiddle)
  · exact (hwithin.load hfirst).load (hthird hlast)
  · exact hwithin.load hfirst

theorem cells_setBitFieldLogged (buffer : Logged UInt8) (val : UInt32) :
    (setBitFieldLogged buffer start bitPos numOfBits val).cells =
      setBitField buffer.cells start bitPos numOfBits val := by
  unfold setBitFieldLogged setBitField
  simp only [wordAtLogged_fst]
  split <;> split <;> simp [cells_wordAtLogged]

theorem getBitFieldLogged_fst (buffer : Logged UInt8) :
    (getBitFieldLogged buffer start bitPos numOfBits).1 =
      getBitField buffer.cells start bitPos numOfBits := by
  unfold getBitFieldLogged getBitField
  simp only [wordAtLogged_fst]

/-- The byte holds a bit of the field. -/
def Overlaps (start bitPos width index : Nat) : Prop :=
  8 * index < 8 * start + bitPos + width ∧ 8 * start + bitPos < 8 * (index + 1)

theorem setBitFieldLogged_within (hn : 1 ≤ numOfBits.toNat)
    (hwithin : buffer.Within (Overlaps start bitPos numOfBits.toNat)) (val : UInt32) :
    (setBitFieldLogged buffer start bitPos numOfBits val).Within
      (Overlaps start bitPos numOfBits.toNat) := by
  have hfirst : Overlaps start bitPos numOfBits.toNat (start + bitPos / 8) := by
    constructor <;> omega
  have hsecond (hused : bitPos % 8 + numOfBits.toNat > 8) :
      Overlaps start bitPos numOfBits.toNat (start + bitPos / 8 + 1) := by
    constructor <;> omega
  have hthird (hused : bitPos % 8 + numOfBits.toNat > 16) :
      Overlaps start bitPos numOfBits.toNat (start + bitPos / 8 + 2) := by
    constructor <;> omega
  have hread := wordAtLogged_within hwithin hfirst hsecond hthird
  unfold setBitFieldLogged
  dsimp only
  split
  next hlast =>
    rw [if_pos (by omega)]
    exact ((hread.store hfirst).store (hsecond (by omega))).store (hthird hlast)
  next =>
    split
    next hmiddle => exact (hread.store hfirst).store (hsecond hmiddle)
    next => exact hread.store hfirst

theorem getBitFieldLogged_within (hn : 1 ≤ numOfBits.toNat)
    (hwithin : buffer.Within (Overlaps start bitPos numOfBits.toNat)) :
    (getBitFieldLogged buffer start bitPos numOfBits).2.Within
      (Overlaps start bitPos numOfBits.toNat) := by
  unfold getBitFieldLogged
  apply wordAtLogged_within hwithin
  · constructor <;> omega
  · intro hused
    constructor <;> omega
  · intro hused
    constructor <;> omega

end accesses

section singleBits

/-- The `int` operations on bits are those on words of 32 bits. -/
def setBitInByteStream (byteStream : Memory UInt8) (start : Nat) (bitIndex : Int) (value : Bool) :
    Memory UInt8 :=
  let byteIndex := ((start : Int) + bitIndex.tdiv 8).toNat
  let bitPos := bitIndex.tmod 8
  let bit : UInt32 := 0x1 <<< UInt32.ofNat (7 - bitPos).toNat
  if value then
    byteStream.store byteIndex ((byteStream byteIndex).toUInt32 ||| bit).toUInt8
  else
    byteStream.store byteIndex ((byteStream byteIndex).toUInt32 &&& ~~~bit).toUInt8

def getBitFromByteStream (byteStream : Memory UInt8) (start : Nat) (bitIndex : Int) : UInt32 :=
  let selectedByte := byteStream ((start : Int) + bitIndex.tdiv 8).toNat
  (selectedByte.toUInt32 >>> UInt32.ofNat (7 - bitIndex.tmod 8).toNat) &&& 0x01

variable (buffer : Memory UInt8) (start bitPos : Nat)

theorem byteIndex_eq :
    ((start : Int) + (bitPos : Int).tdiv 8).toNat = start + bitPos / 8 := by
  rw [Int.tdiv_eq_ediv_of_nonneg (by omega)]
  omega

theorem toNat_bitShift : (UInt32.ofNat (7 - (bitPos : Int).tmod 8).toNat).toNat =
    7 - bitPos % 8 := by
  rw [Int.tmod_eq_emod_of_nonneg (by omega),
    UInt32.toNat_ofNat_of_lt' (Nat.lt_trans (by omega : _ < 8) (by decide))]
  omega

theorem testBit_one (j : Nat) : Nat.testBit 1 j = decide (j = 0) := by
  cases j with
  | zero => rfl
  | succ j => rw [Nat.testBit_succ]; simp

theorem testBit_bit {shift : UInt32} (hshift : shift.toNat < 8) {j : Nat} (hj : j < 8) :
    ((0x1 : UInt32) <<< shift).toNat.testBit j = decide (j = shift.toNat) := by
  rw [testBit_shiftLeft _ (by omega) (by omega)]
  change (decide (shift.toNat ≤ j) && Nat.testBit 1 (j - shift.toNat)) = _
  rw [testBit_one, ← Bool.decide_and]
  exact decide_eq_decide.mpr (by omega)

theorem testBit_narrowed (word : UInt32) {j : Nat} (hj : j < 8) :
    word.toUInt8.toNat.testBit j = word.toNat.testBit j := by
  have hnarrow : word.toUInt8.toNat = word.toNat % 2 ^ 8 := UInt32.toNat_toUInt8 _
  rw [hnarrow, Nat.testBit_mod_two_pow]
  simp [hj]

/-- Setting a bit writes that bit. -/
theorem bits_setBitInByteStream (value : Bool) :
    (setBitInByteStream buffer start bitPos value).bits =
      buffer.bits.write (8 * start + bitPos) 1 value.toNat := by
  have hshift := toNat_bitShift bitPos
  funext i
  unfold setBitInByteStream
  simp only [byteIndex_eq]
  set byteIndex := start + bitPos / 8 with hbyteIndex
  by_cases hbyte : i / 8 = byteIndex
  · obtain ⟨j, hj, rfl⟩ : ∃ j < 8, i = 8 * byteIndex + j := ⟨i % 8, by omega, by omega⟩
    have hset := testBit_bit (by omega : (UInt32.ofNat (7 - (bitPos : Int).tmod 8).toNat).toNat < 8)
      (by omega : 7 - j < 8)
    have hmask : decide (7 - j = (UInt32.ofNat (7 - (bitPos : Int).tmod 8).toNat).toNat) =
        decide (8 * byteIndex + j = 8 * start + bitPos) := decide_eq_decide.mpr (by omega)
    cases value with
    | true =>
      rw [if_pos rfl, Memory.bits_byte _ _ hj, Memory.store_same, testBit_narrowed _ (by omega),
        UInt32.toNat_or, Nat.testBit_or, hset, hmask, UInt8.toNat_toUInt32,
        ← Memory.bits_byte _ _ hj]
      by_cases hthis : 8 * byteIndex + j = 8 * start + bitPos
      · rw [hthis, Bits.write_inside (by omega) (by omega)]
        simp
      · rw [Bits.write_outside (by omega)]
        simp [hthis]
    | false =>
      rw [if_neg Bool.false_ne_true, Memory.bits_byte _ _ hj, Memory.store_same,
        testBit_narrowed _ (by omega), testBit_and_not _ _ (by omega), hset, hmask,
        UInt8.toNat_toUInt32, ← Memory.bits_byte _ _ hj]
      by_cases hthis : 8 * byteIndex + j = 8 * start + bitPos
      · rw [hthis, Bits.write_inside (by omega) (by omega)]
        simp
      · rw [Bits.write_outside (by omega)]
        simp [hthis]
  · rw [Bits.write_outside (by omega)]
    apply Memory.bits_congr
    split <;> exact Memory.store_other _ _ hbyte

theorem toNat_getBitFromByteStream :
    (getBitFromByteStream buffer start bitPos).toNat = buffer.bits.read (8 * start + bitPos) 1 := by
  have hshift := toNat_bitShift bitPos
  refine Nat.eq_of_testBit_eq fun j => ?_
  unfold getBitFromByteStream
  rw [byteIndex_eq, UInt32.toNat_and, Nat.testBit_and, testBit_shiftRight _ (by omega), hshift,
    UInt8.toNat_toUInt32, Bits.testBit_read]
  change (_ && Nat.testBit 1 j) = _
  rw [testBit_one]
  by_cases hj : j = 0
  · subst hj
    have hbit := Memory.bits_byte buffer (start + bitPos / 8) (by omega : bitPos % 8 < 8)
    have hposition : 8 * (start + bitPos / 8) + bitPos % 8 = 8 * start + bitPos := by omega
    rw [hposition] at hbit
    simp [hbit]
  · simp [hj]

end singleBits

/-- A field of width one is the bit that the functions for single bits set and get. -/
theorem single_bit_field (buffer : Memory UInt8) (start bitPos : Nat) :
    (∀ value : Bool, setBitField buffer start bitPos 1 (if value then 1 else 0) =
      setBitInByteStream buffer start bitPos value) ∧
    getBitField buffer start bitPos 1 = getBitFromByteStream buffer start bitPos := by
  constructor
  · intro value
    apply Memory.eq_of_bits_eq
    rw [bits_setBitField buffer start bitPos (by decide), bits_setBitInByteStream]
    cases value <;> rfl
  · apply UInt32.toNat_inj.mp
    rw [toNat_getBitField buffer start bitPos (by decide), toNat_getBitFromByteStream]
    rfl

/-- A field of up to 16 bits is read as it has been written, the bits around it stay, no byte
beside it is accessed, and fields that share no bit can be written in any order. -/
theorem bit_field_exact (buffer : Memory UInt8) (start bitPos : Nat) {numOfBits : UInt8}
    (hlow : 1 ≤ numOfBits.toNat) (hhigh : numOfBits.toNat ≤ 16) (val : UInt32) :
    (getBitField (setBitField buffer start bitPos numOfBits val) start bitPos numOfBits).toNat =
        val.toNat % 2 ^ numOfBits.toNat ∧
      (∀ i, i < 8 * start + bitPos ∨ 8 * start + bitPos + numOfBits.toNat ≤ i →
        (setBitField buffer start bitPos numOfBits val).bits i = buffer.bits i) ∧
      ((setBitFieldLogged ⟨buffer, []⟩ start bitPos numOfBits val).cells =
          setBitField buffer start bitPos numOfBits val ∧
        (setBitFieldLogged ⟨buffer, []⟩ start bitPos numOfBits val).Within
          (Overlaps start bitPos numOfBits.toNat)) ∧
      ((getBitFieldLogged ⟨buffer, []⟩ start bitPos numOfBits).1 =
          getBitField buffer start bitPos numOfBits ∧
        (getBitFieldLogged ⟨buffer, []⟩ start bitPos numOfBits).2.Within
          (Overlaps start bitPos numOfBits.toNat)) ∧
      (∀ (otherPos : Nat) (otherBits : UInt8) (otherVal : UInt32),
        1 ≤ otherBits.toNat → otherBits.toNat ≤ 16 →
        bitPos + numOfBits.toNat ≤ otherPos ∨ otherPos + otherBits.toNat ≤ bitPos →
        setBitField (setBitField buffer start bitPos numOfBits val) start otherPos otherBits
            otherVal =
          setBitField (setBitField buffer start otherPos otherBits otherVal) start bitPos numOfBits
            val) ∧
      (∀ value : Bool, setBitField buffer start bitPos 1 (if value then 1 else 0) =
        setBitInByteStream buffer start bitPos value) ∧
      getBitField buffer start bitPos 1 = getBitFromByteStream buffer start bitPos := by
  refine ⟨?_, ?_, ⟨?_, ?_⟩, ⟨?_, ?_⟩, ?_, single_bit_field buffer start bitPos⟩
  · rw [toNat_getBitField _ _ _ hhigh, bits_setBitField _ _ _ hhigh, Bits.read_write]
  · intro i houtside
    rw [bits_setBitField _ _ _ hhigh, Bits.write_outside houtside]
  · exact cells_setBitFieldLogged start bitPos numOfBits ⟨buffer, []⟩ val
  · exact setBitFieldLogged_within start bitPos numOfBits hlow (Logged.within_fresh buffer) val
  · exact getBitFieldLogged_fst start bitPos numOfBits ⟨buffer, []⟩
  · exact getBitFieldLogged_within start bitPos numOfBits hlow (Logged.within_fresh buffer)
  · intro otherPos otherBits otherVal _ hother hdisjoint
    apply Memory.eq_of_bits_eq
    rw [bits_setBitField _ _ _ hother, bits_setBitField _ _ _ hhigh, bits_setBitField _ _ _ hhigh,
      bits_setBitField _ _ _ hother]
    exact Bits.write_comm buffer.bits (by omega)

/-- Thirteen bits of all ones from bit 7 on, in three bytes. -/
theorem bit_field_exact_threeBytes :
    (getBitField (setBitField (fun _ => 0x55) 0 7 13 0xFFFFFFFF) 0 7 13).toNat = 0x1FFF :=
  (bit_field_exact (fun _ => 0x55) 0 7 (by decide) (by decide) 0xFFFFFFFF).1.trans (by decide)

end Rodos.Support
