import Rodos.Gateway.NetworkMessage
import Rodos.Library.InjectiveFold

/-! One changed byte of a message is always noticed: the checksum keeps every difference that has
once come into it. -/
namespace Rodos.Gateway
open Library

theorem toNat_rotateRight (c : UInt16) :
    (rotateRight c).toNat = c.toNat / 2 + 2 ^ 15 * (c.toNat % 2) := by
  have hlt := c.toNat_lt
  have hhalf : (c >>> 1).toNat = c.toNat / 2 := by
    rw [UInt16.toNat_shiftRight]
    exact Nat.shiftRight_eq_div_pow _ 1
  have hbit : (c &&& 0x01).toNat = c.toNat % 2 := by
    rw [UInt16.toNat_and]
    exact Nat.and_one_is_mod _
  have hiff : c &&& 0x01 ≠ 0 ↔ c.toNat % 2 ≠ 0 := by
    rw [← hbit, ne_eq, ← UInt16.toNat_inj]
    rfl
  unfold rotateRight
  split
  · next hset =>
    have hodd : c.toNat % 2 = 1 := by
      have := hiff.mp hset
      omega
    have hsmall : c.toNat / 2 < 2 ^ 15 := by omega
    rw [UInt16.toNat_or, hhalf, hodd, Nat.or_comm, Nat.add_comm]
    exact (Nat.two_pow_add_eq_or_of_lt hsmall 1).symm
  · next hclear =>
    have heven : c.toNat % 2 = 0 := by
      by_contra hodd
      exact hclear (hiff.mpr hodd)
    rw [hhalf, heven, Nat.mul_zero, Nat.add_zero]

theorem rotateRight_injective : Function.Injective rotateRight := by
  intro left right hsame
  have hnat := congrArg UInt16.toNat hsame
  rw [toNat_rotateRight, toNat_rotateRight] at hnat
  have hleft := left.toNat_lt
  have hright := right.toNat_lt
  apply UInt16.toNat_inj.mp
  omega

theorem toUInt16_injective : Function.Injective UInt8.toUInt16 := by
  intro left right hsame
  have hnat := congrArg UInt16.toNat hsame
  rw [UInt8.toNat_toUInt16, UInt8.toNat_toUInt16] at hnat
  exact UInt8.toNat_inj.mp hnat

theorem checkSum_ne_of_differOnce {left right : List UInt8} (hdiffer : DifferOnce left right) :
    checkSum left ≠ checkSum right := by
  apply foldl_ne_of_differOnce _ _ hdiffer
  · intro byte c d hsame
    exact rotateRight_injective ((UInt16.add_left_inj _).mp hsame)
  · intro c byte other hsame
    exact toUInt16_injective ((UInt16.add_right_inj _).mp hsame)

/-- Storing another value in one cell of a slice. -/
theorem differOnce_slice_store {memory : Memory UInt8} {start stop index : Nat} {value : UInt8}
    (hlow : start ≤ index) (hhigh : index < stop) (hvalue : value ≠ memory index) :
    DifferOnce ((memory.store index value).slice start stop) (memory.slice start stop) := by
  refine @differOnce_of_index _ _ _ (index - start) ?_ ?_ ?_
  · simp [Memory.slice]
  · rw [Memory.getElem?_slice, Memory.getElem?_slice, if_pos (by omega), if_pos (by omega),
      Nat.add_sub_cancel' hlow, Memory.store_same]
    simpa using hvalue
  · intro other hother
    rw [Memory.getElem?_slice, Memory.getElem?_slice, Memory.store_other _ _ (by omega)]

/-- A byte of a message, by its index in the header or in the user data. -/
inductive MessageByte where
  | header (index : Nat)
  | userData (index : Nat)

namespace NetworkMessage

def byte (self : NetworkMessage) : MessageByte → UInt8
  | .header index => self.header index
  | .userData index => self.userDataC index

def change (self : NetworkMessage) (value : UInt8) : MessageByte → NetworkMessage
  | .header index => { self with header := self.header.store index value }
  | .userData index => { self with userDataC := self.userDataC.store index value }

/-- The checksum covers the byte, and it is not one of the length field. -/
def Covers (self : NetworkMessage) : MessageByte → Prop
  | .header index => 12 ≤ index ∧ index < HEADER_SIZE ∧ index ≠ 14 ∧ index ≠ 15
  | .userData index => index < self.getLen.toNat

variable {self : NetworkMessage} {value : UInt8} {place : MessageByte}

theorem getLen_change (hcovers : self.Covers place) :
    (self.change value place).getLen = self.getLen := by
  cases place with
  | userData index => rfl
  | header index =>
    obtain ⟨_, _, _, _⟩ := hcovers
    exact getLen_of_cells fun _ _ _ => Memory.store_other _ _ (by omega)

theorem getChecksum_change (hcovers : self.Covers place) :
    (self.change value place).getChecksum = self.getChecksum := by
  cases place with
  | userData index => rfl
  | header index =>
    obtain ⟨_, _, _, _⟩ := hcovers
    exact getChecksum_of_cells fun _ _ _ => Memory.store_other _ _ (by omega)

theorem calculateCheckSum_change (hcovers : self.Covers place) (hvalue : value ≠ self.byte place) :
    (self.change value place).calculateCheckSum ≠ self.calculateCheckSum := by
  rw [calculateCheckSum, calculateCheckSum, getLen_change hcovers]
  apply checkSum_ne_of_differOnce
  cases place with
  | header index =>
    obtain ⟨hlow, hhigh, _, _⟩ := hcovers
    exact (differOnce_slice_store hlow hhigh hvalue).append_right _
  | userData index =>
    exact (differOnce_slice_store (Nat.zero_le index) hcovers hvalue).append_left _

end NetworkMessage

open NetworkMessage

/-- A message with a correct checksum has none after a change of one byte that it covers, and byte
strings of one length that differ in one byte have different checksums. -/
theorem checkSum_detects_one_byte :
    (∀ (message : NetworkMessage) (place : MessageByte) (value : UInt8),
      message.getLen.toNat ≤ MAX_NETWORK_MESSAGE_LENGTH → message.isCheckSumOk →
      message.Covers place → value ≠ message.byte place →
      (message.change value place).isCheckSumOk = false) ∧
    ∀ (left right : List UInt8) (index : Nat), left.length = right.length →
      left[index]? ≠ right[index]? →
      (∀ other, other ≠ index → left[other]? = right[other]?) →
      checkSum left ≠ checkSum right := by
  constructor
  · intro message place value _ hchecked hcovers hvalue
    have hchecksum : message.calculateCheckSum = message.getChecksum := by
      simpa [isCheckSumOk] using hchecked
    have hchanged := calculateCheckSum_change hcovers hvalue
    rw [isCheckSumOk, getChecksum_change hcovers, ← hchecksum]
    exact beq_eq_false_iff_ne.mpr hchanged
  · intro left right index hlength hdiffers hothers
    exact checkSum_ne_of_differOnce (differOnce_of_index hlength hdiffers hothers)

theorem checkSum_detects_changed_two :
    ((⟨fun index => if index = 15 then 2 else 0, fun _ => 5⟩ : NetworkMessage).setCheckSum.change 6
      (.userData 1)).isCheckSumOk = false ∧ checkSum [1, 2] ≠ checkSum [1, 3] := by
  constructor
  · apply checkSum_detects_one_byte.1
    · decide
    · exact isCheckSumOk_setCheckSum _
    · show 1 < _
      decide
    · decide
  · apply checkSum_detects_one_byte.2 [1, 2] [1, 3] 1 rfl (by decide)
    rintro (_ | _ | other) hother
    · rfl
    · exact absurd rfl hother
    · rfl

end Rodos.Gateway
