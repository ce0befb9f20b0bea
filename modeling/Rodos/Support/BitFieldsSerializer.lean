import Rodos.Support.StreamBytesex
import Mathlib.Data.List.Forall2

/-! `bitFieldsSerializer`: from a list of fields, by their numbers of bits, to the statements of a
serializer and a deserializer, and what these do to a buffer. -/
namespace Rodos.Support.BitFieldsSerializer
open Library

/-- The type that a member of the class has: `uint8_t`, `uint16_t` or `uint32_t`. -/
def memberBits (numOfBits : Nat) : Nat :=
  if numOfBits ≤ 8 then 8 else if numOfBits ≤ 16 then 16 else 32

/-- The statement for a field: `buf[_]`, `uint16_tToBigEndian`, `uint32_tToBigEndian` or
`setBitField`, and the same when it is read. -/
inductive Access where
  | byte (index : Nat)
  | uint16_t (offset : Nat)
  | uint32_t (offset : Nat)
  | bitField (bitPos numOfBits : Nat)
deriving DecidableEq

def access (bitCnt numOfBits : Nat) : Access :=
  if numOfBits = 8 ∧ bitCnt % 8 = 0 then .byte (bitCnt / 8)
  else if numOfBits = 16 ∧ bitCnt % 8 = 0 then .uint16_t (bitCnt / 8)
  else if numOfBits = 32 ∧ bitCnt % 8 = 0 then .uint32_t (bitCnt / 8)
  else .bitField bitCnt numOfBits

/-- The loop over the fields, for the serializer and for the deserializer. -/
def generate (bitCnt : Nat) : List Nat → List Access
  | [] => []
  | numOfBits :: fields => access bitCnt numOfBits :: generate (bitCnt + numOfBits) fields

namespace Access

/-- The statement of the serializer, for a member of some value. -/
def serialize (buf : Memory UInt8) (value : UInt32) : Access → Memory UInt8
  | .byte index => buf.store index value.toUInt8
  | .uint16_t offset => buf.storeBigEndian offset 2 value.toUInt16.toNat
  | .uint32_t offset => buf.storeBigEndian offset 4 value.toNat
  | .bitField bitPos numOfBits => setBitField buf 0 bitPos (UInt8.ofNat numOfBits) value

/-- The value that the statement of the deserializer gives the member, with its cast. -/
def deserialize (buf : Memory UInt8) : Access → UInt32
  | .byte index => (buf index).toUInt32
  | .uint16_t offset => UInt32.ofNat (buf.loadBigEndian offset 2)
  | .uint32_t offset => UInt32.ofNat (buf.loadBigEndian offset 4)
  | .bitField bitPos numOfBits =>
    let value := getBitField buf 0 bitPos (UInt8.ofNat numOfBits)
    if numOfBits ≤ 8 then value.toUInt8.toUInt32
    else if numOfBits ≤ 16 then value.toUInt16.toUInt32
    else value

end Access

/-- The generated `serialize`: the statements one after the other. -/
def serialize (buf : Memory UInt8) : List Access → List UInt32 → Memory UInt8
  | access :: accesses, value :: values => serialize (access.serialize buf value) accesses values
  | _, _ => buf

/-- The generated `deserialize`, by the values of the members. -/
def deserialize (buf : Memory UInt8) (accesses : List Access) : List UInt32 :=
  accesses.map (Access.deserialize buf)

/-- Values that the members of the class can have. -/
def Members (fields : List Nat) (values : List UInt32) : Prop :=
  List.Forall₂ (fun numOfBits value => value.toNat < 2 ^ memberBits numOfBits) fields values

def RoundTrips (fields : List Nat) : Prop :=
  ∀ values, Members fields values → ∀ buf,
    deserialize (serialize buf (generate 0 fields) values) (generate 0 fields) =
      List.zipWith (fun numOfBits value => UInt32.ofNat (value.toNat % 2 ^ numOfBits)) fields values

/-- A field is a word of 32 bits at the beginning of a byte, or ends in the third byte from its
first bit on. -/
def FitsAt (bitCnt numOfBits : Nat) : Prop :=
  numOfBits = 32 ∧ bitCnt % 8 = 0 ∨ bitCnt % 8 + numOfBits ≤ 24

def FitsFrom (bitCnt : Nat) : List Nat → Prop
  | [] => True
  | numOfBits :: fields => FitsAt bitCnt numOfBits ∧ FitsFrom (bitCnt + numOfBits) fields

instance (bitCnt numOfBits : Nat) : Decidable (FitsAt bitCnt numOfBits) :=
  inferInstanceAs (Decidable (_ ∨ _))

def decideFitsFrom : (bitCnt : Nat) → (fields : List Nat) → Decidable (FitsFrom bitCnt fields)
  | _, [] => .isTrue trivial
  | bitCnt, numOfBits :: fields =>
    @instDecidableAnd _ _ _ (decideFitsFrom (bitCnt + numOfBits) fields)

instance (bitCnt : Nat) (fields : List Nat) : Decidable (FitsFrom bitCnt fields) :=
  decideFitsFrom bitCnt fields

theorem aligned_eq {bitCnt : Nat} (hzero : bitCnt % 8 = 0) : 8 * (bitCnt / 8) = bitCnt := by
  omega

theorem toNat_ofNat_width {numOfBits : Nat} (hwidth : numOfBits ≤ 32) :
    (UInt8.ofNat numOfBits).toNat = numOfBits :=
  UInt8.toNat_ofNat_of_lt' (Nat.lt_of_le_of_lt hwidth (by decide))

/-- A field in place that is no aligned word ends in the third byte. -/
theorem reach_le {bitCnt numOfBits : Nat} (hfits : FitsAt bitCnt numOfBits)
    (hwidth : numOfBits ≤ 32) (hword : ¬ (numOfBits = 32 ∧ bitCnt % 8 = 0)) :
    bitCnt % 8 + (UInt8.ofNat numOfBits).toNat ≤ 24 := by
  rw [toNat_ofNat_width hwidth]
  exact hfits.resolve_left hword

theorem bits_serialize_access {bitCnt numOfBits : Nat} (hfits : FitsAt bitCnt numOfBits)
    (hwidth : numOfBits ≤ 32) (buf : Memory UInt8) (value : UInt32) :
    ((access bitCnt numOfBits).serialize buf value).bits =
      buf.bits.write bitCnt numOfBits value.toNat := by
  unfold access
  split_ifs with hbyte hhalf hword
  · obtain ⟨rfl, hzero⟩ := hbyte
    have hcast : value.toUInt8.toNat = value.toNat % 2 ^ 8 := UInt32.toNat_toUInt8 value
    rw [Access.serialize, Memory.bits_store, aligned_eq hzero, hcast, Bits.write_mod]
  · obtain ⟨rfl, hzero⟩ := hhalf
    have hcast : value.toUInt16.toNat = value.toNat % 2 ^ (8 * 2) := UInt32.toNat_toUInt16 value
    rw [Access.serialize, Memory.bits_storeBigEndian, aligned_eq hzero, hcast, Bits.write_mod]
  · obtain ⟨rfl, hzero⟩ := hword
    rw [Access.serialize, Memory.bits_storeBigEndian, aligned_eq hzero]
  · rw [Access.serialize,
      bits_setBitField_of_threeBytes buf 0 bitCnt (reach_le hfits hwidth hword),
      toNat_ofNat_width hwidth, Nat.mul_zero, Nat.zero_add]

/-- The cast to the type of a member keeps a value of the width of the field. -/
theorem cast_eq {numOfBits : Nat} {value : UInt32} (hvalue : value.toNat < 2 ^ numOfBits) :
    (if numOfBits ≤ 8 then value.toUInt8.toUInt32
      else if numOfBits ≤ 16 then value.toUInt16.toUInt32 else value) = value := by
  split_ifs with hbyte hhalf
  · have hsmall : value.toNat < 2 ^ 8 :=
      Nat.lt_of_lt_of_le hvalue (Nat.pow_le_pow_right (by decide) hbyte)
    apply UInt32.toNat_inj.mp
    rw [UInt8.toNat_toUInt32, UInt32.toNat_toUInt8, Nat.mod_eq_of_lt hsmall]
  · have hsmall : value.toNat < 2 ^ 16 :=
      Nat.lt_of_lt_of_le hvalue (Nat.pow_le_pow_right (by decide) hhalf)
    apply UInt32.toNat_inj.mp
    rw [UInt16.toNat_toUInt32, UInt32.toNat_toUInt16, Nat.mod_eq_of_lt hsmall]
  · rfl

theorem deserialize_access {bitCnt numOfBits : Nat} (hfits : FitsAt bitCnt numOfBits)
    (hwidth : numOfBits ≤ 32) (buf : Memory UInt8) :
    (access bitCnt numOfBits).deserialize buf = UInt32.ofNat (buf.bits.read bitCnt numOfBits) := by
  unfold access
  split_ifs with hbyte hhalf hword
  · obtain ⟨rfl, hzero⟩ := hbyte
    have hread := Memory.read_byte buf (bitCnt / 8)
    rw [aligned_eq hzero] at hread
    rw [Access.deserialize, hread, UInt32.ofNat_uInt8ToNat]
  · obtain ⟨rfl, hzero⟩ := hhalf
    rw [Access.deserialize, Memory.loadBigEndian_eq_read, aligned_eq hzero]
  · obtain ⟨rfl, hzero⟩ := hword
    rw [Access.deserialize, Memory.loadBigEndian_eq_read, aligned_eq hzero]
  · have hread :=
      toNat_getBitField_of_threeBytes buf 0 bitCnt (reach_le hfits hwidth hword)
    rw [toNat_ofNat_width hwidth, Nat.mul_zero, Nat.zero_add] at hread
    have hlt := Bits.read_lt buf.bits bitCnt numOfBits
    rw [← hread] at hlt ⊢
    rw [Access.deserialize, UInt32.ofNat_toNat]
    exact cast_eq hlt

/-! ### All fields -/

/-- The fields with the values of their members. -/
def valued (fields : List Nat) (values : List UInt32) : List (Nat × Nat) :=
  fields.zip (values.map UInt32.toNat)

theorem bits_serialize {bitCnt : Nat} {fields : List Nat} (hfits : FitsFrom bitCnt fields)
    (hwidths : ∀ numOfBits ∈ fields, numOfBits ≤ 32) (buf : Memory UInt8) (values : List UInt32) :
    (serialize buf (generate bitCnt fields) values).bits =
      buf.bits.pack bitCnt (valued fields values) := by
  induction fields generalizing bitCnt buf values with
  | nil => rfl
  | cons numOfBits fields ih =>
    obtain ⟨hfirst, hrest⟩ := hfits
    cases values with
    | nil => rfl
    | cons value values =>
      rw [generate, serialize,
        ih hrest (fun later hlater => hwidths later (List.mem_cons_of_mem _ hlater)),
        bits_serialize_access hfirst (hwidths numOfBits List.mem_cons_self)]
      rfl

theorem deserialize_eq {bitCnt : Nat} {fields : List Nat} (hfits : FitsFrom bitCnt fields)
    (hwidths : ∀ numOfBits ∈ fields, numOfBits ≤ 32) (buf : Memory UInt8) :
    deserialize buf (generate bitCnt fields) =
      (buf.bits.unpack bitCnt fields).map UInt32.ofNat := by
  induction fields generalizing bitCnt with
  | nil => rfl
  | cons numOfBits fields ih =>
    obtain ⟨hfirst, hrest⟩ := hfits
    have hlater := ih hrest fun later hlater => hwidths later (List.mem_cons_of_mem _ hlater)
    rw [deserialize, generate, List.map_cons,
      deserialize_access hfirst (hwidths numOfBits List.mem_cons_self), Bits.unpack, List.map_cons,
      ← hlater, deserialize]

-- the fields of `bitFieldsSerializer-example.bf`
example : FitsFrom 0 [2, 4, 5, 6, 10, 5, 8, 8, 4, 4, 4, 8, 4, 8, 16, 32] := by decide

end Rodos.Support.BitFieldsSerializer
