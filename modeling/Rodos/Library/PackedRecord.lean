import Rodos.Library.BitMemory

/-! Records whose fields are packed into bytes, one behind the other: what is written is read again,
as far as it fits the widths of the fields. -/
namespace Rodos.Library

structure PackedRecord (Record : Type) where
  size : Nat
  widths : List Nat
  /-- The fields in their order, each with its width. -/
  fields : Record → List (Nat × Nat)
  ofValues : List Nat → Record
  serialize : Record → Memory UInt8 → Nat → Memory UInt8
  deserialize : Memory UInt8 → Nat → Record
  sum_widths : widths.sum = 8 * size
  map_fields : ∀ record, (fields record).map Prod.fst = widths
  ofValues_fields : ∀ record, ofValues ((fields record).map Prod.snd) = record
  bits_serialize : ∀ record buf start,
    (serialize record buf start).bits = buf.bits.pack (8 * start) (fields record)
  deserialize_eq : ∀ buf start,
    deserialize buf start = ofValues (buf.bits.unpack (8 * start) widths)

namespace PackedRecord

variable {Record : Type} (format : PackedRecord Record)

/-- Every field has a value that fits its width. -/
def Fits (record : Record) : Prop := ∀ field ∈ format.fields record, field.2 < 2 ^ field.1

/-- A record with its fields cut to their widths. -/
def cut (record : Record) : Record :=
  format.ofValues ((format.fields record).map fun field => field.2 % 2 ^ field.1)

variable {format} {buf other : Memory UInt8} {start : Nat}

theorem cut_eq {record short : Record}
    (hsame : ((format.fields record).map fun field => field.2 % 2 ^ field.1) =
      (format.fields short).map Prod.snd) : format.cut record = short := by
  rw [cut, hsame, format.ofValues_fields]

theorem cut_of_fits {record : Record} (hfits : format.Fits record) : format.cut record = record :=
  cut_eq (List.map_congr_left fun field hfield => Nat.mod_eq_of_lt (hfits field hfield))

theorem serialize_outside (record : Record) {index : Nat}
    (houtside : index < start ∨ start + format.size ≤ index) :
    format.serialize record buf start index = buf index := by
  refine Memory.eq_of_bits fun j hj => ?_
  rw [format.bits_serialize, Bits.pack_outside]
  rw [format.map_fields, format.sum_widths]
  omega

/-- Written again with other values at its end, a record keeps its first bytes. -/
theorem serialize_again {record again : Record} {front back newBack : List (Nat × Nat)}
    (hrecord : format.fields record = front ++ back)
    (hagain : format.fields again = front ++ newBack) {index : Nat}
    (hfront : 8 * index + 8 ≤ 8 * start + (front.map Prod.fst).sum) :
    format.serialize again (format.serialize record buf start) start index =
      format.serialize record buf start index := by
  refine Memory.eq_of_bits fun j hj => ?_
  have hfirst : (format.serialize record buf start).bits (8 * index + j) =
      buf.bits.pack (8 * start) front (8 * index + j) := by
    rw [format.bits_serialize, hrecord, Bits.pack_append]
    exact Bits.pack_outside (.inl (by omega))
  have hsecond : (format.serialize again (format.serialize record buf start) start).bits
        (8 * index + j) =
      (format.serialize record buf start).bits.pack (8 * start) front (8 * index + j) := by
    rw [format.bits_serialize again, hagain, Bits.pack_append]
    exact Bits.pack_outside (.inl (by omega))
  rw [hsecond]
  by_cases hinside : 8 * start ≤ 8 * index + j
  · rw [hfirst]
    exact Bits.pack_inside hinside (by omega)
  · exact Bits.pack_outside (.inl (by omega))

/-- A record is known by its own bytes. -/
theorem deserialize_congr
    (hsame : ∀ index, start ≤ index → index < start + format.size → buf index = other index) :
    format.deserialize buf start = format.deserialize other start := by
  rw [format.deserialize_eq, format.deserialize_eq]
  refine congrArg format.ofValues (Bits.unpack_congr fun i hlow hhigh => ?_)
  rw [format.sum_widths] at hhigh
  exact Memory.bits_congr (hsame (i / 8) (by omega) (by omega))

theorem deserialize_serialize (record : Record) (buf : Memory UInt8) (start : Nat) :
    format.deserialize (format.serialize record buf start) start = format.cut record := by
  rw [format.deserialize_eq, format.bits_serialize, ← format.map_fields record, Bits.unpack_pack,
    cut]

end PackedRecord

end Rodos.Library
