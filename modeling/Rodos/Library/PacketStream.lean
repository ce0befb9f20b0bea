import Rodos.Library.PackedRecord

/-! Packets, each a record with some bytes behind it, one behind the other in memory. -/
namespace Rodos.Library

namespace Memory

variable {α : Type}

def storeAll (memory : Memory α) (start : Nat) : List α → Memory α
  | [] => memory
  | value :: values => storeAll (memory.store start value) (start + 1) values

theorem storeAll_outside {memory : Memory α} {start index : Nat} {values : List α}
    (houtside : index < start ∨ start + values.length ≤ index) :
    memory.storeAll start values index = memory index := by
  induction values generalizing memory start with
  | nil => rfl
  | cons value values ih =>
    rw [List.length_cons] at houtside
    rw [storeAll, ih (by omega), store_other _ _ (by omega)]

theorem storeAll_inside (memory : Memory α) (start : Nat) {values : List α} {j : Nat}
    (hj : j < values.length) : memory.storeAll start values (start + j) = values[j] := by
  induction values generalizing memory start j with
  | nil => cases hj
  | cons value values ih =>
    unfold storeAll
    cases j with
    | zero => rw [storeAll_outside (by omega), Nat.add_zero, store_same]; rfl
    | succ j =>
      rw [← Nat.add_assoc, Nat.add_right_comm, ih _ _ (Nat.lt_of_succ_lt_succ hj)]
      rfl

theorem slice_congr {left right : Memory α} {start stop : Nat}
    (hsame : ∀ index, start ≤ index → index < stop → left index = right index) :
    left.slice start stop = right.slice start stop := by
  refine List.ext_getElem? fun j => ?_
  rw [getElem?_slice, getElem?_slice]
  by_cases hj : start + j < stop
  · rw [if_pos hj, if_pos hj, hsame _ (by omega) hj]
  · rw [if_neg hj, if_neg hj]

theorem slice_storeAll (memory : Memory α) (start : Nat) (values : List α) :
    (memory.storeAll start values).slice start (start + values.length) = values := by
  refine List.ext_getElem? fun j => ?_
  rw [getElem?_slice]
  by_cases hj : j < values.length
  · rw [if_pos (by omega), storeAll_inside memory start hj, List.getElem?_eq_getElem hj]
  · rw [if_neg (by omega), List.getElem?_eq_none (by omega)]

end Memory

/-- The packets lie from `start` to `stop`. -/
def Laid {Record : Type} (format : PackedRecord Record) (buf : Memory UInt8) :
    Nat → List (Record × List UInt8) → Nat → Prop
  | start, [], stop => start = stop
  | start, (record, data) :: packets, stop =>
    format.deserialize buf start = record ∧
      buf.slice (start + format.size) (start + format.size + data.length) = data ∧
      Laid format buf (start + format.size + data.length) packets stop

namespace Laid

variable {Record : Type} {format : PackedRecord Record} {buf other : Memory UInt8}
  {packets more : List (Record × List UInt8)} {start between stop : Nat}

theorem le (h : Laid format buf start packets stop) : start ≤ stop := by
  induction packets generalizing start with
  | nil => exact Nat.le_of_eq h
  | cons packet packets ih =>
    have hrest := ih h.2.2
    omega

theorem length_le (h : Laid format buf start packets stop) {packet : Record × List UInt8}
    (hpacket : packet ∈ packets) : packet.2.length ≤ stop := by
  induction packets generalizing start with
  | nil => cases hpacket
  | cons first packets ih =>
    obtain rfl | hlater := List.mem_cons.mp hpacket
    · have hrest := le h.2.2
      omega
    · exact ih h.2.2 hlater

theorem congr (h : Laid format buf start packets stop)
    (hsame : ∀ index, start ≤ index → index < stop → other index = buf index) :
    Laid format other start packets stop := by
  induction packets generalizing start with
  | nil => exact h
  | cons packet packets ih =>
    obtain ⟨record, data⟩ := packet
    obtain ⟨hrecord, hdata, hrest⟩ := h
    have hle := hrest.le
    refine ⟨?_, ?_, ih hrest fun index hlow hhigh => hsame index (by omega) hhigh⟩
    · rw [← hrecord]
      exact PackedRecord.deserialize_congr fun index hlow hhigh => hsame index hlow (by omega)
    · refine Eq.trans (Memory.slice_congr fun index hlow hhigh => ?_) hdata
      exact hsame index (by omega) (by omega)

theorem append (h : Laid format buf start packets between)
    (hmore : Laid format buf between more stop) :
    Laid format buf start (packets ++ more) stop := by
  induction packets generalizing start with
  | nil =>
    cases h
    exact hmore
  | cons packet packets ih => exact ⟨h.1, h.2.1, ih h.2.2⟩

/-- A packet is put behind the others. -/
theorem add (h : Laid format buf start packets between) (record : Record) (data : List UInt8) :
    Laid format (format.serialize record (buf.storeAll (between + format.size) data) between) start
      (packets ++ [(format.cut record, data)]) (between + format.size + data.length) := by
  have hbefore : Laid format
      (format.serialize record (buf.storeAll (between + format.size) data) between) start packets
      between := by
    refine h.congr fun index _ hhigh => ?_
    rw [PackedRecord.serialize_outside record (.inl hhigh),
      Memory.storeAll_outside (.inl (by omega))]
  refine hbefore.append ⟨PackedRecord.deserialize_serialize record _ between, ?_, rfl⟩
  refine Eq.trans (Memory.slice_congr fun index hlow hhigh => ?_)
    (Memory.slice_storeAll buf (between + format.size) data)
  exact PackedRecord.serialize_outside record (.inr (by omega))

end Laid

end Rodos.Library
