import Rodos.Library.Runs
import Rodos.Api.Fifo

/-! Block access to a fifo: regions of its buffer are given out to write and to read, and every
mix of single values and blocks behaves as a bounded queue. -/
namespace Rodos.Api
open Library Library.Slots

/-- A class without fields of its own. -/
abbrev BlockFifo := Fifo

namespace BlockFifo

variable {Value : Type} (len : Nat)

/-- The loop of `advanceIndexEx`; as `len` is not 0 it takes at most `newIndex` turns. -/
def reduceIndex : Nat → Nat → Nat
  | 0, newIndex => newIndex
  | turns + 1, newIndex =>
    if newIndex ≥ len then reduceIndex turns (newIndex - len) else newIndex

def advanceIndexEx (index advanceSize : Nat) : Nat :=
  let newIndex := index + advanceSize
  reduceIndex len newIndex newIndex

/-- A pointer into the buffer, or 0, and `maxLen`. -/
structure Offer where
  start : Option Nat
  maxLen : Nat

def getBufferToWrite (fifo : BlockFifo Value) : Offer :=
  let r := fifo.readX
  let w := fifo.writeX
  if r = Fifo.advanceIndex len w then ⟨none, 0⟩
  else
    let maxLen :=
      if r > w then r - w - 1
      else
        let maxLen := len - w
        if r = 0 then maxLen - 1 else maxLen
    ⟨some w, maxLen⟩

def writeConcluded (fifo : BlockFifo Value) (numOfWrittenElements : Nat) : BlockFifo Value :=
  { fifo with writeX := advanceIndexEx len fifo.writeX numOfWrittenElements }

def getBufferToRead (fifo : BlockFifo Value) : Offer :=
  let r := fifo.readX
  let w := fifo.writeX
  if r = w then ⟨none, 0⟩
  else
    let maxLen := if r < w then w - r else len - r
    ⟨some r, maxLen⟩

def readConcluded (fifo : BlockFifo Value) (sizeRed : Nat) : BlockFifo Value :=
  { fifo with readX := advanceIndexEx len fifo.readX sizeRed }

/-- The user copies values into the region that he was offered. -/
def fill (fifo : BlockFifo Value) (offer : Offer) (source : Memory Value) (written : Nat) :
    BlockFifo Value :=
  match offer.start with
  | none => fifo
  | some start => { fifo with buffer := fifo.buffer.copy source start 0 written }

/-- What the user finds in the region that he was offered. -/
def contents (fifo : BlockFifo Value) (offer : Offer) (count : Nat) : List Value :=
  match offer.start with
  | none => []
  | some start => fifo.buffer.slice start (start + count)

variable {len}

theorem reduceIndex_eq (hlen : 0 < len) {turns newIndex : Nat} (hturns : newIndex ≤ turns) :
    reduceIndex len turns newIndex = newIndex % len := by
  induction turns generalizing newIndex with
  | zero =>
    cases Nat.le_zero.mp hturns
    exact (Nat.zero_mod len).symm
  | succ turns ih =>
    unfold reduceIndex
    split
    · next hge => rw [ih (by omega), Nat.mod_eq_sub_mod hge]
    · next hlt => rw [Nat.mod_eq_of_lt (by omega)]

theorem advanceIndexEx_mod (hlen : 0 < len) (k advanceSize : Nat) :
    advanceIndexEx len (k % len) advanceSize = (k + advanceSize) % len := by
  rw [advanceIndexEx, reduceIndex_eq hlen (Nat.le_refl _), Nat.mod_add_mod]

/-! ### The regions -/

/-- A pointer to the cell at `index` with at most `room` cells behind it, none beyond the end of
the buffer; or no pointer and no cells. -/
def Offer.Fits (offer : Offer) (len index room : Nat) : Prop :=
  match offer.start with
  | none => offer.maxLen = 0
  | some start => start = index ∧ start + offer.maxLen ≤ len ∧ offer.maxLen ≤ room

def Offer.Covers (offer : Offer) (slot : Nat) : Prop :=
  ∃ start, offer.start = some start ∧ start ≤ slot ∧ slot < start + offer.maxLen

theorem Offer.Fits.covers {offer : Offer} {index room slot : Nat}
    (h : offer.Fits len index room) (hcovers : offer.Covers slot) :
    ∃ i < room, slot = index + i ∧ slot < len := by
  obtain ⟨start, hstart, hlow, hhigh⟩ := hcovers
  rw [Offer.Fits, hstart] at h
  obtain ⟨rfl, hend, hroom⟩ := h
  exact ⟨slot - start, by omega, by omega, by omega⟩

theorem Offer.Fits.mono {offer : Offer} {index room more : Nat} (h : offer.Fits len index room)
    (hmore : room ≤ more) : offer.Fits len index more := by
  unfold Offer.Fits at h ⊢
  split at h
  · exact h
  · exact ⟨h.1, h.2.1, Nat.le_trans h.2.2 hmore⟩

theorem Offer.Fits.of_pos {offer : Offer} {index room : Nat} (h : offer.Fits len index room)
    (hpos : 0 < offer.maxLen) :
    offer.start = some index ∧ index + offer.maxLen ≤ len ∧ offer.maxLen ≤ room := by
  unfold Offer.Fits at h
  split at h
  · omega
  · next start hstart =>
    obtain ⟨rfl, hend, hroom⟩ := h
    exact ⟨hstart, hend, hroom⟩

end BlockFifo

namespace Fifo.Carries

open BlockFifo

variable {Value : Type} {len : Nat} {fifo : Fifo Value} {passed gotten : List Value}

theorem getBufferToWrite_fits (h : Carries len fifo passed gotten) :
    (getBufferToWrite len fifo).Fits len fifo.writeX
        (gotten.length + len - 1 - passed.length) ∧
      (0 < (getBufferToWrite len fifo).maxLen ↔ passed.length + 1 < gotten.length + len) := by
  have hroom := h.room
  have hle := h.length_le
  have hlt := h.readX_lt
  have hfull := h.full_iff
  rw [getBufferToWrite, h.next_writeX]
  by_cases heq : fifo.readX = (passed.length + 1) % len
  · rw [if_pos heq]
    have hnone := hfull.mp heq.symm
    exact ⟨rfl, iff_of_false (Nat.lt_irrefl 0) (by omega)⟩
  · have hnot : passed.length + 1 ≠ gotten.length + len := fun hequal => heq (hfull.mpr hequal).symm
    rw [if_neg heq]
    rcases h.writeX_cases with ⟨hend, hwriteX⟩ | ⟨hend, hwriteX⟩
    · -- Free up to the end of the buffer, but for its last cell if the reader is at the start.
      rw [if_neg (show ¬ fifo.readX > fifo.writeX by omega)]
      refine ⟨⟨rfl, ?_, ?_⟩, ?_⟩ <;> dsimp only <;> split <;> omega
    · rw [if_pos (show fifo.readX > fifo.writeX by omega)]
      refine ⟨⟨rfl, ?_, ?_⟩, ?_⟩ <;> dsimp only <;> omega

theorem getBufferToRead_fits (h : Carries len fifo passed gotten) :
    (getBufferToRead len fifo).Fits len fifo.readX (passed.length - gotten.length) ∧
      (0 < (getBufferToRead len fifo).maxLen ↔ gotten.length < passed.length) := by
  have hroom := h.room
  have hle := h.length_le
  have hlt := h.readX_lt
  have hempty := h.empty_iff
  rw [getBufferToRead]
  by_cases heq : fifo.readX = fifo.writeX
  · rw [if_pos heq]
    have hnone := hempty.mp heq
    exact ⟨rfl, iff_of_false (Nat.lt_irrefl 0) (by omega)⟩
  · rw [if_neg heq]
    rcases h.writeX_cases with ⟨hend, hwriteX⟩ | ⟨hend, hwriteX⟩
    · rw [if_pos (show fifo.readX < fifo.writeX by omega)]
      refine ⟨⟨rfl, ?_, ?_⟩, ?_⟩ <;> dsimp only <;> omega
    · rw [if_neg (show ¬ fifo.readX < fifo.writeX by omega)]
      refine ⟨⟨rfl, ?_, ?_⟩, ?_⟩ <;> dsimp only <;> omega

/-- Cells from `writeX` on that lie within the offer carry no value that is still to be read. -/
theorem fill (h : Carries len fifo passed gotten) {offer : Offer}
    (hoffer : offer.Fits len fifo.writeX (gotten.length + len - 1 - passed.length))
    (source : Memory Value) {written : Nat} (hwritten : written ≤ offer.maxLen) :
    Carries len (BlockFifo.fill fifo offer source written) passed gotten := by
  have hroom := h.room
  unfold BlockFifo.fill
  unfold Offer.Fits at hoffer
  split at hoffer
  · exact h
  · next start hstart =>
    obtain ⟨rfl, hend, hfree⟩ := hoffer
    refine ⟨h.gotten_prefix, h.room, h.writeX_eq, h.readX_eq, ?_⟩
    intro k hk hfirst
    dsimp only
    rw [Memory.copy_outside, h.holds k hk hfirst]
    by_contra hinside
    obtain ⟨i, hi⟩ := Nat.exists_eq_add_of_le (show fifo.writeX ≤ k % len by omega)
    have hne : k % len ≠ (passed.length + i) % len := slot_ne (by omega) (by omega)
    rw [← Nat.mod_add_mod, ← h.writeX_eq, hi] at hne
    exact hne (Nat.mod_eq_of_lt (by omega)).symm

/-- The cells behind the passed values are those from `writeX` on, up to the end of the buffer. -/
theorem slot_ahead (h : Carries len fifo passed gotten) {i : Nat} (hi : fifo.writeX + i < len) :
    (passed.length + i) % len = fifo.writeX + i := by
  rw [← Nat.mod_add_mod, ← h.writeX_eq]
  exact Nat.mod_eq_of_lt hi

theorem slot_unread (h : Carries len fifo passed gotten) {i : Nat} (hi : fifo.readX + i < len) :
    (gotten.length + i) % len = fifo.readX + i := by
  rw [← Nat.mod_add_mod, ← h.readX_eq]
  exact Nat.mod_eq_of_lt hi

/-- A single store into free cells, ahead of their publication. -/
theorem store_ahead (h : Carries len fifo passed gotten) {i : Nat}
    (hroom : passed.length + i < gotten.length + len) (hi : fifo.writeX + i < len) (val : Value) :
    Carries len { fifo with buffer := fifo.buffer.store (fifo.writeX + i) val } passed gotten := by
  refine ⟨h.gotten_prefix, h.room, h.writeX_eq, h.readX_eq, ?_⟩
  intro k hk hfirst
  rw [← h.slot_ahead hi]
  dsimp only
  rw [Memory.store_other _ val (slot_ne (by omega) (by omega))]
  exact h.holds k hk hfirst

/-- A store to `writeX` that makes several values visible. -/
theorem publish_all (h : Carries len fifo passed gotten) {values : List Value}
    (hroom : passed.length + values.length < gotten.length + len)
    (hstored : ∀ i < values.length,
      values[i]? = some (fifo.buffer ((passed.length + i) % len))) :
    Carries len { fifo with writeX := (passed.length + values.length) % len }
      (passed ++ values) gotten := by
  induction values using List.reverseRecOn with
  | nil =>
    rw [List.append_nil]
    exact h.of_eq rfl h.writeX_eq.symm rfl
  | append_singleton values val ih =>
    rw [List.length_append, List.length_singleton] at hroom
    have hbefore := ih (by omega) fun i hi => by
      rw [← hstored i (by simp; omega), List.getElem?_append_left hi]
    have hval := hstored values.length (by simp)
    rw [List.getElem?_concat_length, Option.some_inj] at hval
    have hlength : (passed ++ values).length = passed.length + values.length :=
      List.length_append
    have hnext : fifo.buffer ((passed ++ values).length % len) = val := by
      rw [hlength]
      exact hval.symm
    have hafter := hbefore.publish (by omega) hnext
    rw [hlength, List.append_assoc, Nat.add_assoc] at hafter
    rw [List.length_append, List.length_singleton]
    exact hafter

theorem writeConcluded (h : Carries len fifo passed gotten) {offer : Offer}
    (hoffer : offer.Fits len fifo.writeX (gotten.length + len - 1 - passed.length))
    (source : Memory Value) {written count : Nat} (hwritten : written ≤ offer.maxLen)
    (hcount : count ≤ written) :
    Carries len (BlockFifo.writeConcluded len (BlockFifo.fill fifo offer source written) count)
      (passed ++ source.front count) gotten := by
  have hroom := h.room
  have hfilled := h.fill hoffer source hwritten
  have hconcluded : BlockFifo.writeConcluded len (BlockFifo.fill fifo offer source written) count =
      { BlockFifo.fill fifo offer source written with
        writeX := (passed.length + (source.front count).length) % len } := by
    rw [BlockFifo.writeConcluded, hfilled.writeX_eq, advanceIndexEx_mod h.len_pos,
      Memory.length_front]
  rw [hconcluded]
  refine hfilled.publish_all ?_ ?_
  · rw [Memory.length_front]
    rcases Nat.eq_zero_or_pos offer.maxLen with hnone | hsome
    · omega
    · have hfree := (hoffer.of_pos hsome).2.2
      omega
  · intro i hi
    rw [Memory.length_front] at hi
    obtain ⟨hstart, hend, hfree⟩ := hoffer.of_pos (by omega)
    have hslot : (passed.length + i) % len = fifo.writeX + i := by
      rw [← Nat.mod_add_mod, ← h.writeX_eq]
      exact Nat.mod_eq_of_lt (by omega)
    unfold BlockFifo.fill
    rw [hstart, hslot]
    dsimp only
    rw [Memory.copy_inside _ _ _ (by omega) (by omega), Memory.getElem?_front, if_pos hi]
    congr 2
    omega

/-- A store to `readX` that gives several cells back. -/
theorem release_all (h : Carries len fifo passed gotten) {count : Nat}
    (hcount : gotten.length + count ≤ passed.length) :
    Carries len { fifo with readX := (gotten.length + count) % len } passed
      (gotten ++ (passed.drop gotten.length).take count) := by
  induction count with
  | zero =>
    rw [List.take_zero, List.append_nil]
    exact h.of_eq rfl rfl h.readX_eq.symm
  | succ count ih =>
    have hbefore := ih (by omega)
    have hlength : (gotten ++ (passed.drop gotten.length).take count).length =
        gotten.length + count := by
      simp only [List.length_append, List.length_take, List.length_drop]
      omega
    have hnext : gotten.length + count < passed.length := by omega
    have hafter := hbefore.release (by rw [hlength]; exact List.getElem?_eq_getElem hnext)
    have htake : (passed.drop gotten.length).take (count + 1) =
        (passed.drop gotten.length).take count ++ [passed[gotten.length + count]] := by
      rw [List.take_add_one, List.getElem?_drop, List.getElem?_eq_getElem hnext]
      rfl
    rw [hlength, List.append_assoc, ← htake] at hafter
    exact hafter

theorem contents (h : Carries len fifo passed gotten) {offer : Offer}
    (hoffer : offer.Fits len fifo.readX (passed.length - gotten.length)) {count : Nat}
    (hcount : count ≤ offer.maxLen) :
    BlockFifo.contents fifo offer count = (passed.drop gotten.length).take count := by
  unfold BlockFifo.contents
  unfold Offer.Fits at hoffer
  split at hoffer
  · rw [show count = 0 by omega, List.take_zero]
  · next start hstart =>
    obtain ⟨rfl, hend, hfree⟩ := hoffer
    apply List.ext_getElem?
    intro i
    rw [Memory.getElem?_slice, List.getElem?_take]
    by_cases hi : i < count
    · have hslot : (gotten.length + i) % len = fifo.readX + i := by
        rw [← Nat.mod_add_mod, ← h.readX_eq]
        exact Nat.mod_eq_of_lt (by omega)
      rw [if_pos (by omega), if_pos hi, List.getElem?_drop,
        h.holds.getElem (Nat.le_add_right _ _) (by omega), hslot]
    · rw [if_neg (by omega), if_neg hi]

theorem readConcluded (h : Carries len fifo passed gotten) {count : Nat}
    (hcount : gotten.length + count ≤ passed.length) :
    Carries len (BlockFifo.readConcluded len fifo count) passed
      (gotten ++ (passed.drop gotten.length).take count) := by
  rw [BlockFifo.readConcluded, h.readX_eq, advanceIndexEx_mod h.len_pos]
  exact h.release_all hcount

end Fifo.Carries

end Rodos.Api
