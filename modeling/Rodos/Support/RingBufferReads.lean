import Rodos.Support.RingBufferCapacity

/-! How much of the destination `read` fills: whole words, so up to three bytes more than the
object has. -/
namespace Rodos.Support
open Library ByteStreamRingBuffer

namespace ByteStreamRingBuffer

variable {WORDS : Int} {ring : ByteStreamRingBuffer}

/-- The word that the next `readWord` returns: the length of the oldest object, if there is one. -/
def oldestLen (ring : ByteStreamRingBuffer) : Int := ring.buffer ring.readX

/-- Whatever the destination holds, a read with this `maxLen` only stores into words that lie
within its first `maxLen` bytes. -/
def ReadsWithin (WORDS : Int) (ring : ByteStreamRingBuffer) (maxLen : Int) : Prop :=
  ∀ (buf : Memory Int) (index : Nat),
    (ring.read WORDS buf maxLen).2.1 index ≠ buf index → 4 * ((index : Int) + 1) ≤ maxLen

/-- Reads return these objects one after the other, each to a reader that has room for it, and
then nothing. -/
def Delivers (WORDS : Int) : ByteStreamRingBuffer → List StoredObject → Prop
  | ring, [] => ∀ buf maxLen, ring.read WORDS buf maxLen = (0, buf, ring)
  | ring, oldest :: newer => ∀ buf maxLen,
    (oldest.len ≤ maxLen →
      (ring.read WORDS buf maxLen).1 = oldest.len ∧
        (ring.read WORDS buf maxLen).2.1.front oldest.words.length = oldest.words) ∧
    (maxLen < oldest.len → (ring.read WORDS buf maxLen).1 = -1) ∧
    Delivers WORDS (ring.read WORDS buf maxLen).2.2 newer

theorem Content.delivers {objects : List StoredObject}
    (h : Content WORDS ring (allCells objects)) : Delivers WORDS ring objects := by
  induction objects generalizing ring with
  | nil => exact h.read_empty
  | cons oldest newer ih =>
    intro buf maxLen
    refine ⟨fun hroom => ?_, fun hshort => (h.read_short buf hshort).1, ih (h.read_any buf maxLen)⟩
    have hread := h.read buf hroom
    exact ⟨hread.1, hread.2.1⟩

/-- The words behind those that are read keep what they held. -/
theorem readWords_outside (buf : Memory Int) (index : Nat) (len : Int)
    (ring : ByteStreamRingBuffer) {other : Nat}
    (hother : other < index ∨ index + ((len + 3) / 4).toNat ≤ other) :
    (ring.readWords WORDS buf index len).1 other = buf other := by
  fun_induction readWords WORDS buf index len ring with
  | case1 buf index len ring hlen val next hread ih =>
    rw [ih (by omega)]
    exact Memory.store_other _ _ (by omega)
  | case2 buf index len ring hlen => rfl

theorem Content.read_outside {oldest : StoredObject} {newer : List StoredObject}
    (h : Content WORDS ring (allCells (oldest :: newer))) (buf : Memory Int) {maxLen : Int}
    (hroom : oldest.len ≤ maxLen) {index : Nat} (hindex : oldest.words.length ≤ index) :
    (ring.read WORDS buf maxLen).2.1 index = buf index := by
  obtain ⟨hnonempty, hlen, _⟩ := h.oldest
  have hcount : oldest.words.length = ((oldest.len + 3) / 4).toNat := by
    have hpos := oldest.len_pos
    have hwords := oldest.length_words
    rw [wordsInObject_eq (by omega)] at hwords
    omega
  rw [ByteStreamRingBuffer.read]
  simp only [hnonempty, hlen, Bool.false_eq_true, if_false, if_neg (not_lt.mpr hroom)]
  apply readWords_outside
  omega

/-- A reader that has room for the oldest object gets a store into each of its words. -/
theorem Content.readsWithin_iff {oldest : StoredObject} {newer : List StoredObject}
    (h : Content WORDS ring (allCells (oldest :: newer))) {maxLen : Int}
    (hroom : oldest.len ≤ maxLen) :
    ReadsWithin WORDS ring maxLen ↔ 4 * wordsInObject oldest.len ≤ maxLen := by
  have hwords := oldest.length_words
  constructor
  · intro hwithin
    have hpositive : 0 < oldest.words.length := by
      have hcells := oldest.length_cells_pos
      rw [StoredObject.cells, List.length_cons] at hcells
      omega
    have hlast : oldest.words.length - 1 < oldest.words.length := by omega
    -- A destination that holds something else in every word shows each store.
    let buf : Memory Int := fun index => oldest.words.getD index 0 + 1
    have hfront := (h.read buf hroom).2.1
    have hstored : (ring.read WORDS buf maxLen).2.1 (oldest.words.length - 1) =
        oldest.words.getD (oldest.words.length - 1) 0 := by
      have hget := Memory.getElem?_front (ring.read WORDS buf maxLen).2.1 oldest.words.length
        (oldest.words.length - 1)
      rw [hfront, if_pos hlast] at hget
      rw [List.getD_eq_getElem?_getD, hget, Option.getD_some]
    have hchanged : (ring.read WORDS buf maxLen).2.1 (oldest.words.length - 1) ≠
        buf (oldest.words.length - 1) := by
      rw [hstored]
      exact (Int.lt_succ _).ne
    have hinside := hwithin buf _ hchanged
    omega
  · intro hfits buf index hchanged
    have hinside : index < oldest.words.length := by
      by_contra hbehind
      exact hchanged (h.read_outside buf hroom (not_lt.mp hbehind))
    omega

theorem Content.oldestLen_eq {oldest : StoredObject} {newer : List StoredObject}
    (h : Content WORDS ring (allCells (oldest :: newer))) : ring.oldestLen = oldest.len :=
  h.oldest.2.1

theorem Content.read_short_buf {oldest : StoredObject} {newer : List StoredObject}
    (h : Content WORDS ring (allCells (oldest :: newer))) (buf : Memory Int) {maxLen : Int}
    (hshort : maxLen < oldest.len) : (ring.read WORDS buf maxLen).2.1 = buf := by
  obtain ⟨hnonempty, hlen, _⟩ := h.oldest
  rw [ByteStreamRingBuffer.read]
  simp only [hnonempty, hlen, Bool.false_eq_true, if_false, if_pos hshort]

/-- The stores of a read in any state that holds whole objects. -/
theorem Content.readsWithin_cases {objects : List StoredObject}
    (h : Content WORDS ring (allCells objects)) (maxLen : Int) :
    ReadsWithin WORDS ring maxLen ↔
      ring.isEmpty = true ∨ maxLen < ring.oldestLen ∨
        4 * wordsInObject ring.oldestLen ≤ maxLen := by
  cases objects with
  | nil =>
    have hempty := h.isEmpty_iff.mpr rfl
    refine ⟨fun _ => .inl hempty, fun _ buf index hchanged => ?_⟩
    rw [h.read_empty] at hchanged
    exact absurd rfl hchanged
  | cons oldest newer =>
    have hnonempty := h.oldest.1
    rw [h.oldestLen_eq]
    by_cases hroom : oldest.len ≤ maxLen
    · rw [h.readsWithin_iff hroom]
      simp [hnonempty, not_lt.mpr hroom]
    · have hshort := not_le.mp hroom
      refine ⟨fun _ => .inr (.inl hshort), fun _ buf index hchanged => ?_⟩
      rw [h.read_short_buf buf hshort] at hchanged
      exact absurd rfl hchanged

end ByteStreamRingBuffer

/-- A read stays within `maxLen` bytes unless the oldest object fits but its last word does not;
an object that is too long is discarded and the later ones are delivered in every case. -/
theorem read_within_maxLen_iff {WORDS : Int} (hWORDS : 0 < WORDS) (operations : List Operation)
    (hplain : ∀ operation ∈ operations, operation.Plain) (maxLen : Int) :
    let ring := ByteStreamRingBuffer.after WORDS operations
    (ReadsWithin WORDS ring maxLen ∧
      ∃ objects, Content WORDS ring (allCells objects) ∧
        ∀ buf oldest newer, objects = oldest :: newer → maxLen < oldest.len →
          (ring.read WORDS buf maxLen).1 = -1 ∧
          Content WORDS (ring.read WORDS buf maxLen).2.2 (allCells newer) ∧
          Delivers WORDS (ring.read WORDS buf maxLen).2.2 newer) ↔
      ring.isEmpty = true ∨ maxLen < ring.oldestLen ∨
        4 * wordsInObject ring.oldestLen ≤ maxLen := by
  intro ring
  obtain ⟨objects, hcontent⟩ := content_after hWORDS operations hplain
  have hdiscard : ∀ buf oldest newer, objects = oldest :: newer → maxLen < oldest.len →
      (ring.read WORDS buf maxLen).1 = -1 ∧
      Content WORDS (ring.read WORDS buf maxLen).2.2 (allCells newer) ∧
      Delivers WORDS (ring.read WORDS buf maxLen).2.2 newer := by
    rintro buf oldest newer rfl hshort
    have hread := Content.read_short hcontent buf hshort
    exact ⟨hread.1, hread.2, hread.2.delivers⟩
  have hcases := Content.readsWithin_cases hcontent maxLen
  exact ⟨fun hholds => hcases.mp hholds.1,
    fun hwithin => ⟨hcases.mpr hwithin, objects, hcontent, hdiscard⟩⟩

/-- A fresh ring after an object that leaves a word unused. -/
theorem content_after_write {WORDS : Int} (buf : Memory Int) {len : Int} (hlen : 0 < len)
    (hfits : wordsInObject len + 1 < WORDS) :
    Content WORDS (ByteStreamRingBuffer.after WORDS [.write buf len])
      (allCells [StoredObject.ofBuffer buf len hlen]) := by
  have hcells := (StoredObject.ofBuffer buf len hlen).length_cells
  have hobjectLen : (StoredObject.ofBuffer buf len hlen).len = len := rfl
  rw [hobjectLen] at hcells
  have hcount := wordsInObject_eq (show 0 ≤ len by omega)
  have hempty : Content WORDS {} (allCells []) := content_initial (by omega)
  have hwritten := (hempty.write buf hlen (by omega)).2
  rw [afterWrite, if_pos (by omega)] at hwritten
  exact hwritten

/-- An object of six bytes is read into eight bytes. -/
theorem read_within_maxLen_iff_fits :
    ReadsWithin 5 (ByteStreamRingBuffer.after 5 [.write (fun i => i + 10) 6]) 8 := by
  have hplain : ∀ operation ∈ [Operation.write (fun i => i + 10) 6], operation.Plain := by
    intro operation hmem
    rw [List.mem_singleton.mp hmem]
    show (0 : Int) ≤ 6
    decide
  have hcontent := @content_after_write 5 (fun i => i + 10) 6 (by decide) (by decide)
  have hfits : 4 * wordsInObject
      (ByteStreamRingBuffer.after 5 [.write (fun i => i + 10) 6]).oldestLen ≤ 8 := by
    rw [hcontent.oldestLen_eq]
    decide
  exact ((read_within_maxLen_iff (by decide) _ hplain 8).mpr (.inr (.inr hfits))).1

/-- An object of five bytes is read with room for five bytes, and its second word is stored. -/
theorem read_stores_behind_maxLen :
    ¬ ReadsWithin 5 (ByteStreamRingBuffer.after 5 [.write (fun i => i + 10) 5]) 5 := by
  have hcontent := @content_after_write 5 (fun i => i + 10) 5 (by decide) (by decide)
  rw [hcontent.readsWithin_iff (by decide)]
  decide

end Rodos.Support
