import Rodos.Support.RingBufferHistory

/-! Which accepted objects `write` keeps: in every state that writes, reads and resets can reach,
all but those that fill the ring to the last word. -/
namespace Rodos.Support
open Library Library.Cyclic ByteStreamRingBuffer

namespace ByteStreamRingBuffer

variable {WORDS : Int} {ring : ByteStreamRingBuffer} {objects : List StoredObject}

/-- Moving `readX` over some words leaves the words behind them. -/
theorem Content.skip {words rest : List Int} (h : Content WORDS ring (words ++ rest)) :
    Content WORDS { ring with readX := (ring.readX + words.length).tmod WORDS } rest := by
  have hnonneg := h.readX_nonneg
  have hroom := h.room
  rw [List.length_append] at hroom
  have hnext : (ring.readX + words.length).tmod WORDS = (ring.readX + words.length) % WORDS :=
    Int.tmod_eq_emod_of_nonneg (by omega)
  rw [hnext]
  refine ⟨Int.emod_nonneg _ (by omega), Int.emod_lt_of_pos _ (by omega), by omega, ?_, ?_⟩
  · rw [Int.emod_add_emod, h.writeX_eq, List.length_append]
    congr 1
    push_cast
    omega
  · have hcells := drop_cells ring.buffer WORDS ring.readX
      (show words.length ≤ (words ++ rest).length by rw [List.length_append]; omega)
    rw [h.cells_eq, List.drop_left, List.length_append, Nat.add_sub_cancel_left] at hcells
    rw [cells_emod, ← hcells]

/-- An object that is too long for the reader is discarded, whole. -/
theorem Content.read_short {oldest : StoredObject} {newer : List StoredObject}
    (h : Content WORDS ring (allCells (oldest :: newer))) (buf : Memory Int) {maxLen : Int}
    (hshort : maxLen < oldest.len) :
    (ring.read WORDS buf maxLen).1 = -1 ∧
      Content WORDS (ring.read WORDS buf maxLen).2.2 (allCells newer) := by
  obtain ⟨hnonempty, hlen, hcontent⟩ := h.oldest
  have hskipped := hcontent.skip
  rw [oldest.length_words] at hskipped
  rw [ByteStreamRingBuffer.read]
  simp only [hnonempty, hlen, Bool.false_eq_true, if_false, if_pos hshort]
  exact ⟨trivial, hskipped⟩

/-- However much room the reader has, a read takes the oldest object out. -/
theorem Content.read_any {oldest : StoredObject} {newer : List StoredObject}
    (h : Content WORDS ring (allCells (oldest :: newer))) (buf : Memory Int) (maxLen : Int) :
    Content WORDS (ring.read WORDS buf maxLen).2.2 (allCells newer) := by
  by_cases hroom : oldest.len ≤ maxLen
  · exact (h.read buf hroom).2.2
  · exact (h.read_short buf (not_le.mp hroom)).2

end ByteStreamRingBuffer

/-- An object that is written may be empty, but its length is not negative. -/
def Operation.Plain : Operation → Prop
  | .write _ len => 0 ≤ len
  | .read _ _ | .reset => True

theorem content_perform_plain {WORDS : Int} {ring : ByteStreamRingBuffer}
    {objects : List StoredObject} (h : Content WORDS ring (allCells objects))
    {operation : Operation} (hplain : operation.Plain) :
    ∃ after, Content WORDS (ring.perform WORDS operation) (allCells after) := by
  cases operation with
  | write buf len =>
    by_cases haccepted : wordsInObject len < WORDS
    · by_cases hempty : len = 0
      · refine ⟨objects, ?_⟩
        rw [ByteStreamRingBuffer.perform, ByteStreamRingBuffer.write, if_neg (not_le.mpr haccepted),
          if_pos hempty]
        exact h
      · have hlen : 0 < len := lt_of_le_of_ne hplain (Ne.symm hempty)
        exact ⟨_, (h.write buf hlen haccepted).2⟩
    · refine ⟨objects, ?_⟩
      rw [ByteStreamRingBuffer.perform, write_rejected buf (not_lt.mp haccepted)]
      exact h
  | read buf maxLen =>
    cases objects with
    | nil =>
      refine ⟨[], ?_⟩
      rw [ByteStreamRingBuffer.perform, h.read_empty]
      exact h
    | cons oldest newer => exact ⟨newer, h.read_any buf maxLen⟩
  | reset => exact ⟨[], h.reset⟩

/-- The ring after these operations. -/
def ByteStreamRingBuffer.after (WORDS : Int) (operations : List Operation) :
    ByteStreamRingBuffer :=
  operations.foldl (ByteStreamRingBuffer.perform WORDS) {}

/-- Every state that can be reached holds whole objects. -/
theorem content_after {WORDS : Int} (hWORDS : 0 < WORDS) (operations : List Operation)
    (hplain : ∀ operation ∈ operations, operation.Plain) :
    ∃ objects, Content WORDS (ByteStreamRingBuffer.after WORDS operations) (allCells objects) := by
  have hfrom : ∀ (later : List Operation) (ring : ByteStreamRingBuffer)
      (objects : List StoredObject), (∀ operation ∈ later, operation.Plain) →
      Content WORDS ring (allCells objects) →
      ∃ final, Content WORDS (later.foldl (ByteStreamRingBuffer.perform WORDS) ring)
        (allCells final) := by
    intro later
    induction later with
    | nil => exact fun ring objects _ h => ⟨objects, h⟩
    | cons operation later ih =>
      intro ring objects hlater h
      obtain ⟨next, hnext⟩ := content_perform_plain h (hlater operation List.mem_cons_self)
      exact ih _ next (fun other hother => hlater other (List.mem_cons_of_mem _ hother)) hnext
  exact hfrom operations {} [] hplain (content_initial hWORDS)

/-- Reads one after the other, each with its destination and the room in it. -/
def ByteStreamRingBuffer.readAll (WORDS : Int) (ring : ByteStreamRingBuffer)
    (reads : List (Memory Int × Int)) : ByteStreamRingBuffer :=
  reads.foldl (fun ring read => (ring.read WORDS read.1 read.2).2.2) ring

theorem content_readAll {WORDS : Int} {ring : ByteStreamRingBuffer}
    {older newer : List StoredObject} (h : Content WORDS ring (allCells (older ++ newer)))
    (reads : List (Memory Int × Int)) (hreads : reads.length = older.length) :
    Content WORDS (ring.readAll WORDS reads) (allCells newer) := by
  induction older generalizing ring reads with
  | nil =>
    obtain rfl := List.length_eq_zero_iff.mp hreads
    exact h
  | cons oldest older ih =>
    cases reads with
    | nil => cases hreads
    | cons read reads =>
      exact ih (h.read_any read.1 read.2) reads (Nat.succ.inj hreads)

/-- The object ends where the next word will be written, and the read behind those that take out
the objects before it returns it. -/
structure Newest (WORDS : Int) (ring : ByteStreamRingBuffer) (object : StoredObject) : Prop where
  nonempty : ring.isEmpty = false
  stored : ∃ older, Content WORDS ring (allCells (older ++ [object])) ∧
    ∀ reads : List (Memory Int × Int), reads.length = older.length →
      ∀ buf maxLen, object.len ≤ maxLen →
        ((ring.readAll WORDS reads).read WORDS buf maxLen).1 = object.len ∧
        ((ring.readAll WORDS reads).read WORDS buf maxLen).2.1.front object.words.length =
          object.words

theorem newest_of_content {WORDS : Int} {ring : ByteStreamRingBuffer}
    {older : List StoredObject} {object : StoredObject}
    (h : Content WORDS ring (allCells (older ++ [object]))) : Newest WORDS ring object := by
  refine ⟨?_, older, h, fun reads hreads buf maxLen hroom => ?_⟩
  · rw [← Bool.not_eq_true, h.isEmpty_iff, allCells_append]
    simp [StoredObject.cells]
  · obtain ⟨hlen, hwords, _⟩ := (content_readAll h reads hreads).read buf hroom
    exact ⟨hlen, hwords⟩

/-- An object that needs the last word of the ring as well drops itself; every other accepted
object is kept as the newest one. -/
theorem write_keeps_accepted_iff {WORDS : Int} (hWORDS : 0 < WORDS) (operations : List Operation)
    (hplain : ∀ operation ∈ operations, operation.Plain) (buf : Memory Int) {len : Int}
    (hlen : 0 < len) :
    let ring := ByteStreamRingBuffer.after WORDS operations
    ((ring.write WORDS buf len).1 = true →
        Newest WORDS (ring.write WORDS buf len).2 (StoredObject.ofBuffer buf len hlen)) ↔
      wordsInObject len + 1 ≠ WORDS := by
  intro ring
  obtain ⟨objects, hcontent⟩ := content_after hWORDS operations hplain
  have hcells := (StoredObject.ofBuffer buf len hlen).length_cells
  have hobjectLen : (StoredObject.ofBuffer buf len hlen).len = len := rfl
  rw [hobjectLen] at hcells
  by_cases haccepted : wordsInObject len < WORDS
  · obtain ⟨hreturned, hwritten⟩ := hcontent.write buf hlen haccepted
    rw [afterWrite] at hwritten
    constructor
    · intro hnewest hfills
      rw [if_neg (by omega)] at hwritten
      have hnonempty := (hnewest hreturned).nonempty
      rw [hwritten.isEmpty_iff.mpr rfl] at hnonempty
      cases hnonempty
    · intro hfits _
      rw [if_pos (by omega)] at hwritten
      exact newest_of_content hwritten
  · constructor
    · intro _
      omega
    · intro _ hreturned
      rw [write_rejected buf (not_lt.mp haccepted)] at hreturned
      cases hreturned

/-- After an object of five bytes, one of six bytes is the newest in a ring of five words. -/
theorem write_keeps_accepted_iff_fits :
    Newest 5 ((ByteStreamRingBuffer.after 5 [.write (fun i => i + 10) 5]).write 5
        (fun i => i + 20) 6).2 (StoredObject.ofBuffer (fun i => i + 20) 6 (by decide)) := by
  have hplain : ∀ operation ∈ [Operation.write (fun i => i + 10) 5], operation.Plain := by
    intro operation hmem
    rw [List.mem_singleton.mp hmem]
    show (0 : Int) ≤ 5
    decide
  exact (write_keeps_accepted_iff (by decide) _ hplain (fun i => i + 20)
    (show (0 : Int) < 6 by decide)).mpr (by decide) (by rfl)

/-- Sixteen bytes in an empty ring of five words are accepted, and the ring is empty again. -/
theorem accepted_object_lost :
    ((ByteStreamRingBuffer.after 5 []).write 5 (fun i => i + 20) 16).1 = true ∧
      ((ByteStreamRingBuffer.after 5 []).write 5 (fun i => i + 20) 16).2.isEmpty = true := by
  have hempty : Content 5 {} (allCells []) := content_initial (by decide)
  have hlost := hempty.write (fun i => i + 20) (show (0 : Int) < 16 by decide) (by decide)
  exact ⟨hlost.1, hlost.2.isEmpty_iff.mpr rfl⟩

end Rodos.Support
