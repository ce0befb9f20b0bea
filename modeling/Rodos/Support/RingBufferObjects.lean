import Rodos.Support.RingBufferContent

/-! The ring as a queue of whole objects. `write` makes room by dropping the oldest objects,
`read` takes the oldest one. -/
namespace Rodos.Support
open Library

/-- The words of a run of objects, oldest first. -/
def allCells (objects : List StoredObject) : List Int := objects.flatMap StoredObject.cells

@[simp] theorem allCells_nil : allCells [] = [] := rfl

@[simp] theorem allCells_cons (oldest : StoredObject) (newer : List StoredObject) :
    allCells (oldest :: newer) = oldest.cells ++ allCells newer := rfl

theorem allCells_append (older newer : List StoredObject) :
    allCells (older ++ newer) = allCells older ++ allCells newer :=
  List.flatMap_append

theorem allCells_eq_nil {objects : List StoredObject} (h : (allCells objects).length = 0) :
    objects = [] := by
  cases objects with
  | nil => rfl
  | cons oldest newer =>
    have := oldest.length_cells_pos
    simp only [allCells_cons, List.length_append] at h
    omega

/-- The longest run of newest objects that, together with `reserved` words, leaves a word of
the ring unused. -/
def makeRoom (WORDS : Int) (reserved : Nat) : List StoredObject → List StoredObject
  | [] => []
  | oldest :: newer =>
    if (allCells (oldest :: newer)).length + reserved < WORDS then oldest :: newer
    else makeRoom WORDS reserved newer

section MakeRoom

variable {WORDS : Int} {reserved : Nat} {objects : List StoredObject}

theorem makeRoom_of_fits (hfits : (allCells objects).length + reserved < WORDS) :
    makeRoom WORDS reserved objects = objects := by
  cases objects with
  | nil => rfl
  | cons oldest newer => rw [makeRoom, if_pos hfits]

theorem makeRoom_fits (objects : List StoredObject) (hreserved : reserved < WORDS) :
    (allCells (makeRoom WORDS reserved objects)).length + reserved < WORDS := by
  induction objects with
  | nil => simpa [makeRoom] using hreserved
  | cons oldest newer ih =>
    rw [makeRoom]
    split
    · assumption
    · exact ih

theorem makeRoom_suffix (WORDS : Int) (reserved : Nat) (objects : List StoredObject) :
    makeRoom WORDS reserved objects <:+ objects := by
  induction objects with
  | nil => exact List.suffix_rfl
  | cons oldest newer ih =>
    rw [makeRoom]
    split
    · exact List.suffix_rfl
    · exact ih.trans (List.suffix_cons oldest newer)

/-- One more reserved word costs at most the oldest of the kept objects. -/
theorem makeRoom_succ (WORDS : Int) (reserved : Nat) (objects : List StoredObject) :
    makeRoom WORDS (reserved + 1) objects =
      if (allCells (makeRoom WORDS reserved objects)).length + reserved + 1 < WORDS then
        makeRoom WORDS reserved objects
      else (makeRoom WORDS reserved objects).tail := by
  induction objects with
  | nil => simp [makeRoom]
  | cons oldest newer ih =>
    by_cases hfits : (allCells (oldest :: newer)).length + reserved < WORDS
    · rw [makeRoom_of_fits hfits, makeRoom]
      have hcast : ((allCells (oldest :: newer)).length + (reserved + 1 : Nat) : Int) =
          (allCells (oldest :: newer)).length + reserved + 1 := by
        push_cast
        omega
      rw [hcast]
      split
      · rfl
      · have hcells := oldest.length_cells_pos
        apply makeRoom_of_fits
        rw [allCells_cons, List.length_append] at hfits
        push_cast at hfits ⊢
        omega
    · rw [makeRoom, if_neg (by push_cast; omega), ih, makeRoom, if_neg hfits]

end MakeRoom

namespace ByteStreamRingBuffer

variable {WORDS : Int} {ring : ByteStreamRingBuffer} {objects : List StoredObject}

/-- The content while an object is written of which the words `written` are in the ring. An
object that fills the ring completely drops itself with its last word. -/
def whileWriting (WORDS : Int) (objects : List StoredObject) (written : List Int) : List Int :=
  if written.length < WORDS then
    allCells (makeRoom WORDS written.length objects) ++ written
  else []

theorem Content.whileWriting_writeWord {object : StoredObject} {written rest : List Int}
    {val : Int} (h : Content WORDS ring (whileWriting WORDS objects written))
    (hobject : object.cells = written ++ val :: rest) (hsize : object.cells.length ≤ WORDS) :
    Content WORDS (ring.writeWord WORDS val) (whileWriting WORDS objects (written ++ [val])) := by
  have hlength : object.cells.length = written.length + 1 + rest.length := by
    rw [hobject, List.length_append, List.length_cons]
    omega
  have hwritten : (written.length : Int) < WORDS := by omega
  have hkept := makeRoom_fits objects hwritten
  rw [whileWriting, if_pos hwritten] at h
  simp only [whileWriting, List.length_append, List.length_singleton]
  by_cases hlast : ((written.length + 1 : Nat) : Int) < WORDS
  · rw [if_pos hlast, makeRoom_succ]
    by_cases hroom : ((allCells (makeRoom WORDS written.length objects)).length +
        written.length + 1 : Int) < WORDS
    · rw [if_pos hroom, ← List.append_assoc]
      apply h.writeWord
      rw [List.length_append]
      push_cast
      omega
    · -- The ring is full with this word, so the oldest kept object goes.
      rw [if_neg hroom]
      cases hmade : makeRoom WORDS written.length objects with
      | nil =>
        rw [hmade] at hroom
        simp only [allCells_nil, List.length_nil] at hroom
        omega
      | cons oldest newer =>
        rw [hmade] at h hkept hroom
        refine h.writeWord_full val ?_ ?_ oldest.length_words
        · rw [List.length_append]
          push_cast
          omega
        · simp [StoredObject.cells]
  · -- The object occupies the whole ring; this is its last word.
    rw [if_neg hlast]
    have hnone : makeRoom WORDS written.length objects = [] := allCells_eq_nil (by omega)
    have hrest : rest = [] := List.length_eq_zero_iff.mp (by omega)
    rw [hnone, allCells_nil, List.nil_append] at h
    refine h.writeWord_full val (by omega) ?_ object.length_words
    rw [List.append_nil, ← hrest]
    exact hobject.symm

theorem Content.foldl_writeWord {object : StoredObject} {written rest : List Int}
    (h : Content WORDS ring (whileWriting WORDS objects written))
    (hobject : object.cells = written ++ rest) (hsize : object.cells.length ≤ WORDS) :
    Content WORDS (rest.foldl (fun ring val => ring.writeWord WORDS val) ring)
      (whileWriting WORDS objects object.cells) := by
  induction rest generalizing ring written with
  | nil =>
    rw [hobject, List.append_nil]
    exact h
  | cons val rest ih =>
    exact ih (h.whileWriting_writeWord hobject hsize) (by simp [hobject])

theorem writeWords_eq_foldl (source : Memory Int) (len : Int) (ring : ByteStreamRingBuffer) :
    ring.writeWords WORDS source len =
      (source.front ((len + 3) / 4).toNat).foldl (fun ring val => ring.writeWord WORDS val)
        ring := by
  fun_induction writeWords WORDS source len ring with
  | case1 source len ring hlen ih =>
    have hcount : ((len + 3) / 4).toNat = ((len - 4 + 3) / 4).toNat + 1 := by omega
    rw [ih, hcount, Memory.front_cons, List.foldl_cons]
  | case2 source len ring hlen =>
    have hcount : ((len + 3) / 4).toNat = 0 := by omega
    rw [hcount]
    rfl

/-- What an accepted object leaves behind. -/
def afterWrite (WORDS : Int) (objects : List StoredObject) (object : StoredObject) :
    List StoredObject :=
  if object.cells.length < WORDS then
    makeRoom WORDS object.cells.length objects ++ [object]
  else []

theorem whileWriting_cells (WORDS : Int) (objects : List StoredObject) (object : StoredObject) :
    whileWriting WORDS objects object.cells = allCells (afterWrite WORDS objects object) := by
  rw [whileWriting, afterWrite]
  split
  · simp [allCells_append]
  · rfl

/-- The objects that stay are the newest ones, in write order. -/
theorem afterWrite_suffix (WORDS : Int) (objects : List StoredObject) (object : StoredObject) :
    afterWrite WORDS objects object <:+ objects ++ [object] := by
  unfold afterWrite
  split
  · obtain ⟨dropped, hdropped⟩ := makeRoom_suffix WORDS object.cells.length objects
    exact ⟨dropped, by rw [← List.append_assoc, hdropped]⟩
  · exact List.nil_suffix

theorem Content.write (h : Content WORDS ring (allCells objects)) (buf : Memory Int) {len : Int}
    (hlen : 0 < len) (haccepted : wordsInObject len < WORDS) :
    (ring.write WORDS buf len).1 = true ∧
      Content WORDS (ring.write WORDS buf len).2
        (allCells (afterWrite WORDS objects (StoredObject.ofBuffer buf len hlen))) := by
  have hreject : ¬ wordsInObject len ≥ WORDS := by omega
  have hzero : ¬ len = 0 := by omega
  simp only [ByteStreamRingBuffer.write, if_neg hreject, if_neg hzero, true_and]
  let object := StoredObject.ofBuffer buf len hlen
  have hpositive : 0 < WORDS := by have := h.room; omega
  have hstart : Content WORDS ring (whileWriting WORDS objects []) := by
    rw [whileWriting, if_pos (by simpa using hpositive), List.append_nil,
      makeRoom_of_fits (by simpa using h.room)]
    exact h
  have hsize : object.cells.length ≤ WORDS := by
    have := object.length_cells
    have hobjectLen : object.len = len := rfl
    rw [hobjectLen] at this
    omega
  have hcells : object.cells = [] ++ object.cells := rfl
  have hfold := hstart.foldl_writeWord hcells hsize
  have hcount : ((len + 3) / 4).toNat = (wordsInObject len).toNat := by
    rw [wordsInObject_eq (by omega)]
  rw [writeWords_eq_foldl, hcount, ← whileWriting_cells]
  exact hfold

theorem write_rejected (buf : Memory Int) {len : Int} (hrejected : WORDS ≤ wordsInObject len) :
    ring.write WORDS buf len = (false, ring) := by
  rw [ByteStreamRingBuffer.write, if_pos hrejected]

theorem Content.readWords {words rest : List Int} (h : Content WORDS ring (words ++ rest))
    (buf : Memory Int) (index : Nat) {len : Int}
    (hwords : words.length = ((len + 3) / 4).toNat) :
    (ring.readWords WORDS buf index len).1.front (index + words.length) =
        buf.front index ++ words ∧
      Content WORDS (ring.readWords WORDS buf index len).2 rest := by
  induction words generalizing ring buf index len with
  | nil =>
    rw [List.length_nil] at hwords
    rw [ByteStreamRingBuffer.readWords, if_neg (by omega)]
    exact ⟨by simp, h⟩
  | cons word words ih =>
    rw [List.length_cons] at hwords
    obtain ⟨hword, hcontent⟩ := h.readWord
    rw [ByteStreamRingBuffer.readWords, if_pos (by omega)]
    have hremaining : words.length = ((len - 4 + 3) / 4).toNat := by omega
    obtain ⟨hfront, hrest⟩ :=
      ih hcontent (buf.store index (ring.readWord WORDS).1) (index + 1) hremaining
    refine ⟨?_, hrest⟩
    rw [List.length_cons, Nat.add_comm words.length, ← Nat.add_assoc]
    exact hfront.trans (by rw [Memory.front_store_end, hword]; simp)

/-- What a read sees first: the length of the oldest object. -/
theorem Content.oldest {oldest : StoredObject} {newer : List StoredObject}
    (h : Content WORDS ring (allCells (oldest :: newer))) :
    ring.isEmpty = false ∧ (ring.readWord WORDS).1 = oldest.len ∧
      Content WORDS (ring.readWord WORDS).2 (oldest.words ++ allCells newer) := by
  have hcells : Content WORDS ring (oldest.len :: (oldest.words ++ allCells newer)) := h
  refine ⟨?_, hcells.readWord⟩
  rw [← Bool.not_eq_true, h.isEmpty_iff]
  simp [StoredObject.cells]

/-- Reading with room for the oldest object returns its length and its words and removes it. -/
theorem Content.read {oldest : StoredObject} {newer : List StoredObject}
    (h : Content WORDS ring (allCells (oldest :: newer))) (buf : Memory Int) {maxLen : Int}
    (hroom : oldest.len ≤ maxLen) :
    (ring.read WORDS buf maxLen).1 = oldest.len ∧
      (ring.read WORDS buf maxLen).2.1.front oldest.words.length = oldest.words ∧
      Content WORDS (ring.read WORDS buf maxLen).2.2 (allCells newer) := by
  obtain ⟨hnonempty, hlen, hcontent⟩ := h.oldest
  have hcount : oldest.words.length = ((oldest.len + 3) / 4).toNat := by
    have hpos := oldest.len_pos
    have := oldest.length_words
    rw [wordsInObject_eq (by omega)] at this
    omega
  obtain ⟨hfront, hrest⟩ := hcontent.readWords buf 0 hcount
  rw [ByteStreamRingBuffer.read]
  simp only [hnonempty, hlen, Bool.false_eq_true, if_false, if_neg (not_lt.mpr hroom)]
  exact ⟨trivial, by simpa using hfront, hrest⟩

theorem Content.read_empty (h : Content WORDS ring []) (buf : Memory Int) (maxLen : Int) :
    ring.read WORDS buf maxLen = (0, buf, ring) := by
  rw [ByteStreamRingBuffer.read, if_pos (h.isEmpty_iff.mpr rfl)]

theorem Content.reset {words : List Int} (h : Content WORDS ring words) :
    Content WORDS ring.reset [] := by
  have hpositive : 0 < WORDS := by have := h.room; omega
  exact ⟨Int.le_refl 0, hpositive, by simpa using hpositive,
    by simp [ByteStreamRingBuffer.reset], rfl⟩

theorem content_initial (hWORDS : 0 < WORDS) : Content WORDS {} [] :=
  ⟨Int.le_refl 0, hWORDS, by simpa using hWORDS, by simp, rfl⟩

end ByteStreamRingBuffer

end Rodos.Support
