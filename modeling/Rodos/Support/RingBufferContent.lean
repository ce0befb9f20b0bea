import Rodos.Support.ByteStreamRingBuffer

/-! The words between `readX` and `writeX`, and how each word written or read moves them. -/
namespace Rodos.Support
open Library Library.Cyclic

theorem wordsInObject_eq {bytes : Int} (hbytes : 0 ≤ bytes) :
    wordsInObject bytes = (bytes + 3) / 4 := by
  rw [wordsInObject, Int.tdiv_eq_ediv_of_nonneg (by omega)]

theorem toNat_wordsInObject {bytes : Int} (hbytes : 0 ≤ bytes) :
    ((wordsInObject bytes).toNat : Int) = wordsInObject bytes := by
  rw [wordsInObject_eq hbytes]
  omega

/-- An object as it lies in the ring: its length word and its payload words. -/
structure StoredObject where
  len : Int
  words : List Int
  len_pos : 0 < len
  length_words : (words.length : Int) = wordsInObject len

namespace StoredObject

def cells (object : StoredObject) : List Int := object.len :: object.words

def ofBuffer (buf : Memory Int) (len : Int) (hlen : 0 < len) : StoredObject where
  len := len
  words := buf.front (wordsInObject len).toNat
  len_pos := hlen
  length_words := by rw [Memory.length_front, toNat_wordsInObject (by omega)]

theorem length_cells (object : StoredObject) :
    (object.cells.length : Int) = 1 + wordsInObject object.len := by
  have := object.length_words
  simp only [cells, List.length_cons]
  omega

theorem length_cells_pos (object : StoredObject) : 2 ≤ object.cells.length := by
  have hlength := object.length_cells
  have hpos := object.len_pos
  rw [wordsInObject_eq (by omega)] at hlength
  omega

end StoredObject

namespace ByteStreamRingBuffer

/-- The words from `readX` up to `writeX`; a full ring is never left standing. -/
structure Content (WORDS : Int) (ring : ByteStreamRingBuffer) (words : List Int) : Prop where
  readX_nonneg : 0 ≤ ring.readX
  readX_lt : ring.readX < WORDS
  room : words.length < WORDS
  writeX_eq : ring.writeX = (ring.readX + words.length) % WORDS
  cells_eq : cells ring.buffer WORDS ring.readX words.length = words

variable {WORDS : Int} {ring : ByteStreamRingBuffer} {words : List Int}

theorem Content.readX_emod (h : Content WORDS ring words) : ring.readX % WORDS = ring.readX :=
  Int.emod_eq_of_lt h.readX_nonneg h.readX_lt

theorem Content.isEmpty_iff (h : Content WORDS ring words) :
    ring.isEmpty = true ↔ words = [] := by
  rw [isEmpty, beq_iff_eq, h.writeX_eq]
  constructor
  · intro heq
    by_contra hne
    have hpos : 0 < words.length := List.length_pos_iff.mpr hne
    apply index_ne ring.readX hpos h.room
    simpa [h.readX_emod] using heq
  · rintro rfl
    simp [h.readX_emod]

/-- Storing behind the content; `writeX` then stands one cell further. -/
theorem Content.stored (h : Content WORDS ring words) (val : Int) :
    cells (Function.update ring.buffer ring.writeX val) WORDS ring.readX (words.length + 1) =
        words ++ [val] ∧
      (ring.writeX + 1).tmod WORDS = (ring.readX + (words.length + 1 : Nat)) % WORDS := by
  constructor
  · rw [h.writeX_eq, cells_store_end val h.room, h.cells_eq]
  · have hnonneg : 0 ≤ ring.writeX := by
      rw [h.writeX_eq]
      exact Int.emod_nonneg _ (by have := h.room; omega)
    rw [Int.tmod_eq_emod_of_nonneg (by omega), h.writeX_eq, Int.emod_add_emod]
    congr 1
    push_cast
    omega

theorem Content.writeWord (h : Content WORDS ring words) (val : Int)
    (hroom : words.length + 1 < WORDS) :
    Content WORDS (ring.writeWord WORDS val) (words ++ [val]) := by
  obtain ⟨hcells, hwriteX⟩ := h.stored val
  have hne : (ring.writeX + 1).tmod WORDS ≠ ring.readX := by
    rw [hwriteX]
    have hdistinct : (ring.readX + (0 : Nat)) % WORDS ≠
        (ring.readX + (words.length + 1 : Nat)) % WORDS :=
      index_ne ring.readX (by omega) hroom
    simpa [h.readX_emod] using hdistinct.symm
  simp only [ByteStreamRingBuffer.writeWord, if_neg hne]
  exact ⟨h.readX_nonneg, h.readX_lt, by simpa using hroom, by simpa using hwriteX,
    by simpa using hcells⟩

/-- The word that fills the ring makes it jump over the oldest object, whole. -/
theorem Content.writeWord_full (h : Content WORDS ring words) (val : Int)
    (hfull : words.length + 1 = WORDS) {header : Int} {body rest : List Int}
    (hsplit : words ++ [val] = header :: body ++ rest)
    (hbody : (body.length : Int) = wordsInObject header) :
    Content WORDS (ring.writeWord WORDS val) rest := by
  obtain ⟨hcells, hwriteX⟩ := h.stored val
  have hlength : words.length + 1 = 1 + body.length + rest.length := by
    have := congrArg List.length hsplit
    simp only [List.length_append, List.length_cons, List.length_nil] at this
    omega
  have heq : (ring.writeX + 1).tmod WORDS = ring.readX := by
    rw [hwriteX]
    push_cast
    rw [hfull, Int.add_emod_right, h.readX_emod]
  have hheader : Function.update ring.buffer ring.writeX val ring.readX = header := by
    rw [cells_cons, h.readX_emod, hsplit] at hcells
    exact (List.cons.inj hcells).1
  have hnonneg := h.readX_nonneg
  have hjump : (ring.readX + 1 + wordsInObject header).tmod WORDS =
      (ring.readX + (1 + body.length : Nat)) % WORDS := by
    rw [← hbody, Int.tmod_eq_emod_of_nonneg (by omega)]
    congr 1
    push_cast
    omega
  simp only [ByteStreamRingBuffer.writeWord, heq, if_true, hheader, hjump]
  have hWORDS : 0 < WORDS := by have := h.room; omega
  refine ⟨Int.emod_nonneg _ (by omega), Int.emod_lt_of_pos _ hWORDS, by omega, ?_, ?_⟩
  · rw [Int.emod_add_emod]
    refine heq.symm.trans (hwriteX.trans ?_)
    congr 1
    rw [hlength]
    push_cast
    omega
  · have hskipped : 1 + body.length ≤ words.length + 1 := by omega
    have hdrop := drop_cells (Function.update ring.buffer ring.writeX val) WORDS ring.readX hskipped
    rw [hcells, hsplit] at hdrop
    rw [cells_emod]
    have hrest : words.length + 1 - (1 + body.length) = rest.length := by omega
    rw [hrest] at hdrop
    rw [← hdrop, List.drop_left' (by simp [Nat.add_comm])]

theorem Content.readWord {word : Int} (h : Content WORDS ring (word :: words)) :
    (ring.readWord WORDS).1 = word ∧ Content WORDS (ring.readWord WORDS).2 words := by
  have hnonneg := h.readX_nonneg
  have hcells := h.cells_eq
  rw [List.length_cons, cells_cons, h.readX_emod] at hcells
  obtain ⟨hword, hrest⟩ := List.cons.inj hcells
  have hroom : words.length + 1 < WORDS := by simpa using h.room
  have hnext : (ring.readX + 1).tmod WORDS = (ring.readX + 1) % WORDS :=
    Int.tmod_eq_emod_of_nonneg (by omega)
  refine ⟨hword, ?_⟩
  simp only [ByteStreamRingBuffer.readWord, hnext]
  refine ⟨Int.emod_nonneg _ (by omega), Int.emod_lt_of_pos _ (by omega), by omega, ?_, ?_⟩
  · rw [Int.emod_add_emod, h.writeX_eq, List.length_cons]
    congr 1
    push_cast
    omega
  · rw [cells_emod, hrest]

end ByteStreamRingBuffer

end Rodos.Support
