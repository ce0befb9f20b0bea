import Rodos.Library.Memory

/-! Strings in memory: characters other than zero up to a zero. -/
namespace Rodos.Library

/-- From `start` on the memory holds these characters and then the terminator. -/
structure StringAt (memory : Memory UInt8) (start : Nat) (text : List UInt8) : Prop where
  characters : memory.slice start (start + text.length) = text
  nonzero : 0 ∉ text
  terminated : memory (start + text.length) = 0

namespace StringAt

variable {memory : Memory UInt8} {start : Nat} {text : List UInt8}

theorem getElem?_eq (h : StringAt memory start text) {index : Nat} (hindex : index < text.length) :
    text[index]? = some (memory (start + index)) := by
  have hcell := Memory.getElem?_slice memory start (start + text.length) index
  rw [h.characters, if_pos (by omega)] at hcell
  exact hcell

/-- Up to the terminator the cells are the characters, with a zero behind them. -/
theorem cell_eq (h : StringAt memory start text) {index : Nat} (hindex : index ≤ text.length) :
    memory (start + index) = text.getD index 0 := by
  obtain rfl | hinside := Nat.eq_or_lt_of_le hindex
  · rw [h.terminated]
    simp
  · rw [List.getD_eq_getElem?_getD, h.getElem?_eq hinside]
    rfl

theorem cell_ne_zero (h : StringAt memory start text) {index : Nat}
    (hindex : index < text.length) : memory (start + index) ≠ 0 := by
  intro hzero
  apply h.nonzero
  rw [← hzero]
  exact List.mem_of_getElem? (h.getElem?_eq hindex)

theorem cell_eq_zero_iff (h : StringAt memory start text) {index : Nat}
    (hindex : index ≤ text.length) : memory (start + index) = 0 ↔ index = text.length := by
  constructor
  · intro hzero
    by_contra hne
    exact h.cell_ne_zero (by omega) hzero
  · rintro rfl
    exact h.terminated

/-- The string behind some of the characters. -/
theorem drop (h : StringAt memory start text) {count : Nat} (hcount : count ≤ text.length) :
    StringAt memory (start + count) (text.drop count) := by
  have hlength : start + count + (text.drop count).length = start + text.length := by
    rw [List.length_drop]
    omega
  refine ⟨?_, fun hzero => h.nonzero (List.mem_of_mem_drop hzero), by rw [hlength, h.terminated]⟩
  rw [hlength, Memory.slice, ← List.drop_drop]
  exact congrArg (List.drop count) h.characters

/-- The string behind its first part. -/
theorem back {front : List UInt8} (h : StringAt memory start (front ++ text)) :
    StringAt memory (start + front.length) text := by
  have hdrop := h.drop (show front.length ≤ (front ++ text).length by simp)
  rwa [List.drop_left] at hdrop

theorem cons_iff {character : UInt8} :
    StringAt memory start (character :: text) ↔
      memory start = character ∧ character ≠ 0 ∧ StringAt memory (start + 1) text := by
  constructor
  · intro h
    have hfirst := h.cell_eq (Nat.zero_le _)
    have hrest := h.drop (show 1 ≤ (character :: text).length by simp)
    refine ⟨hfirst, ?_, hrest⟩
    rintro rfl
    exact h.nonzero List.mem_cons_self
  · rintro ⟨hfirst, hcharacter, hrest⟩
    have hlength : start + (character :: text).length = start + 1 + text.length := by
      rw [List.length_cons]
      omega
    refine ⟨?_, ?_, by rw [hlength, hrest.terminated]⟩
    · apply List.ext_getElem?
      intro index
      rw [Memory.getElem?_slice]
      cases index with
      | zero => simp [hfirst]
      | succ index =>
        have hcell := Memory.getElem?_slice memory (start + 1) (start + 1 + text.length) index
        rw [hrest.characters] at hcell
        have hindex : start + (index + 1) = start + 1 + index := by omega
        rw [List.getElem?_cons_succ, hcell, hlength, hindex]
    · intro hzero
      obtain hsame | hmem := List.mem_cons.mp hzero
      · exact hcharacter hsame.symm
      · exact hrest.nonzero hmem

theorem nil_iff : StringAt memory start [] ↔ memory start = 0 := by
  constructor
  · intro h
    exact h.terminated
  · intro hzero
    refine ⟨?_, List.not_mem_nil, hzero⟩
    apply List.ext_getElem?
    intro index
    rw [Memory.getElem?_slice, if_neg (by simp)]
    rfl

theorem congr {other : Memory UInt8} (h : StringAt memory start text)
    (hsame : ∀ index ≤ text.length, other (start + index) = memory (start + index)) :
    StringAt other start text := by
  induction text generalizing start with
  | nil =>
    rw [nil_iff] at h ⊢
    exact (hsame 0 (Nat.le_refl 0)).trans h
  | cons character text ih =>
    rw [cons_iff] at h ⊢
    refine ⟨(hsame 0 (Nat.zero_le _)).trans h.1, h.2.1, ih h.2.2 fun index hindex => ?_⟩
    have hnext := hsame (index + 1) (Nat.succ_le_succ hindex)
    rwa [Nat.add_comm index 1, ← Nat.add_assoc] at hnext

/-- The string in the cells from `offset` on. -/
theorem behind {offset : Nat} :
    StringAt (fun index => memory (offset + index)) start text ↔
      StringAt memory (offset + start) text := by
  induction text generalizing start with
  | nil => rw [nil_iff, nil_iff]
  | cons character text ih => rw [cons_iff, cons_iff, ih, Nat.add_assoc]

end StringAt

/-- A memory that holds just this string. -/
def Memory.ofText (text : List UInt8) : Memory UInt8 := fun index => text.getD index 0

theorem stringAt_ofText {text : List UInt8} (hnonzero : 0 ∉ text) :
    StringAt (Memory.ofText text) 0 text := by
  refine ⟨?_, hnonzero, by simp [Memory.ofText]⟩
  apply List.ext_getElem?
  intro index
  rw [Memory.getElem?_slice]
  by_cases hinside : index < text.length
  · rw [if_pos (by omega), Nat.zero_add, Memory.ofText, List.getD_eq_getElem?_getD,
      List.getElem?_eq_getElem hinside, Option.getD_some]
  · rw [if_neg (by omega), List.getElem?_eq_none (by omega)]

end Rodos.Library
