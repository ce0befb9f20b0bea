import Mathlib.Tactic.Common
import Mathlib.Tactic.Ring
import Rodos.Library.Memory

/-! Unsigned numbers in byte memory, most significant byte first. -/
namespace Rodos.Library.Memory

def storeBigEndian (memory : Memory UInt8) (offset : Nat) : Nat → Nat → Memory UInt8
  | 0, _ => memory
  | width + 1, value =>
    (storeBigEndian memory offset width (value / 256)).store (offset + width) (UInt8.ofNat value)

def loadBigEndian (memory : Memory UInt8) (offset : Nat) : Nat → Nat
  | 0 => 0
  | width + 1 => loadBigEndian memory offset width * 256 + (memory (offset + width)).toNat

theorem loadBigEndian_congr {left right : Memory UInt8} {offset width : Nat}
    (hcells : ∀ index, offset ≤ index → index < offset + width → left index = right index) :
    left.loadBigEndian offset width = right.loadBigEndian offset width := by
  induction width with
  | zero => rfl
  | succ width ih =>
    rw [loadBigEndian, loadBigEndian, ih (fun index hlow hhigh => hcells index hlow (by omega)),
      hcells (offset + width) (by omega) (by omega)]

theorem storeBigEndian_other (memory : Memory UInt8) {offset width index : Nat} (value : Nat)
    (hother : index < offset ∨ offset + width ≤ index) :
    memory.storeBigEndian offset width value index = memory index := by
  induction width generalizing value with
  | zero => rfl
  | succ width ih =>
    rw [storeBigEndian, store_other _ _ (by omega)]
    exact ih (value / 256) (by omega)

theorem loadBigEndian_storeBigEndian (memory : Memory UInt8) (offset width value : Nat) :
    (memory.storeBigEndian offset width value).loadBigEndian offset width =
      value % 256 ^ width := by
  induction width generalizing value with
  | zero => simp [loadBigEndian, Nat.mod_one]
  | succ width ih =>
    have hfront : (memory.storeBigEndian offset (width + 1) value).loadBigEndian offset width =
        (memory.storeBigEndian offset width (value / 256)).loadBigEndian offset width := by
      apply loadBigEndian_congr
      intro index _ hhigh
      exact store_other _ _ (by omega)
    have hsplit : value % 256 ^ (width + 1) =
        value % 256 + 256 * (value / 256 % 256 ^ width) := by
      rw [Nat.pow_succ', Nat.mod_mul]
    rw [loadBigEndian, hfront, ih, storeBigEndian, store_same, UInt8.toNat_ofNat', hsplit]
    omega

/-- A number kept in `width` bytes from `offset` on. -/
structure Field where
  offset : Nat
  width : Nat
  value : Nat

/-- No byte of the one is a byte of the other. -/
def Field.Apart (left right : Field) : Prop :=
  left.offset + left.width ≤ right.offset ∨ right.offset + right.width ≤ left.offset

instance (left right : Field) : Decidable (left.Apart right) :=
  inferInstanceAs (Decidable (_ ∨ _))

def storeFields (memory : Memory UInt8) (fields : List Field) : Memory UInt8 :=
  fields.foldl (fun memory field =>
    memory.storeBigEndian field.offset field.width field.value) memory

theorem storeFields_cons (memory : Memory UInt8) (field : Field) (rest : List Field) :
    memory.storeFields (field :: rest) =
      (memory.storeBigEndian field.offset field.width field.value).storeFields rest := rfl

theorem storeFields_other (memory : Memory UInt8) {fields : List Field} {index : Nat}
    (hother : ∀ field ∈ fields, index < field.offset ∨ field.offset + field.width ≤ index) :
    memory.storeFields fields index = memory index := by
  induction fields generalizing memory with
  | nil => rfl
  | cons field rest ih =>
    rw [storeFields_cons, ih _ fun later hlater => hother later (List.mem_cons_of_mem _ hlater)]
    exact storeBigEndian_other _ _ (hother field List.mem_cons_self)

/-- Fields that lie apart can all be read back, in whatever order they are written. -/
theorem loadBigEndian_storeFields (memory : Memory UInt8) {fields : List Field} {field : Field}
    (hapart : fields.Pairwise Field.Apart) (hfield : field ∈ fields) :
    (memory.storeFields fields).loadBigEndian field.offset field.width =
      field.value % 256 ^ field.width := by
  induction fields generalizing memory with
  | nil => cases hfield
  | cons first rest ih =>
    obtain ⟨hfirst, hrest⟩ := List.pairwise_cons.mp hapart
    rw [storeFields_cons]
    cases hfield with
    | tail _ hlater => exact ih _ hrest hlater
    | head =>
      rw [← loadBigEndian_storeBigEndian memory]
      apply loadBigEndian_congr
      intro index hlow hhigh
      apply storeFields_other
      intro later hlater
      have := hfirst later hlater
      unfold Field.Apart at this
      omega

/-! ### Byte strings -/

/-- The memory with a byte string written to its start. -/
def overlay (memory : Memory UInt8) (bytes : List UInt8) : Memory UInt8 := fun index =>
  bytes[index]?.getD (memory index)

/-- The bytes of a number. -/
def bigEndianBytes : Nat → Nat → List UInt8
  | 0, _ => []
  | width + 1, value => bigEndianBytes width (value / 256) ++ [UInt8.ofNat value]

@[simp] theorem length_bigEndianBytes (width value : Nat) :
    (bigEndianBytes width value).length = width := by
  induction width generalizing value with
  | zero => rfl
  | succ width ih => rw [bigEndianBytes, List.length_append, ih, List.length_singleton]

/-- The bytes stand in the memory from `offset` on. -/
def Bears (memory : Memory UInt8) (offset : Nat) (bytes : List UInt8) : Prop :=
  ∀ index < bytes.length, bytes[index]? = some (memory (offset + index))

theorem bears_overlay (memory : Memory UInt8) (bytes : List UInt8) :
    (memory.overlay bytes).Bears 0 bytes := by
  intro index hindex
  rw [Nat.zero_add, overlay, List.getElem?_eq_getElem hindex, Option.getD_some]

theorem front_of_bears {memory : Memory UInt8} {bytes : List UInt8} (h : memory.Bears 0 bytes) :
    memory.front bytes.length = bytes := by
  apply List.ext_getElem?
  intro index
  rw [getElem?_front]
  split
  · next hindex => rw [h index hindex, Nat.zero_add]
  · next hindex => rw [List.getElem?_eq_none (by omega)]

theorem bears_append {memory : Memory UInt8} {offset : Nat} {front back : List UInt8} :
    memory.Bears offset (front ++ back) ↔
      memory.Bears offset front ∧ memory.Bears (offset + front.length) back := by
  constructor
  · intro h
    constructor
    · intro index hindex
      rw [← h index (by simp; omega), List.getElem?_append_left hindex]
    · intro index hindex
      rw [Nat.add_assoc, ← h (front.length + index) (by simp; omega),
        List.getElem?_append_right (by omega), Nat.add_sub_cancel_left]
  · rintro ⟨hfront, hback⟩ index hindex
    rw [List.length_append] at hindex
    by_cases hlow : index < front.length
    · rw [List.getElem?_append_left hlow, hfront index hlow]
    · rw [List.getElem?_append_right (by omega), hback _ (by omega)]
      congr 2
      omega

theorem loadBigEndian_of_bears {memory : Memory UInt8} {offset width value : Nat}
    (h : memory.Bears offset (bigEndianBytes width value)) :
    memory.loadBigEndian offset width = value % 256 ^ width := by
  induction width generalizing value with
  | zero => simp [loadBigEndian, Nat.mod_one]
  | succ width ih =>
    obtain ⟨hfront, hlast⟩ := bears_append.mp h
    rw [length_bigEndianBytes] at hlast
    have hbyte : UInt8.ofNat value = memory (offset + width) :=
      Option.some.inj (hlast 0 (by simp))
    have hsplit : value % 256 ^ (width + 1) =
        value % 256 + 256 * (value / 256 % 256 ^ width) := by
      rw [Nat.pow_succ', Nat.mod_mul]
    rw [loadBigEndian, ih hfront, ← hbyte, UInt8.toNat_ofNat', hsplit]
    omega

end Rodos.Library.Memory
