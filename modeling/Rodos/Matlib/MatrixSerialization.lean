import Mathlib.Algebra.Group.Nat.Defs
import Rodos.Support.TerminatedStrings

/-! `Matrix3D_::serialize` and `Matrix3D_::deserialize`: a label and the bytes of nine elements in a
buffer that is large enough. -/
namespace Rodos.Matlib
open Library Support

/-- The types of elements, by their size. -/
inductive ElementType where
  | float
  | double

def ElementType.sizeof : ElementType → Nat
  | .float => 4
  | .double => 8

/-- The memory from `label` on and the bytes from `&r[0][0]` on. -/
structure Matrix3D where
  label : Memory UInt8
  r : Memory UInt8

namespace Matrix3D

variable (TYPE : ElementType) (fuel : Nat) (self : Matrix3D)

/-- Where the elements are: `ptr` is moved by the words of an `uint32_t`. -/
def elementsBegin (labelLen : Nat) : Nat := 4 * ((labelLen + 1) / TYPE.sizeof)

def serializedSize (labelLen : Nat) : UInt32 := UInt32.ofNat (labelLen + 1 + TYPE.sizeof * 9)

def serialize (buffer : Logged UInt8) : Option (UInt32 × Logged UInt8) :=
  (strcpy fuel buffer ⟨self.label, []⟩).bind fun (buffer, _) =>
    (strlen fuel ⟨self.label, []⟩).bind fun (labelLen, _) =>
      let ptr := elementsBegin TYPE labelLen
      let (buffer, _) := memcpy buffer ⟨self.r, []⟩ ptr 0 (TYPE.sizeof * 9)
      some (serializedSize TYPE labelLen, buffer)

/-- The label is left in the buffer. -/
def deserialize (buffer : Memory UInt8) : Option (UInt32 × Matrix3D) :=
  (strlen fuel ⟨buffer, []⟩).bind fun (labelLen, _) =>
    let ptr := elementsBegin TYPE labelLen
    let (r, _) := memcpy ⟨self.r, []⟩ ⟨buffer, []⟩ 0 ptr (TYPE.sizeof * 9)
    some (serializedSize TYPE labelLen, { label := buffer, r := r.cells })

/-- Deserialized from the buffer, `other` has the label and the elements of the matrix, and both
functions return the number of bytes at the start of the buffer that are written. -/
def RoundTrips (other : Matrix3D) (text : List UInt8) (buffer : Memory UInt8) : Prop :=
  ∃ size after read restored,
    self.serialize TYPE fuel ⟨buffer, []⟩ = some (size, after) ∧
    other.deserialize TYPE fuel after.cells = some (read, restored) ∧
    StringAt restored.label 0 text ∧
    (∀ index < TYPE.sizeof * 9, restored.r index = self.r index) ∧
    (∀ index, index ∈ after.touched ↔ index < size.toNat) ∧
    read = size

variable {TYPE fuel self} {text : List UInt8}

theorem elementsBegin_le (TYPE : ElementType) (labelLen : Nat) :
    elementsBegin TYPE labelLen ≤ labelLen + 1 := by
  cases TYPE <;> simp only [elementsBegin, ElementType.sizeof] <;> omega

theorem toNat_serializedSize (TYPE : ElementType) (labelLen : Nat) :
    (serializedSize TYPE labelLen).toNat = (labelLen + 1 + TYPE.sizeof * 9) % 2 ^ 32 :=
  UInt32.toNat_ofNat' ..

/-- The elements are written after the label and over its end, if they begin before it. -/
theorem serialize_spec (hlabel : StringAt self.label 0 text) (hfuel : text.length < fuel)
    (buffer : Memory UInt8) :
    ∃ after,
      self.serialize TYPE fuel ⟨buffer, []⟩ = some (serializedSize TYPE text.length, after) ∧
      (∀ index, elementsBegin TYPE text.length ≤ index →
        index < elementsBegin TYPE text.length + TYPE.sizeof * 9 →
        after.cells index = self.r (index - elementsBegin TYPE text.length)) ∧
      (∀ index < elementsBegin TYPE text.length, index ≤ text.length →
        after.cells index = self.label index) ∧
      ∀ index, index ∈ after.touched ↔
        index < max (text.length + 1) (elementsBegin TYPE text.length + TYPE.sizeof * 9) := by
  obtain ⟨copied, _, hcopy, hcells, htouched⟩ := @strcpyFrom_spec text fuel 0 text.length
    ⟨buffer, []⟩ ⟨self.label, []⟩ hlabel (Nat.zero_add _) hfuel
  obtain ⟨_, hlen, _⟩ := @strlen_spec text fuel ⟨self.label, []⟩ hlabel hfuel
    (Logged.within_fresh _)
  have hbegin := elementsBegin_le TYPE text.length
  refine ⟨(memcpy copied ⟨self.r, []⟩ (elementsBegin TYPE text.length) 0 (TYPE.sizeof * 9)).1, ?_,
    fun index hlow hhigh => ?_, fun index hbefore hinside => ?_, fun index => ?_⟩
  · rw [serialize, strcpy, hcopy]
    dsimp only [Option.bind_some]
    rw [hlen]
    rfl
  · rw [cells_memcpy, Memory.copy_inside _ _ _ hlow hhigh, Nat.zero_add]
  · rw [cells_memcpy, Memory.copy_outside _ _ _ (.inl hbefore), hcells,
      if_pos ⟨Nat.zero_le _, hinside⟩]
  · rw [mem_touched_memcpy, htouched]
    simp only [List.not_mem_nil, false_or]
    omega

theorem deserialize_spec {buffer : Memory UInt8} (hlabel : StringAt buffer 0 text)
    (hfuel : text.length < fuel) :
    ∃ restored, self.deserialize TYPE fuel buffer =
        some (serializedSize TYPE text.length, restored) ∧
      restored.label = buffer ∧
      ∀ index < TYPE.sizeof * 9,
        restored.r index = buffer (elementsBegin TYPE text.length + index) := by
  obtain ⟨_, hlen, _⟩ := @strlen_spec text fuel ⟨buffer, []⟩ hlabel hfuel (Logged.within_fresh _)
  refine ⟨⟨buffer, (memcpy ⟨self.r, []⟩ ⟨buffer, []⟩ 0 (elementsBegin TYPE text.length)
    (TYPE.sizeof * 9)).1.cells⟩, ?_, rfl, fun index hindex => ?_⟩
  · rw [deserialize, hlen]
    rfl
  · rw [cells_memcpy]
    dsimp only
    rw [Memory.copy_inside _ _ _ (Nat.zero_le _) (by omega), Nat.sub_zero]

/-- What is returned is the end of the bytes that are written. -/
theorem RoundTrips.size_eq {other : Matrix3D} {buffer : Memory UInt8}
    (h : self.RoundTrips TYPE fuel other text buffer) (hlabel : StringAt self.label 0 text)
    (hfuel : text.length < fuel) :
    (text.length + 1 + TYPE.sizeof * 9) % 2 ^ 32 =
      max (text.length + 1) (elementsBegin TYPE text.length + TYPE.sizeof * 9) := by
  obtain ⟨size, after, _, _, hserialize, _, _, _, htouched, _⟩ := h
  obtain ⟨written, hwritten, _, _, hmem⟩ := @serialize_spec TYPE fuel self text hlabel hfuel buffer
  rw [hwritten] at hserialize
  cases hserialize
  rw [← toNat_serializedSize]
  apply Nat.le_antisymm
  · apply Nat.le_of_not_lt
    intro hless
    exact absurd ((hmem _).mp ((htouched _).mpr hless)) (Nat.lt_irrefl _)
  · apply Nat.le_of_not_lt
    intro hless
    exact absurd ((htouched _).mp ((hmem _).mpr hless)) (Nat.lt_irrefl _)

/-- For elements of four bytes behind a label that fills whole words. -/
theorem roundTrips_float (hlabel : StringAt self.label 0 text) (hfuel : text.length < fuel)
    (hwords : 4 ∣ text.length + 1) (hsize : text.length + 37 < 2 ^ 32) (other : Matrix3D)
    (buffer : Memory UInt8) : self.RoundTrips .float fuel other text buffer := by
  obtain ⟨after, hserialize, helements, hbefore, htouched⟩ :=
    @serialize_spec .float fuel self text hlabel hfuel buffer
  have hbegin : elementsBegin .float text.length = text.length + 1 := by
    rw [elementsBegin]
    exact Nat.mul_div_cancel' hwords
  rw [hbegin] at helements hbefore htouched
  have hrestored : StringAt after.cells 0 text := by
    apply hlabel.congr
    intro index hindex
    rw [Nat.zero_add]
    exact hbefore index (Nat.lt_succ_of_le hindex) hindex
  obtain ⟨restored, hdeserialize, hrestoredLabel, hread⟩ :=
    @deserialize_spec .float fuel other text after.cells hrestored hfuel
  refine ⟨_, after, _, restored, hserialize, hdeserialize, hrestoredLabel ▸ hrestored,
    fun index hindex => ?_, fun index => ?_, rfl⟩
  · rw [hread index hindex, hbegin, helements _ (Nat.le_add_right _ _) (by omega),
      Nat.add_sub_cancel_left]
  · rw [htouched, toNat_serializedSize]
    simp only [ElementType.sizeof]
    omega

/-- Label and elements come back, with the size that is returned, exactly for elements of four bytes
behind a label that fills whole words with its terminator, up to the largest size. -/
theorem roundTrips_iff (hlabel : StringAt self.label 0 text) (hfuel : text.length < fuel)
    (other : Matrix3D) (buffer : Memory UInt8) :
    self.RoundTrips TYPE fuel other text buffer ↔
      TYPE = .float ∧ 4 ∣ text.length + 1 ∧ text.length + 37 < 2 ^ 32 := by
  constructor
  · intro hround
    have hsize := hround.size_eq hlabel hfuel
    cases TYPE with
    | float =>
      simp only [elementsBegin, ElementType.sizeof] at hsize
      exact ⟨rfl, by omega, by omega⟩
    | double =>
      simp only [elementsBegin, ElementType.sizeof] at hsize
      omega
  · rintro ⟨rfl, hwords, hsize⟩
    exact roundTrips_float hlabel hfuel hwords hsize other buffer

/-- A label of three characters and its terminator are one word. -/
theorem roundTrips_iff_word :
    RoundTrips .float 4 ⟨Memory.ofText [0x61, 0x62, 0x63], fun _ => 1⟩ ⟨fun _ => 0, fun _ => 0⟩
      [0x61, 0x62, 0x63] (fun _ => 0) :=
  (@roundTrips_iff .float 4 ⟨Memory.ofText [0x61, 0x62, 0x63], fun _ => 1⟩ [0x61, 0x62, 0x63]
    (stringAt_ofText (by decide)) (by decide) _ _).mpr ⟨rfl, by decide, by decide⟩

/-- The label that the constructors give a matrix, `"matrix"`: the elements begin at byte 4. -/
theorem roundTrips_default_label (TYPE : ElementType) (matrix : Matrix3D)
    (hlabel : StringAt matrix.label 0 [0x6D, 0x61, 0x74, 0x72, 0x69, 0x78]) (other : Matrix3D)
    (buffer : Memory UInt8) :
    ¬ matrix.RoundTrips TYPE 7 other [0x6D, 0x61, 0x74, 0x72, 0x69, 0x78] buffer := by
  intro hround
  have hsize := hround.size_eq hlabel (by decide)
  cases TYPE with
  | float => exact absurd hsize (by decide)
  | double => exact absurd hsize (by decide)

/-- The zero matrix with this label, of either type of elements. -/
theorem roundTrips_zero_matrix :
    ¬ RoundTrips .float 7 ⟨Memory.ofText [0x6D, 0x61, 0x74, 0x72, 0x69, 0x78], fun _ => 0⟩
        ⟨fun _ => 0, fun _ => 0⟩ [0x6D, 0x61, 0x74, 0x72, 0x69, 0x78] (fun _ => 0) ∧
      ¬ RoundTrips .double 7 ⟨Memory.ofText [0x6D, 0x61, 0x74, 0x72, 0x69, 0x78], fun _ => 0⟩
        ⟨fun _ => 0, fun _ => 0⟩ [0x6D, 0x61, 0x74, 0x72, 0x69, 0x78] (fun _ => 0) :=
  ⟨roundTrips_default_label .float _ (stringAt_ofText (by decide)) _ _,
    roundTrips_default_label .double _ (stringAt_ofText (by decide)) _ _⟩

end Matrix3D

end Rodos.Matlib
