import Rodos.Support.AllocableObjects

/-! Which addresses `AllocableObjects::indexOf` takes for those of its own objects. -/
namespace Rodos.Support

/-- The array of a pool among the bytes that `w` bits can address. No array is so large that the
difference of two pointers into it overflows. -/
structure ItemBuffer (w : Nat) where
  LENGTH : UInt32
  sizeofType : Nat
  buffer : BitVec w
  sizeofType_pos : 0 < sizeofType
  fits : LENGTH.toNat * sizeofType < 2 ^ (w - 1)

namespace ItemBuffer

section code

variable {w : Nat} (self : ItemBuffer w)

/-- `&buffer[index]`. -/
def element (index : UInt32) : BitVec w :=
  self.buffer + BitVec.ofNat w (index.toNat * self.sizeofType)

/-- How many bytes a pointer is behind `buffer`. -/
def distance (item : BitVec w) : Int := (item - self.buffer).toInt

/-- `elements` is what the compiler makes of the subtraction of two pointers so many bytes apart:
the number of objects between them, and anything if that is not a whole one. -/
def Subtracts (elements : Int → Int) : Prop :=
  ∀ count : Int, elements (count * self.sizeofType) = count

variable (elements : Int → Int)

def indexOf (item : BitVec w) : Except ErrorCode UInt32 :=
  let index := UInt32.ofInt (elements (self.distance item))
  if index > self.LENGTH then .error .BAD_POINTER else .ok index

-- the pool counts addresses in objects, here from the first one on

def free (pool : AllocableObjects) (item : BitVec w) : Option (Bool × AllocableObjects) :=
  pool.free 0 self.LENGTH (UInt32.ofInt (elements (self.distance item)))

def copyReference (pool : AllocableObjects) (item : BitVec w) :
    Option (UInt32 × AllocableObjects) :=
  pool.copyReference 0 self.LENGTH (UInt32.ofInt (elements (self.distance item)))

end code

/-- `indexOf` accepts the pointer exactly if it is one to an object, with the index of the object,
and no caller accesses `referenceCnt` behind its end. -/
structure Classifies {w : Nat} (array : ItemBuffer w) (elements : Int → Int) (item : BitVec w) :
    Prop where
  indexOf_eq : ∀ index, array.indexOf elements item = .ok index ↔
    index < array.LENGTH ∧ item = array.element index
  free : ∀ pool, (array.free elements pool item).isSome
  copyReference : ∀ pool, (array.copyReference elements pool item).isSome

section

variable {w : Nat} {self : ItemBuffer w} {elements : Int → Int} {item : BitVec w}

theorem indexOf_eq_pool :
    self.indexOf elements item =
      AllocableObjects.indexOf 0 self.LENGTH (UInt32.ofInt (elements (self.distance item))) := by
  rw [indexOf, AllocableObjects.indexOf, UInt32.sub_zero]

/-- A caller gets along if what is accepted is less than `LENGTH`. -/
theorem callers_isSome
    (h : ∀ index, self.indexOf elements item = .ok index → index < self.LENGTH)
    (pool : AllocableObjects) :
    (self.free elements pool item).isSome ∧ (self.copyReference elements pool item).isSome := by
  rw [indexOf_eq_pool] at h
  rw [free, copyReference, AllocableObjects.free, AllocableObjects.copyReference]
  cases hindex : AllocableObjects.indexOf 0 self.LENGTH
    (UInt32.ofInt (elements (self.distance item))) with
  | error code => exact ⟨rfl, rfl⟩
  | ok index =>
    have hinside : ¬ self.LENGTH ≤ index := UInt32.not_le.mpr (h index hindex)
    dsimp only
    rw [if_neg hinside, if_neg hinside]
    constructor
    · split <;> rfl
    · split <;> rfl

theorem toNat_ofInt (value : Int) : (UInt32.ofInt value).toNat = (value % 2 ^ 32).toNat := by
  rw [UInt32.ofInt, UInt32.toNat_ofNat']
  omega

theorem distance_element {index : UInt32} (hindex : index < self.LENGTH) :
    self.distance (self.element index) = index.toNat * self.sizeofType := by
  have hless : index.toNat < self.LENGTH.toNat := UInt32.lt_iff_toNat_lt.mp hindex
  have hbytes : index.toNat * self.sizeofType < self.LENGTH.toNat * self.sizeofType :=
    Nat.mul_lt_mul_of_pos_right hless self.sizeofType_pos
  have hfits := self.fits
  have hwidth : w ≠ 0 := by
    rintro rfl
    rw [Nat.zero_sub, Nat.pow_zero] at hfits
    omega
  have hpower : 2 * 2 ^ (w - 1) = 2 ^ w := by
    rw [← Nat.pow_succ', Nat.succ_eq_add_one, Nat.sub_add_cancel (Nat.pos_of_ne_zero hwidth)]
  have hnat : (BitVec.ofNat w (index.toNat * self.sizeofType)).toNat =
      index.toNat * self.sizeofType := by
    rw [BitVec.toNat_ofNat, Nat.mod_eq_of_lt (by omega)]
  have hoffset : self.element index - self.buffer =
      BitVec.ofNat w (index.toNat * self.sizeofType) := by
    rw [element, BitVec.add_comm, BitVec.add_sub_cancel]
  rw [distance, hoffset, BitVec.toInt_eq_toNat_of_lt (by omega), hnat]
  exact Int.natCast_mul _ _

theorem eq_element_iff {count : Int} (hcount : self.distance item = count * self.sizeofType)
    {index : UInt32} (hindex : index < self.LENGTH) :
    item = self.element index ↔ count = index.toNat := by
  have helement := distance_element hindex
  have hpos : (self.sizeofType : Int) ≠ 0 := by
    have := self.sizeofType_pos
    omega
  constructor
  · rintro rfl
    rw [hcount] at helement
    exact Int.eq_of_mul_eq_mul_right hpos helement
  · rintro rfl
    have hoffset : item - self.buffer = self.element index - self.buffer :=
      BitVec.eq_of_toInt_eq (hcount.trans helement.symm)
    rw [← BitVec.sub_add_cancel item self.buffer, hoffset, BitVec.sub_add_cancel]

/-- A pointer a whole number of objects behind `buffer` has that index, modulo the width of an
`uint32_t`, and the check admits one index too many. -/
theorem indexOf_whole (hsubtracts : self.Subtracts elements) {count : Int}
    (hcount : self.distance item = count * self.sizeofType) (index : UInt32) :
    self.indexOf elements item = .ok index ↔
      count % 2 ^ 32 ≤ self.LENGTH.toNat ∧ count % 2 ^ 32 = index.toNat := by
  have hgreater : UInt32.ofInt count > self.LENGTH ↔ self.LENGTH.toNat < count % 2 ^ 32 := by
    rw [gt_iff_lt, UInt32.lt_iff_toNat_lt, toNat_ofInt]
    omega
  have hequal : UInt32.ofInt count = index ↔ count % 2 ^ 32 = index.toNat := by
    rw [← UInt32.toNat_inj, toNat_ofInt]
    omega
  rw [indexOf, hcount, hsubtracts]
  by_cases hbeyond : UInt32.ofInt count > self.LENGTH
  · rw [if_pos hbeyond]
    rw [hgreater] at hbeyond
    constructor
    · intro herror
      exact absurd herror (by simp)
    · intro hindex
      exact absurd hindex.1 (Int.not_le.mpr hbeyond)
  · rw [if_neg hbeyond, Except.ok.injEq, hequal]
    rw [hgreater] at hbeyond
    exact (and_iff_right (Int.not_lt.mp hbeyond)).symm

theorem classifies_whole (hsubtracts : self.Subtracts elements) {count : Int}
    (hcount : self.distance item = count * self.sizeofType) :
    self.Classifies elements item ↔
      0 ≤ count ∧ count < self.LENGTH.toNat ∨ self.LENGTH.toNat < count % 2 ^ 32 := by
  have hcode := indexOf_whole hsubtracts hcount
  constructor
  · intro hclassifies
    by_cases hbeyond : self.LENGTH.toNat < count % 2 ^ 32
    · exact .inr hbeyond
    · have hok := (hcode (UInt32.ofInt count)).mpr ⟨Int.not_lt.mp hbeyond, by
        rw [toNat_ofInt]
        omega⟩
      obtain ⟨hindex, helement⟩ := (hclassifies.indexOf_eq _).mp hok
      rw [eq_element_iff hcount hindex] at helement
      rw [UInt32.lt_iff_toNat_lt] at hindex
      exact .inl (by omega)
  · intro htold
    have haccepts : ∀ index, self.indexOf elements item = .ok index ↔
        index < self.LENGTH ∧ item = self.element index := by
      intro index
      rw [hcode]
      have hwidth := self.LENGTH.toNat_lt
      by_cases hindex : index < self.LENGTH
      · rw [eq_element_iff hcount hindex]
        rw [UInt32.lt_iff_toNat_lt] at hindex ⊢
        omega
      · refine iff_of_false (fun hsame => ?_) fun hsame => hindex hsame.1
        rw [UInt32.lt_iff_toNat_lt] at hindex
        omega
    refine ⟨haccepts, fun pool => ?_, fun pool => ?_⟩
    · exact (callers_isSome (fun index h => ((haccepts index).mp h).1) pool).1
    · exact (callers_isSome (fun index h => ((haccepts index).mp h).1) pool).2

/-- In a memory of 32-bit addresses it is only the pointer behind the last object. -/
theorem classifies_whole_32 {self : ItemBuffer 32} {item : BitVec 32}
    (hsubtracts : self.Subtracts elements) {count : Int}
    (hcount : self.distance item = count * self.sizeofType) :
    self.Classifies elements item ↔ count ≠ self.LENGTH.toNat := by
  rw [classifies_whole hsubtracts hcount]
  have hfits := self.fits
  have hlength : self.LENGTH.toNat ≤ self.LENGTH.toNat * self.sizeofType :=
    Nat.le_mul_of_pos_right _ self.sizeofType_pos
  have hlow := BitVec.le_toInt (item - self.buffer)
  have hhigh := BitVec.toInt_lt (x := item - self.buffer)
  rw [show (item - self.buffer).toInt = count * self.sizeofType from hcount] at hlow hhigh
  have hcountLe : count.natAbs ≤ (count * self.sizeofType).natAbs := by
    rw [Int.natAbs_mul, Int.natAbs_natCast]
    exact Nat.le_mul_of_pos_right _ self.sizeofType_pos
  omega

end

end ItemBuffer

end Rodos.Support
