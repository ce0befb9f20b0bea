import Mathlib.LinearAlgebra.Matrix.Adjugate
import Rodos.Library.IndexLoop

/-! Matrices of any size, over exact arithmetic. The loops over entries that do not depend on each
other are functions of the indices. -/
namespace Rodos.Matlib
open Library

-- Under these names, the numerals for rows and columns carry no proofs of their own.
theorem neZeroOne : NeZero 1 := ⟨by decide⟩
theorem neZeroTwo : NeZero 2 := ⟨by decide⟩
theorem neZeroThree : NeZero 3 := ⟨by decide⟩

attribute [local instance] neZeroOne neZeroTwo neZeroThree

abbrev Matrix_ (ROW COL : Nat) (TYPE : Type) := Matrix (Fin ROW) (Fin COL) TYPE

section ring

variable {TYPE : Type} [CommRing TYPE] {n : Nat}

/-- One round of the loop over the first row. -/
def expand (determinant : Matrix_ n n TYPE → TYPE) (r : Matrix_ (n + 1) (n + 1) TYPE)
    (state : TYPE × Matrix_ n n TYPE) (j1 : Fin (n + 1)) : TYPE × Matrix_ n n TYPE :=
  let rek := Matrix.of fun i => copySkipping j1 (r i.succ) (state.2 i)
  (state.1 + (-1) ^ (j1.val + 2) * r 0 j1 * determinant rek, rek)

/-! The first three sizes are specialisations of their own. -/

def determinant1 (r : Matrix_ 1 1 TYPE) : TYPE := r 0 0

def determinant2 (r : Matrix_ 2 2 TYPE) : TYPE := r 0 0 * r 1 1 - r 1 0 * r 0 1

def determinant3 (r : Matrix_ 3 3 TYPE) : TYPE :=
  let a := r 0 0
  let b := r 0 1
  let c := r 0 2
  let d := r 1 0
  let e := r 1 1
  let f := r 1 2
  let g := r 2 0
  let h := r 2 1
  let i := r 2 2
  a * e * i + b * f * g + c * d * h - g * e * c - h * f * a - i * d * b

def determinant : {n : Nat} → Matrix_ (n + 1) (n + 1) TYPE → TYPE
  | 0, r => determinant1 r
  | 1, r => determinant2 r
  | 2, r => determinant3 r
  | n + 3, r => ((List.finRange (n + 4)).foldl (expand determinant r) (0, 0)).1

/-- The array of the minor is filled from zero for every entry. -/
def cofac (r : Matrix_ (n + 2) (n + 2) TYPE) : Matrix_ (n + 2) (n + 2) TYPE :=
  Matrix.of fun i j =>
    let c := Matrix.of (copySkipping i (fun ii => copySkipping j (r ii) 0) 0)
    let det := determinant c
    (-1) ^ (i.val + j.val + 2) * det

def transpose {ROW COL : Nat} (r : Matrix_ ROW COL TYPE) : Matrix_ COL ROW TYPE :=
  Matrix.of fun j i => r i j

def adjoint (r : Matrix_ (n + 2) (n + 2) TYPE) : Matrix_ (n + 2) (n + 2) TYPE :=
  transpose (cofac r)

def scale {ROW COL : Nat} (r : Matrix_ ROW COL TYPE) (factor : TYPE) : Matrix_ ROW COL TYPE :=
  Matrix.of fun i j => r i j * factor

def mMult {ROW COL COL2 : Nat} (r : Matrix_ ROW COL TYPE) (other : Matrix_ COL COL2 TYPE) :
    Matrix_ ROW COL2 TYPE :=
  Matrix.of fun i j => (List.finRange COL).foldl (fun prod k => prod + r i k * other k j) 0

def eye (n : Nat) : Matrix_ n n TYPE := Matrix.of fun i j => if i = j then 1 else 0

end ring

section field

variable {TYPE : Type} [Field TYPE] {n : Nat}

def invert1 (r : Matrix_ 1 1 TYPE) : Matrix_ 1 1 TYPE := !![1 / r 0 0]

def invert2 (r : Matrix_ 2 2 TYPE) : Matrix_ 2 2 TYPE :=
  let det := determinant2 r
  !![r 1 1 / det, -r 0 1 / det;
    -r 1 0 / det, r 0 0 / det]

def invert3 (r : Matrix_ 3 3 TYPE) : Matrix_ 3 3 TYPE :=
  let a := r 0 0
  let b := r 0 1
  let c := r 0 2
  let d := r 1 0
  let e := r 1 1
  let f := r 1 2
  let g := r 2 0
  let h := r 2 1
  let i := r 2 2
  let det := determinant3 r
  !![(e * i - f * h) / det, (c * h - b * i) / det, (b * f - c * e) / det;
    (f * g - d * i) / det, (a * i - c * g) / det, (c * d - a * f) / det;
    (d * h - e * g) / det, (b * g - a * h) / det, (a * e - b * d) / det]

/-- Only the general case asks whether there is an inverse. -/
def invert [DecidableEq TYPE] :
    {n : Nat} → Matrix_ (n + 1) (n + 1) TYPE → Matrix_ (n + 1) (n + 1) TYPE
  | 0, r => invert1 r
  | 1, r => invert2 r
  | 2, r => invert3 r
  | _ + 3, r =>
    let det := determinant r
    if det = 0 then 0 else scale (adjoint r) (1 / det)

end field

section ring

variable {TYPE : Type} [CommRing TYPE] {n : Nat}

theorem mMult_eq {ROW COL COL2 : Nat} (r : Matrix_ ROW COL TYPE)
    (other : Matrix_ COL COL2 TYPE) : mMult r other = r * other := by
  ext i j
  rw [mMult, Matrix.of_apply, foldl_finRange_add, Matrix.mul_apply]

theorem eye_eq : eye n = (1 : Matrix_ n n TYPE) := by
  ext i j
  rw [eye, Matrix.of_apply, Matrix.one_apply]

theorem scale_eq {ROW COL : Nat} (r : Matrix_ ROW COL TYPE) (factor : TYPE) :
    scale r factor = factor • r := by
  ext i j
  rw [scale, Matrix.of_apply, Matrix.smul_apply, smul_eq_mul, mul_comm]

/-- What the array of the minor held before does not matter. -/
theorem expand_eq (det : Matrix_ n n TYPE → TYPE) (r : Matrix_ (n + 1) (n + 1) TYPE)
    (state : TYPE × Matrix_ n n TYPE) (j1 : Fin (n + 1)) :
    expand det r state j1 =
      (state.1 + (-1) ^ j1.val * r 0 j1 * det (r.submatrix Fin.succ j1.succAbove),
        r.submatrix Fin.succ j1.succAbove) := by
  have hminor : (Matrix.of fun i => copySkipping j1 (r i.succ) (state.2 i)) =
      r.submatrix Fin.succ j1.succAbove := by
    ext i j
    rw [Matrix.of_apply, copySkipping_eq]
    rfl
  have hsign : (-1 : TYPE) ^ (j1.val + 2) = (-1) ^ j1.val := by
    rw [pow_add, neg_one_sq, mul_one]
  rw [← hminor, ← hsign]
  rfl

theorem foldl_expand (det : Matrix_ n n TYPE → TYPE) (r : Matrix_ (n + 1) (n + 1) TYPE)
    (columns : List (Fin (n + 1))) (state : TYPE × Matrix_ n n TYPE) :
    (columns.foldl (expand det r) state).1 =
      columns.foldl (fun total j1 =>
        total + (-1) ^ j1.val * r 0 j1 * det (r.submatrix Fin.succ j1.succAbove)) state.1 := by
  induction columns generalizing state with
  | nil => rfl
  | cons j1 columns ih => rw [List.foldl_cons, List.foldl_cons, ih, expand_eq]

theorem determinant2_eq_det (r : Matrix_ 2 2 TYPE) : determinant2 r = r.det := by
  rw [Matrix.det_fin_two, determinant2]
  ring

theorem determinant3_eq_det (r : Matrix_ 3 3 TYPE) : determinant3 r = r.det := by
  rw [Matrix.det_fin_three, determinant3]
  ring

theorem determinant_eq_det {n : Nat} (r : Matrix_ (n + 1) (n + 1) TYPE) :
    determinant r = r.det := by
  match n with
  | 0 => exact (Matrix.det_fin_one r).symm
  | 1 => exact determinant2_eq_det r
  | 2 => exact determinant3_eq_det r
  | n + 3 =>
    rw [determinant, foldl_expand, foldl_finRange_add, Matrix.det_succ_row_zero]
    apply Finset.sum_congr rfl
    intro j1 _
    rw [determinant_eq_det]

theorem cofac_apply (r : Matrix_ (n + 2) (n + 2) TYPE) (i j : Fin (n + 2)) :
    cofac r i j = (-1) ^ (i.val + j.val) * (r.submatrix i.succAbove j.succAbove).det := by
  have hminor : Matrix.of (copySkipping i (fun ii => copySkipping j (r ii) 0) 0) =
      r.submatrix i.succAbove j.succAbove := by
    ext i1 j1
    rw [Matrix.of_apply, copySkipping_eq]
    exact congrFun (copySkipping_eq j _ 0) j1
  have hsign : (-1 : TYPE) ^ (i.val + j.val + 2) = (-1) ^ (i.val + j.val) := by
    rw [pow_add _ _ 2, neg_one_sq, mul_one]
  rw [← determinant_eq_det, cofac, Matrix.of_apply, hminor, hsign]

theorem adjoint_eq (r : Matrix_ (n + 2) (n + 2) TYPE) : adjoint r = r.adjugate := by
  ext i j
  rw [adjoint, transpose, Matrix.of_apply, cofac_apply, Matrix.adjugate_fin_succ_eq_det_submatrix]

end ring

section field

variable {TYPE : Type} [Field TYPE]

theorem invert1_eq (r : Matrix_ 1 1 TYPE) :
    invert1 r = (determinant1 r)⁻¹ • r.adjugate := by
  rw [Matrix.adjugate_fin_one]
  ext i j
  fin_cases i; fin_cases j
  simp [invert1, determinant1]

theorem invert2_eq (r : Matrix_ 2 2 TYPE) :
    invert2 r = (determinant2 r)⁻¹ • r.adjugate := by
  rw [Matrix.adjugate_fin_two]
  ext i j
  fin_cases i <;> fin_cases j <;> simp [invert2] <;> ring

theorem invert3_eq (r : Matrix_ 3 3 TYPE) :
    invert3 r = (determinant3 r)⁻¹ • r.adjugate := by
  rw [Matrix.adjugate_fin_three]
  ext i j
  fin_cases i <;> fin_cases j <;> simp [invert3] <;> ring

theorem invert_eq [DecidableEq TYPE] {n : Nat} (r : Matrix_ (n + 1) (n + 1) TYPE)
    (hdet : determinant r ≠ 0) : invert r = (determinant r)⁻¹ • r.adjugate := by
  match n with
  | 0 => exact invert1_eq r
  | 1 => exact invert2_eq r
  | 2 => exact invert3_eq r
  | n + 3 => rw [invert, if_neg hdet, scale_eq, adjoint_eq, one_div]

theorem determinant_eq_det_and_invert (TYPE : Type) [Field TYPE] [DecidableEq TYPE] (n : Nat)
    (r : Matrix_ (n + 1) (n + 1) TYPE) :
    determinant r = r.det ∧
      (determinant r ≠ 0 →
        mMult r (invert r) = eye (n + 1) ∧ mMult (invert r) r = eye (n + 1)) := by
  constructor
  · exact determinant_eq_det r
  · intro hdet
    have hunit : (determinant r)⁻¹ * r.det = 1 := by
      rw [← determinant_eq_det]
      exact inv_mul_cancel₀ hdet
    rw [mMult_eq, mMult_eq, eye_eq, invert_eq r hdet]
    constructor
    · rw [Matrix.mul_smul, Matrix.mul_adjugate, smul_smul, hunit, one_smul]
    · rw [Matrix.smul_mul, Matrix.adjugate_mul, smul_smul, hunit, one_smul]

end field

/-- A matrix of the general case. -/
def fourByFour : Matrix_ 4 4 ℚ :=
  !![0, 2, 0, 1;
    1, 0, 3, 0;
    0, 1, 1, 0;
    2, 0, 0, 5]

theorem determinant_eq_det_and_invert_fourByFour :
    determinant fourByFour = fourByFour.det ∧
      mMult fourByFour (invert fourByFour) = eye 4 ∧
      mMult (invert fourByFour) fourByFour = eye 4 :=
  ⟨(determinant_eq_det_and_invert ℚ 3 fourByFour).1,
    (determinant_eq_det_and_invert ℚ 3 fourByFour).2 (by decide +kernel)⟩

end Rodos.Matlib
