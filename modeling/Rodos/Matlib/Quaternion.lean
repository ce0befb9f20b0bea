import Mathlib.Analysis.Real.Sqrt
import Mathlib.Tactic.LinearCombination
import Rodos.Library.Selection
import Rodos.Matlib.Generic

/-! Quaternions, rotation matrices and rotated vectors, over exact arithmetic with a square root. -/
namespace Rodos.Matlib
open Library

@[ext] structure Vector3D_ (TYPE : Type) where
  x : TYPE
  y : TYPE
  z : TYPE

@[ext] structure Quaternion_ (TYPE : Type) where
  q0 : TYPE
  q : Vector3D_ TYPE

abbrev Matrix3D_ (TYPE : Type) := Matrix_ 3 3 TYPE

attribute [local instance] neZeroOne neZeroThree

variable {TYPE : Type} [Field TYPE]

def getRow {ROW COL : Nat} (r : Matrix_ ROW COL TYPE) (i : Nat) : Matrix_ 1 COL TYPE :=
  if h : i < ROW then Matrix.of fun _ j => r ⟨i, h⟩ j else 0

namespace Vector3D_

def ofMatrix (other : Matrix_ 3 1 TYPE) : Vector3D_ TYPE := ⟨other 0 0, other 1 0, other 2 0⟩

def vecAdd (v other : Vector3D_ TYPE) : Vector3D_ TYPE :=
  ⟨v.x + other.x, v.y + other.y, v.z + other.z⟩

def scale (v : Vector3D_ TYPE) (factor : TYPE) : Vector3D_ TYPE :=
  ⟨v.x * factor, v.y * factor, v.z * factor⟩

def cross (v other : Vector3D_ TYPE) : Vector3D_ TYPE :=
  ⟨v.y * other.z - v.z * other.y, v.z * other.x - v.x * other.z, v.x * other.y - v.y * other.x⟩

def dot (v other : Vector3D_ TYPE) : TYPE := v.x * other.x + v.y * other.y + v.z * other.z

def matVecMult (v : Vector3D_ TYPE) (r : Matrix3D_ TYPE) : Vector3D_ TYPE :=
  ⟨(ofMatrix (transpose (getRow r 0))).dot v, (ofMatrix (transpose (getRow r 1))).dot v,
    (ofMatrix (transpose (getRow r 2))).dot v⟩

def mRotate (v : Vector3D_ TYPE) (r : Matrix3D_ TYPE) : Vector3D_ TYPE := v.matVecMult r

end Vector3D_

namespace Quaternion_

def scale (quat : Quaternion_ TYPE) (factor : TYPE) : Quaternion_ TYPE :=
  ⟨quat.q0 * factor, quat.q.scale factor⟩

/-- What the code first stores for equal vectors is overwritten. -/
def qMult (left right : Quaternion_ TYPE) : Quaternion_ TYPE :=
  ⟨left.q0 * right.q0 - left.q.dot right.q,
    ((left.q.scale right.q0).vecAdd (right.q.scale left.q0)).vecAdd (left.q.cross right.q)⟩

def conjugate (quat : Quaternion_ TYPE) : Quaternion_ TYPE := ⟨quat.q0, quat.q.scale (-1)⟩

def quads (quat : Quaternion_ TYPE) : TYPE :=
  quat.q0 * quat.q0 + quat.q.x * quat.q.x + quat.q.y * quat.q.y + quat.q.z * quat.q.z

def getLen (sqrt : TYPE → TYPE) (quat : Quaternion_ TYPE) : TYPE := sqrt quat.quads

end Quaternion_

/-- `-rotQuat` is the conjugate. -/
def Vector3D_.qRotate (vec : Vector3D_ TYPE) (rotQuat : Quaternion_ TYPE) : Vector3D_ TYPE :=
  let v : Quaternion_ TYPE := ⟨0, vec⟩
  let w := (rotQuat.qMult v).qMult rotQuat.conjugate
  w.q

def Matrix3D_.ofQuaternion (other : Quaternion_ TYPE) : Matrix3D_ TYPE :=
  !![2 * other.q0 * other.q0 - 1 + 2 * other.q.x * other.q.x,
      2 * other.q.y * other.q.x - 2 * other.q0 * other.q.z,
      2 * other.q.z * other.q.x + 2 * other.q0 * other.q.y;
    2 * other.q.y * other.q.x + 2 * other.q0 * other.q.z,
      2 * other.q0 * other.q0 - 1 + 2 * other.q.y * other.q.y,
      2 * other.q.y * other.q.z - 2 * other.q0 * other.q.x;
    2 * other.q.z * other.q.x - 2 * other.q0 * other.q.y,
      2 * other.q.y * other.q.z + 2 * other.q0 * other.q.x,
      2 * other.q0 * other.q0 - 1 + 2 * other.q.z * other.q.z]

/-- One of the four cases: what `c` has to be, and the quaternion that half its root gives. -/
structure Case (TYPE : Type) where
  candidate : TYPE
  quaternion : TYPE → Quaternion_ TYPE

def case1 (r : Matrix3D_ TYPE) : Case TYPE where
  candidate := 1 + r 0 0 + r 1 1 + r 2 2
  quaternion c :=
    ⟨c, (r 2 1 - r 1 2) / (4 * c), (r 0 2 - r 2 0) / (4 * c), (r 1 0 - r 0 1) / (4 * c)⟩

def case2 (r : Matrix3D_ TYPE) : Case TYPE where
  candidate := 1 + r 0 0 - r 1 1 - r 2 2
  quaternion c :=
    ⟨(r 2 1 - r 1 2) / (4 * c), c, (r 1 0 + r 0 1) / (4 * c), (r 0 2 + r 2 0) / (4 * c)⟩

def case3 (r : Matrix3D_ TYPE) : Case TYPE where
  candidate := 1 - r 0 0 + r 1 1 - r 2 2
  quaternion c :=
    ⟨(r 0 2 - r 2 0) / (4 * c), (r 1 0 + r 0 1) / (4 * c), c, (r 2 1 + r 1 2) / (4 * c)⟩

def case4 (r : Matrix3D_ TYPE) : Case TYPE where
  candidate := 1 - r 0 0 - r 1 1 + r 2 2
  quaternion c :=
    ⟨(r 1 0 - r 0 1) / (4 * c), (r 0 2 + r 2 0) / (4 * c), (r 2 1 + r 1 2) / (4 * c), c⟩

section sqrt

variable [LinearOrder TYPE] (sqrt : TYPE → TYPE)

/-- There is no `else`: the next case is tested against the root that this one leaves in `c`. -/
def testCase (state : TYPE × Quaternion_ TYPE) (case : Case TYPE) : TYPE × Quaternion_ TYPE :=
  if state.1 = case.candidate then
    let c := 0.5 * sqrt state.1
    (c, case.quaternion c)
  else state

def Quaternion_.ofMatrix3D (other : Matrix3D_ TYPE) : Quaternion_ TYPE :=
  let c := selectBest (· > ·) (case1 other).candidate
    [(case2 other).candidate, (case3 other).candidate, (case4 other).candidate]
  ([case1 other, case2 other, case3 other, case4 other].foldl (testCase sqrt)
    (c, ⟨0, 0, 0, 0⟩)).2

end sqrt

/-! ### Rotated vectors -/

theorem mRotate_eq (v : Vector3D_ TYPE) (r : Matrix3D_ TYPE) :
    v.mRotate r =
      ⟨r 0 0 * v.x + r 0 1 * v.y + r 0 2 * v.z, r 1 0 * v.x + r 1 1 * v.y + r 1 2 * v.z,
        r 2 0 * v.x + r 2 1 * v.y + r 2 2 * v.z⟩ := rfl

theorem mRotate_ofQuaternion {quat : Quaternion_ TYPE} (hunit : quat.quads = 1)
    (v : Vector3D_ TYPE) : v.mRotate (Matrix3D_.ofQuaternion quat) = v.qRotate quat := by
  unfold Quaternion_.quads at hunit
  rw [mRotate_eq]
  apply Vector3D_.ext <;>
    simp only [Vector3D_.qRotate, Quaternion_.qMult, Quaternion_.conjugate,
      Matrix3D_.ofQuaternion, Vector3D_.dot, Vector3D_.scale, Vector3D_.cross,
      Vector3D_.vecAdd, Matrix.of_apply, Matrix.cons_val]
  · linear_combination v.x * hunit
  · linear_combination v.y * hunit
  · linear_combination v.z * hunit

/-! ### The quaternion of a matrix -/

theorem isPreference_gt [LinearOrder α] : IsPreference (fun left right : α => left > right) where
  asymmetric _ _ := lt_asymm
  between left middle right hright := by
    rcases lt_or_ge middle left with hmiddle | hmiddle
    · exact Or.inl hmiddle
    · exact Or.inr (lt_of_lt_of_le hright hmiddle)

def UpToSign (quat result : Quaternion_ TYPE) : Prop := result = quat ∨ result = quat.scale (-1)

/-- The candidate is four times the square of a component, and half its root gives the quaternion
with the sign of that component. -/
def Case.Recovers (case : Case TYPE) (quat : Quaternion_ TYPE) : Prop :=
  ∃ component, case.candidate = 4 * (component * component) ∧
    ∀ c, c ≠ 0 → c * c = component * component →
      case.quaternion c = quat.scale (component / c)

theorem Quaternion_.scale_one (quat : Quaternion_ TYPE) : quat.scale 1 = quat := by
  simp only [Quaternion_.scale, Vector3D_.scale, mul_one]

theorem root_eq {c component : TYPE} (hc : c ≠ 0) (hroot : c * c = component * component) :
    c = component * (component / c) := by
  rw [← mul_div_assoc, ← hroot, mul_div_assoc, div_self hc, mul_one]

section recovers

variable [NeZero (4 : TYPE)]

theorem quotient_eq {c component value entries : TYPE}
    (hentries : entries = 4 * (value * component)) :
    entries / (4 * c) = value * (component / c) := by
  rw [hentries, mul_div_mul_left _ _ (NeZero.ne 4), mul_div_assoc]

variable {quat : Quaternion_ TYPE} (hunit : quat.quads = 1)
include hunit

theorem case1_recovers : (case1 (Matrix3D_.ofQuaternion quat)).Recovers quat := by
  unfold Quaternion_.quads at hunit
  refine ⟨quat.q0, ?_, ?_⟩
  · simp only [case1, Matrix3D_.ofQuaternion, Matrix.of_apply, Matrix.cons_val]
    linear_combination 2 * hunit
  · intro c hc hroot
    refine Quaternion_.ext (root_eq hc hroot) (Vector3D_.ext ?_ ?_ ?_)
    all_goals
      apply quotient_eq
      simp only [Matrix3D_.ofQuaternion, Matrix.of_apply, Matrix.cons_val]
      ring

theorem case2_recovers : (case2 (Matrix3D_.ofQuaternion quat)).Recovers quat := by
  unfold Quaternion_.quads at hunit
  refine ⟨quat.q.x, ?_, ?_⟩
  · simp only [case2, Matrix3D_.ofQuaternion, Matrix.of_apply, Matrix.cons_val]
    linear_combination (-2) * hunit
  · intro c hc hroot
    refine Quaternion_.ext ?_ (Vector3D_.ext (root_eq hc hroot) ?_ ?_)
    all_goals
      apply quotient_eq
      simp only [Matrix3D_.ofQuaternion, Matrix.of_apply, Matrix.cons_val]
      ring

theorem case3_recovers : (case3 (Matrix3D_.ofQuaternion quat)).Recovers quat := by
  unfold Quaternion_.quads at hunit
  refine ⟨quat.q.y, ?_, ?_⟩
  · simp only [case3, Matrix3D_.ofQuaternion, Matrix.of_apply, Matrix.cons_val]
    linear_combination (-2) * hunit
  · intro c hc hroot
    refine Quaternion_.ext ?_ (Vector3D_.ext ?_ (root_eq hc hroot) ?_)
    all_goals
      apply quotient_eq
      simp only [Matrix3D_.ofQuaternion, Matrix.of_apply, Matrix.cons_val]
      ring

theorem case4_recovers : (case4 (Matrix3D_.ofQuaternion quat)).Recovers quat := by
  unfold Quaternion_.quads at hunit
  refine ⟨quat.q.z, ?_, ?_⟩
  · simp only [case4, Matrix3D_.ofQuaternion, Matrix.of_apply, Matrix.cons_val]
    linear_combination (-2) * hunit
  · intro c hc hroot
    refine Quaternion_.ext ?_ (Vector3D_.ext ?_ ?_ (root_eq hc hroot))
    all_goals
      apply quotient_eq
      simp only [Matrix3D_.ofQuaternion, Matrix.of_apply, Matrix.cons_val]
      ring

end recovers

section sqrt

variable [LinearOrder TYPE] [IsStrictOrderedRing TYPE] {sqrt : TYPE → TYPE}

structure IsSquareRoot (sqrt : TYPE → TYPE) : Prop where
  nonneg : ∀ value, 0 ≤ sqrt value
  mul_self : ∀ value, 0 ≤ value → sqrt value * sqrt value = value

variable (hsqrt : IsSquareRoot sqrt) {quat : Quaternion_ TYPE}
include hsqrt

theorem half_root_pos {value : TYPE} (hpos : 0 < value) : 0 < 0.5 * sqrt value := by
  have hnonneg := hsqrt.nonneg value
  have hne : sqrt value ≠ 0 := by
    intro hzero
    have hself := hsqrt.mul_self value (le_of_lt hpos)
    rw [hzero, mul_zero] at hself
    exact absurd hself (ne_of_lt hpos)
  have hroot := lt_of_le_of_ne hnonneg (Ne.symm hne)
  positivity

theorem upToSign_of_recovers {case : Case TYPE} (hrecovers : case.Recovers quat)
    (hpos : 0 < case.candidate) :
    UpToSign quat (case.quaternion (0.5 * sqrt case.candidate)) := by
  obtain ⟨component, hcandidate, hquaternion⟩ := hrecovers
  have hroot := half_root_pos hsqrt hpos
  have hsquare : 0.5 * sqrt case.candidate * (0.5 * sqrt case.candidate) =
      component * component := by
    have hself := hsqrt.mul_self _ (le_of_lt hpos)
    linear_combination 0.25 * hself + 0.25 * hcandidate
  rw [hquaternion _ (ne_of_gt hroot) hsquare]
  rcases mul_self_eq_mul_self_iff.mp hsquare with heq | heq
  · left
    rw [← heq, div_self (ne_of_gt hroot), quat.scale_one]
  · right
    rw [← neg_eq_iff_eq_neg.mpr heq, neg_div, div_self (ne_of_gt hroot)]

theorem testCase_found {case : Case TYPE} {state : TYPE × Quaternion_ TYPE}
    (hrecovers : case.Recovers quat) (hpos : 0 < state.1) (hcase : state.1 = case.candidate) :
    0 < (testCase sqrt state case).1 ∧ UpToSign quat (testCase sqrt state case).2 := by
  rw [testCase, if_pos hcase, hcase]
  rw [hcase] at hpos
  exact ⟨half_root_pos hsqrt hpos, upToSign_of_recovers hsqrt hrecovers hpos⟩

/-- Whatever cases are entered after the first one, the quaternion stays right. -/
theorem foldl_testCase {cases : List (Case TYPE)} {state : TYPE × Quaternion_ TYPE}
    (hrecovers : ∀ case ∈ cases, case.Recovers quat) (hpos : 0 < state.1)
    (hfound : UpToSign quat state.2 ∨ ∃ case ∈ cases, state.1 = case.candidate) :
    UpToSign quat (cases.foldl (testCase sqrt) state).2 := by
  induction cases generalizing state with
  | nil =>
    rcases hfound with hfound | ⟨case, hmem, _⟩
    · exact hfound
    · cases hmem
  | cons case cases ih =>
    have hcase := hrecovers case (List.mem_cons_self ..)
    have hothers := fun other hother => hrecovers other (List.mem_cons_of_mem _ hother)
    rw [List.foldl_cons]
    by_cases heq : state.1 = case.candidate
    · obtain ⟨hnext, hsign⟩ := testCase_found hsqrt hcase hpos heq
      exact ih hothers hnext (Or.inl hsign)
    · rw [testCase, if_neg heq]
      apply ih hothers hpos
      rcases hfound with hfound | ⟨other, hmem, hother⟩
      · exact Or.inl hfound
      · rcases List.mem_cons.mp hmem with rfl | hmem
        · exact absurd hother heq
        · exact Or.inr ⟨other, hmem, hother⟩

omit hsqrt in
/-- The candidates of a rotation matrix add up to four. -/
theorem candidate_pos {best : TYPE} {r : Matrix3D_ TYPE}
    (hbest : ∀ candidate ∈ [(case1 r).candidate, (case2 r).candidate, (case3 r).candidate,
      (case4 r).candidate], ¬ candidate > best) : 0 < best := by
  have hsum : (case1 r).candidate + (case2 r).candidate + (case3 r).candidate +
      (case4 r).candidate = 4 := by
    simp only [case1, case2, case3, case4]
    ring
  have h1 := hbest (case1 r).candidate (by simp)
  have h2 := hbest (case2 r).candidate (by simp)
  have h3 := hbest (case3 r).candidate (by simp)
  have h4 := hbest (case4 r).candidate (by simp)
  linarith

theorem ofMatrix3D_ofQuaternion (hunit : quat.quads = 1) :
    UpToSign quat (Quaternion_.ofMatrix3D sqrt (Matrix3D_.ofQuaternion quat)) := by
  have hmem := selectBest_mem (· > ·) (case1 (Matrix3D_.ofQuaternion quat)).candidate
    [(case2 (Matrix3D_.ofQuaternion quat)).candidate,
      (case3 (Matrix3D_.ofQuaternion quat)).candidate,
      (case4 (Matrix3D_.ofQuaternion quat)).candidate]
  apply foldl_testCase hsqrt
  · simp only [List.forall_mem_cons]
    exact ⟨case1_recovers hunit, case2_recovers hunit, case3_recovers hunit,
      case4_recovers hunit, by simp⟩
  · exact candidate_pos (isPreference_gt.not_better_selectBest _ _)
  · right
    simpa using hmem

theorem quads_eq_one (hlen : quat.getLen sqrt = 1) : quat.quads = 1 := by
  have hnonneg : 0 ≤ quat.quads := by
    unfold Quaternion_.quads
    linarith [mul_self_nonneg quat.q0, mul_self_nonneg quat.q.x, mul_self_nonneg quat.q.y,
      mul_self_nonneg quat.q.z]
  unfold Quaternion_.getLen at hlen
  rw [← hsqrt.mul_self _ hnonneg, hlen, mul_one]

end sqrt

theorem isSquareRoot_sqrt : IsSquareRoot Real.sqrt where
  nonneg := Real.sqrt_nonneg
  mul_self _ := Real.mul_self_sqrt

/-- Both ways of rotating with a unit quaternion agree, and its matrix determines it up to the
sign. -/
theorem quaternion_matrix_agree (quat : Quaternion_ ℝ) (hunit : quat.getLen Real.sqrt = 1) :
    (Quaternion_.ofMatrix3D Real.sqrt (Matrix3D_.ofQuaternion quat) = quat ∨
        Quaternion_.ofMatrix3D Real.sqrt (Matrix3D_.ofQuaternion quat) = quat.scale (-1)) ∧
      ∀ v : Vector3D_ ℝ, v.mRotate (Matrix3D_.ofQuaternion quat) = v.qRotate quat := by
  have hquads := quads_eq_one isSquareRoot_sqrt hunit
  constructor
  · exact ofMatrix3D_ofQuaternion isSquareRoot_sqrt hquads
  · exact mRotate_ofQuaternion hquads

theorem quaternion_matrix_agree_zLargest :
    (Quaternion_.ofMatrix3D Real.sqrt (Matrix3D_.ofQuaternion ⟨0, 0, 3 / 5, 4 / 5⟩) =
          ⟨0, 0, 3 / 5, 4 / 5⟩ ∨
        Quaternion_.ofMatrix3D Real.sqrt (Matrix3D_.ofQuaternion ⟨0, 0, 3 / 5, 4 / 5⟩) =
          Quaternion_.scale ⟨0, 0, 3 / 5, 4 / 5⟩ (-1)) ∧
      ∀ v : Vector3D_ ℝ,
        v.mRotate (Matrix3D_.ofQuaternion ⟨0, 0, 3 / 5, 4 / 5⟩) = v.qRotate ⟨0, 0, 3 / 5, 4 / 5⟩ :=
  quaternion_matrix_agree ⟨0, 0, 3 / 5, 4 / 5⟩ (by
    norm_num [Quaternion_.getLen, Quaternion_.quads])

end Rodos.Matlib
