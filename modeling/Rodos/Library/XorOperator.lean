import Rodos.Library.OperatorPeriod
import Rodos.Library.XorLinear
import Mathlib.Algebra.Module.Hom

/-! Functions on machine words that respect exclusive or, as operators: which polynomials they are
roots of, and how often they are applied until a word comes back. -/
namespace Rodos.Library

/-- A word, added by exclusive or. -/
@[ext] structure XorWord (width : Nat) where
  word : BitVec width

namespace XorWord

variable {width : Nat}

instance : Zero (XorWord width) := ⟨⟨0⟩⟩
instance : Add (XorWord width) := ⟨fun a b => ⟨a.word ^^^ b.word⟩⟩
instance : Neg (XorWord width) := ⟨id⟩

@[simp] theorem word_zero : (0 : XorWord width).word = 0 := rfl
@[simp] theorem word_add (a b : XorWord width) : (a + b).word = a.word ^^^ b.word := rfl

theorem add_self (a : XorWord width) : a + a = 0 := by
  ext1
  exact BitVec.xor_self

instance : AddCommGroup (XorWord width) where
  add_assoc a b c := XorWord.ext (BitVec.xor_assoc a.word b.word c.word)
  zero_add a := XorWord.ext BitVec.zero_xor
  add_zero a := XorWord.ext BitVec.xor_zero
  neg_add_cancel := add_self
  add_comm a b := XorWord.ext (BitVec.xor_comm a.word b.word)
  nsmul := nsmulRec
  zsmul := zsmulRec

instance [NeZero width] : CharP (AddMonoid.End (XorWord width)) 2 := by
  apply CharTwo.of_one_ne_zero_of_two_eq_zero
  · intro hsame
    have hone := congrArg (fun f => (f ⟨1⟩ : XorWord width).word.getLsbD 0) hsame
    simp [NeZero.pos width] at hone
  · rw [← one_add_one_eq_two]
    apply AddMonoidHom.ext
    exact add_self

end XorWord

namespace XorLinear

variable {width : Nat} {f : BitVec width → BitVec width}

theorem shiftLeft (count : Nat) : XorLinear fun word : BitVec width => word <<< count :=
  fun a b => BitVec.shiftLeft_xor_distrib a b count

theorem ushiftRight (count : Nat) : XorLinear fun word : BitVec width => word >>> count :=
  fun a b => BitVec.ushiftRight_xor_distrib a b count

/-- A word with itself shifted. -/
theorem xor_shiftLeft (count : Nat) :
    XorLinear fun word : BitVec width => word ^^^ word <<< count :=
  XorLinear.xor (fun _ _ => rfl) (shiftLeft count)

theorem xor_ushiftRight (count : Nat) :
    XorLinear fun word : BitVec width => word ^^^ word >>> count :=
  XorLinear.xor (fun _ _ => rfl) (ushiftRight count)

theorem comp {g : BitVec width → BitVec width} (hg : XorLinear g) (hf : XorLinear f) :
    XorLinear fun word => g (f word) := by
  intro a b
  change g (f (a ^^^ b)) = g (f a) ^^^ g (f b)
  rw [hf, hg]

/-- Words are made of the powers of two. -/
theorem xorSpan_word (word : BitVec (width + 1)) :
    XorSpan (fun a => ∃ bit, bit ≤ width ∧ a = BitVec.ofNat (width + 1) (2 ^ bit)) word := by
  have hspan : XorSpan (fun a => ∃ bit, bit ≤ width ∧ a = BitVec.ofNat (width + 1) (2 ^ bit))
      (BitVec.ofNat (width + 1) word.toNat) :=
    XorSpan.image (fun a b => BitVec.ofNat_xor)
      (fun a ⟨bit, hbit, ha⟩ => ⟨bit, hbit, congrArg _ ha⟩)
      (XorSpan.nat_of_lt_two_pow word.isLt)
  rwa [BitVec.ofNat_toNat, BitVec.setWidth_eq] at hspan

variable (hf : XorLinear f)
include hf

theorem map_zero : f 0 = 0 := by
  have hsum := hf 0 0
  rwa [BitVec.xor_self, BitVec.xor_self] at hsum

/-- The function as an operator. -/
def operator : AddMonoid.End (XorWord width) where
  toFun a := ⟨f a.word⟩
  map_zero' := XorWord.ext hf.map_zero
  map_add' a b := XorWord.ext (hf a.word b.word)

theorem operator_pow_smul (count : Nat) (word : BitVec width) :
    hf.operator ^ count • (⟨word⟩ : XorWord width) = ⟨f^[count] word⟩ := by
  induction count generalizing word with
  | zero => rfl
  | succ count ih =>
    rw [pow_succ, mul_smul, Function.iterate_succ_apply]
    exact ih (f word)

end XorLinear

section polynomial

variable {width : Nat} (f : BitVec width → BitVec width)

/-- The lowest `bits` coefficients of a polynomial at the function, applied to a word. -/
def applyPolynomial : Nat → Nat → BitVec width → BitVec width
  | 0, _, _ => 0
  | bits + 1, n, word =>
    (if n % 2 = 1 then word else 0) ^^^ f (applyPolynomial bits (n / 2) word)

variable {f}

theorem XorLinear.applyPolynomial (hf : XorLinear f) (bits n : Nat) :
    XorLinear (applyPolynomial f bits n) := by
  induction bits generalizing n with
  | zero => exact fun a b => BitVec.xor_zero.symm
  | succ bits ih =>
    intro a b
    rw [Library.applyPolynomial, Library.applyPolynomial, Library.applyPolynomial, ih, hf]
    split
    · ac_rfl
    · simp

theorem XorLinear.evaluate_smul (hf : XorLinear f) {bits n : Nat} (hn : n < 2 ^ bits)
    (word : BitVec width) :
    OperatorPeriod.evaluate hf.operator n • (⟨word⟩ : XorWord width) =
      ⟨Library.applyPolynomial f bits n word⟩ := by
  induction bits generalizing n with
  | zero =>
    obtain rfl : n = 0 := by omega
    rw [OperatorPeriod.evaluate_zero, zero_smul]
    rfl
  | succ bits ih =>
    rw [OperatorPeriod.evaluate_eq, add_smul, mul_smul, ih (by omega), Library.applyPolynomial]
    split
    · rw [one_smul]
      rfl
    · rw [zero_smul, zero_add]
      exact XorWord.ext BitVec.zero_xor.symm

/-- A polynomial that takes the powers of two to zero takes all words to zero. -/
theorem XorLinear.evaluate_eq_zero {f : BitVec (width + 1) → BitVec (width + 1)}
    (hf : XorLinear f) {bits n : Nat} (hn : n < 2 ^ bits)
    (hbasis : ∀ bit ≤ width, Library.applyPolynomial f bits n (BitVec.ofNat _ (2 ^ bit)) = 0) :
    OperatorPeriod.evaluate hf.operator n = 0 := by
  apply AddMonoidHom.ext
  rintro ⟨word⟩
  have hzero : XorLinear fun _ : BitVec (width + 1) => (0 : BitVec (width + 1)) :=
    fun a b => BitVec.xor_zero.symm
  have hword := (hf.applyPolynomial bits n).eq_of_span hzero
    (fun a ⟨bit, hbit, ha⟩ => ha ▸ hbasis bit hbit) (xorSpan_word word)
  exact (hf.evaluate_smul hn word).trans (congrArg XorWord.mk hword)

end polynomial

/-- Every word but zero comes back after the multiples of the length and not otherwise. -/
theorem XorLinear.iterate_eq_self_iff {width length : Nat} {f : BitVec width → BitVec width}
    (hf : XorLinear f) (hperiod : OperatorPeriod.HasPeriod hf.operator length)
    {word : BitVec width} (hnonzero : word ≠ 0) (count : Nat) :
    f^[count] word = word ↔ length ∣ count := by
  have hword : (⟨word⟩ : XorWord width) ≠ 0 := fun hzero => hnonzero (congrArg XorWord.word hzero)
  rw [← hperiod.pow_smul_eq_iff hword, hf.operator_pow_smul, XorWord.mk.injEq]

end Rodos.Library
