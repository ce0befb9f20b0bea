import Rodos.Library.AffineCycle
import Rodos.Library.Runs
import Rodos.Library.XorOperator
import Mathlib.Tactic.NormNum.GCD
import Mathlib.Tactic.NormNum.Prime

/-! The random numbers of the support library: a linear congruential generator, a xorshift and a
multiply-with-carry, added up. -/
namespace Rodos.Support
open Library

/-- The state vector, at first the seeds of the source. -/
@[ext] structure RandomKiss where
  x : BitVec 64 := 1066149217761810
  y : BitVec 64 := 362436362436362436
  z : BitVec 64 := 1234567890987654321
  c : BitVec 64 := 123456123456123456

namespace RandomKiss

def xorshift (y : BitVec 64) : BitVec 64 :=
  let y := y ^^^ y <<< 13
  let y := y ^^^ y >>> 17
  y ^^^ y <<< 43

def KISS64 (self : RandomKiss) : BitVec 64 × RandomKiss :=
  let x := 6906969069 * self.x + 1234567
  let y := xorshift self.y
  let t := self.z <<< 58 + self.c
  let c := self.z >>> 6
  let z := self.z + t
  let c := c + if z < t then 1 else 0
  (x + y + z, { x := x, y := y, z := z, c := c })

def uint64Rand (self : RandomKiss) : BitVec 64 × RandomKiss := self.KISS64

def uint32Rand (self : RandomKiss) : BitVec 32 × RandomKiss :=
  let (value, self) := self.KISS64
  (value.setWidth 32, self)

def setRandSeed (x : BitVec 64) (self : RandomKiss) : RandomKiss := { self with x := x }

/-- The state behind a call. -/
def next (self : RandomKiss) : RandomKiss := self.KISS64.2

theorem x_iterate_next (count : Nat) (self : RandomKiss) :
    (next^[count] self).x =
      (AffineCycle.advance ((6906969069 : Nat) : BitVec 64) (1234567 : Nat))^[count] self.x := by
  apply Function.Semiconj.iterate_right
  intro self
  rfl

theorem y_iterate_next (count : Nat) (self : RandomKiss) :
    (next^[count] self).y = xorshift^[count] self.y := by
  apply Function.Semiconj.iterate_right
  intro self
  rfl

/-! ### The xorshift -/

theorem xorshift_linear : XorLinear xorshift :=
  (XorLinear.xor_shiftLeft 43).comp
    ((XorLinear.xor_ushiftRight 17).comp (XorLinear.xor_shiftLeft 13))

/-- The characteristic polynomial of the xorshift. -/
def xorshiftPolynomial : Nat := 0x1000336601e030861

/-- The primes of `2 ^ 64 - 1`, each with the inverse of what the power of the indeterminate by
that prime less differs from one. -/
def xorshiftInverses : List (Nat × Nat) :=
  [(3, 0xe3ff150557ad27cb), (5, 0x45e7ba7084817fa4), (17, 0x287030c292cee45a),
    (257, 0xaef7cdec17e50b13), (641, 0x2f941ea7a14611f6), (65537, 0x4b025accd22ab0d3),
    (6700417, 0xb4c2f926897ef74f)]

set_option maxRecDepth 4000 in
theorem applyPolynomial_xorshift :
    ∀ bit ≤ 63, applyPolynomial xorshift 65 xorshiftPolynomial (BitVec.ofNat _ (2 ^ bit)) = 0 := by
  decide +kernel

theorem evaluate_xorshift :
    OperatorPeriod.evaluate xorshift_linear.operator xorshiftPolynomial = 0 :=
  xorshift_linear.evaluate_eq_zero (by decide) applyPolynomial_xorshift

set_option maxRecDepth 4000 in
theorem powerX_xorshift :
    OperatorPeriod.powerX xorshiftPolynomial 64 64 (2 ^ 64 - 1) = 1 := by
  decide +kernel

set_option maxRecDepth 4000 in
theorem inverses_xorshift : ∀ entry ∈ xorshiftInverses, entry.2 < 2 ^ 64 ∧
    OperatorPeriod.multiply xorshiftPolynomial 64 64 entry.2
      (OperatorPeriod.powerX xorshiftPolynomial 64 64 ((2 ^ 64 - 1) / entry.1) ^^^ 1) = 1 := by
  decide +kernel

theorem primes_xorshift (p : Nat) (hp : p.Prime) (hdvd : p ∣ 2 ^ 64 - 1) :
    ∃ inverse, (p, inverse) ∈ xorshiftInverses := by
  have hprimes : ∀ entry ∈ xorshiftInverses, entry.1.Prime := by
    norm_num [xorshiftInverses]
  have hproduct : 2 ^ 64 - 1 = (xorshiftInverses.map Prod.fst).prod := by decide
  rw [hproduct, hp.prime.dvd_prod_iff] at hdvd
  obtain ⟨q, hq, hdvd⟩ := hdvd
  obtain ⟨⟨q, inverse⟩, hentry, rfl⟩ := List.mem_map.mp hq
  rw [(Nat.prime_dvd_prime_iff_eq hp (hprimes _ hentry)).mp hdvd]
  exact ⟨inverse, hentry⟩

/-- The characteristic polynomial is primitive. -/
theorem hasPeriod_xorshift :
    OperatorPeriod.HasPeriod xorshift_linear.operator (2 ^ 64 - 1) :=
  OperatorPeriod.hasPeriod_of_root evaluate_xorshift (by decide) (by decide) (by decide)
    (by decide) (by decide) powerX_xorshift xorshiftInverses primes_xorshift inverses_xorshift

/-! ### Whole runs -/

/-- The first two of the three generators, from any seeds but a zero `y`, are back together after
the multiples of `2 ^ 64 * (2 ^ 64 - 1)` calls and not otherwise. No state recurs earlier. -/
theorem state_recurs_iff (self : RandomKiss) (hseed : self.y ≠ 0) (left right : Nat) :
    ((next^[left] self).x = (next^[right] self).x ∧ (next^[left] self).y = (next^[right] self).y ↔
      left ≡ right [MOD 2 ^ 64 * (2 ^ 64 - 1)]) ∧
    (next^[left] self = next^[right] self → left ≡ right [MOD 2 ^ 64 * (2 ^ 64 - 1)]) := by
  have hx : (next^[left] self).x = (next^[right] self).x ↔ left ≡ right [MOD 2 ^ 64] := by
    rw [x_iterate_next, x_iterate_next]
    exact AffineCycle.iterate_eq_iterate_iff (by decide) (by decide) self.x left right
  have hy : (next^[left] self).y = (next^[right] self).y ↔ left ≡ right [MOD 2 ^ 64 - 1] := by
    rw [y_iterate_next, y_iterate_next]
    exact OperatorPeriod.iterate_eq_iterate_iff (by decide)
      (xorshift_linear.iterate_eq_self_iff hasPeriod_xorshift hseed) left right
  have hboth : (next^[left] self).x = (next^[right] self).x ∧
      (next^[left] self).y = (next^[right] self).y ↔
        left ≡ right [MOD 2 ^ 64 * (2 ^ 64 - 1)] := by
    rw [hx, hy, Nat.modEq_and_modEq_iff_modEq_mul (by norm_num)]
  refine ⟨hboth, fun hsame => ?_⟩
  rw [← hboth, hsame]
  exact ⟨rfl, rfl⟩

/-- All `2 ^ 64` values of `x` are not enough to bring back the seeds of the source. -/
theorem seeds_do_not_recur : next^[2 ^ 64] ({} : RandomKiss) ≠ {} := by
  intro hback
  have hcalls := (state_recurs_iff {} (by decide) (2 ^ 64) 0).2 hback
  revert hcalls
  decide

/-! ### The multiply-with-carry -/

/-- The sum of the carry and the lowest bits of `z` is too large for a word. -/
def CarryLost (self : RandomKiss) : Prop :=
  self.c.toNat = 2 ^ 58 ∧ self.z.toNat % 64 = 63

instance (self : RandomKiss) : Decidable self.CarryLost := by
  unfold CarryLost
  infer_instance

example : ({ z := 63, c := 2 ^ 58 } : RandomKiss).CarryLost := by decide

/-- No part of the state is stuck at zero, and the carry is smaller than the multiplier. -/
structure Seeded (state : RandomKiss) : Prop where
  y_ne : state.y ≠ 0
  carry_ne : 0 < state.z.toNat + state.c.toNat
  carry_le : state.c.toNat ≤ 2 ^ 58

inductive RandomCall where
  | uint64Rand
  | uint32Rand
  | setRandSeed (x : BitVec 64)

def step (self : RandomKiss) : RandomCall → Option RandomKiss
  | .uint64Rand => some self.uint64Rand.2
  | .uint32Rand => some self.uint32Rand.2
  | .setRandSeed x => some (self.setRandSeed x)

theorem xorshift_ne {y : BitVec 64} (hy : y ≠ 0) : xorshift y ≠ 0 := by
  intro hzero
  have hback := (xorshift_linear.iterate_eq_self_iff hasPeriod_xorshift hy (2 ^ 64 - 2 + 1)).mpr
    dvd_rfl
  rw [Function.iterate_succ_apply, hzero, Function.iterate_fixed xorshift_linear.map_zero] at hback
  exact hy hback.symm

theorem toNat_z_next (self : RandomKiss) :
    self.next.z.toNat = (self.z.toNat + (self.z <<< 58 + self.c).toNat) % 2 ^ 64 :=
  BitVec.toNat_add ..

theorem toNat_c_next (self : RandomKiss) :
    self.next.c.toNat = self.z.toNat / 64 +
      if self.next.z.toNat < (self.z <<< 58 + self.c).toNat then 1 else 0 := by
  have hz := self.z.isLt
  change (self.z >>> 6 + if self.next.z < self.z <<< 58 + self.c then 1 else 0).toNat = _
  rw [BitVec.toNat_add, BitVec.toNat_ushiftRight, Nat.shiftRight_eq_div_pow]
  simp only [BitVec.lt_def]
  split
  · exact Nat.mod_eq_of_lt (show self.z.toNat / 64 + 1 < 2 ^ 64 by omega)
  · exact Nat.mod_eq_of_lt (show self.z.toNat / 64 + 0 < 2 ^ 64 by omega)

/-- A call multiplies by `2 ^ 58 + 1` and takes the next digit in base `2 ^ 64`, but for the carry
that may be lost. -/
theorem carry_next (self : RandomKiss) (hcarry : self.c.toNat ≤ 2 ^ 58) :
    2 ^ 64 * self.next.c.toNat + self.next.z.toNat + (if self.CarryLost then 2 ^ 64 else 0) =
      (2 ^ 58 + 1) * self.z.toNat + self.c.toNat := by
  have hz := self.z.isLt
  have hsum : (self.z <<< 58 + self.c).toNat =
      (2 ^ 58 * (self.z.toNat % 64) + self.c.toNat) % 2 ^ 64 := by
    rw [BitVec.toNat_add, BitVec.toNat_shiftLeft, Nat.shiftLeft_eq]
    omega
  rw [toNat_c_next, toNat_z_next]
  by_cases hlost : self.CarryLost
  · rw [if_pos hlost]
    obtain ⟨hcarry, hlow⟩ := hlost
    split <;> omega
  · rw [if_neg hlost]
    rw [CarryLost] at hlost
    split <;> omega

/-- What a call keeps, and that it never leaves the carry generator where it was. -/
theorem Seeded.next {state : RandomKiss} (h : state.Seeded) :
    state.next.Seeded ∧ (state.next.z, state.next.c) ≠ (state.z, state.c) := by
  have hexact := state.carry_next h.carry_le
  have hpositive := h.carry_ne
  have hle := h.carry_le
  have hz := state.z.isLt
  have hdigit := state.next.z.isLt
  by_cases hlost : state.CarryLost
  · rw [if_pos hlost] at hexact
    obtain ⟨hcarry, hlow⟩ := hlost
    refine ⟨⟨xorshift_ne h.y_ne, by omega, by omega⟩, fun hstuck => ?_⟩
    rw [(Prod.mk.inj hstuck).1, (Prod.mk.inj hstuck).2] at hexact
    omega
  · rw [if_neg hlost] at hexact
    rw [CarryLost] at hlost
    refine ⟨⟨xorshift_ne h.y_ne, by omega, by omega⟩, fun hstuck => ?_⟩
    rw [(Prod.mk.inj hstuck).1, (Prod.mk.inj hstuck).2] at hexact
    omega

theorem Seeded.step {state next : RandomKiss} {call : RandomCall} (h : state.Seeded)
    (hstep : state.step call = some next) : next.Seeded := by
  cases call with
  | uint64Rand => exact Option.some.inj hstep ▸ h.next.1
  | uint32Rand => exact Option.some.inj hstep ▸ h.next.1
  | setRandSeed x =>
    have hnext : state.setRandSeed x = next := Option.some.inj hstep
    exact hnext ▸ ⟨h.y_ne, h.carry_ne, h.carry_le⟩

/-- After any calls the next one is exact arithmetic on numbers of two words, unless a carry is
lost, and it moves on. -/
theorem carry_along_run {state final : RandomKiss} {calls : List RandomCall} (h : state.Seeded)
    (hrun : run step state calls = some final) :
    final.Seeded ∧ (final.next.z, final.next.c) ≠ (final.z, final.c) ∧
      2 ^ 64 * final.next.c.toNat + final.next.z.toNat +
        (if final.CarryLost then 2 ^ 64 else 0) =
          (2 ^ 58 + 1) * final.z.toNat + final.c.toNat := by
  have hfinal := run_invariant (fun state call next h hstep => h.step hstep) h hrun
  exact ⟨hfinal, hfinal.next.2, final.carry_next hfinal.carry_le⟩

theorem seeded_default : ({} : RandomKiss).Seeded where
  y_ne := by decide
  carry_ne := by decide
  carry_le := by decide

theorem carry_behind_reseeding : (({} : RandomKiss).setRandSeed 1).next.Seeded := by
  have hrun : run step {} [.setRandSeed 1] = some (({} : RandomKiss).setRandSeed 1) := rfl
  exact (carry_along_run seeded_default hrun).1.next.1

end RandomKiss

end Rodos.Support
