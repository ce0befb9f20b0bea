import Mathlib.Data.Nat.Bitwise
import Mathlib.Tactic.Common

/-! Functions on words that respect exclusive or. Two of them are equal as soon as they agree on
the words with a single bit set. -/
namespace Rodos.Library

variable {α β : Type} [XorOp α] [XorOp β]

def XorLinear (f : α → β) : Prop := ∀ a b, f (a ^^^ b) = f a ^^^ f b

/-- The words that exclusive or makes of the given ones. -/
inductive XorSpan (basis : α → Prop) : α → Prop
  | base {a : α} (ha : basis a) : XorSpan basis a
  | xor {a b : α} (ha : XorSpan basis a) (hb : XorSpan basis b) : XorSpan basis (a ^^^ b)

namespace XorLinear

variable {f g : α → β}

theorem xor [Std.Associative (α := β) (· ^^^ ·)] [Std.Commutative (α := β) (· ^^^ ·)]
    (hf : XorLinear f) (hg : XorLinear g) : XorLinear (fun a => f a ^^^ g a) := by
  intro a b
  change f (a ^^^ b) ^^^ g (a ^^^ b) = (f a ^^^ g a) ^^^ (f b ^^^ g b)
  rw [hf, hg]
  ac_rfl

theorem eq_of_span {basis : α → Prop} (hf : XorLinear f) (hg : XorLinear g)
    (hbasis : ∀ a, basis a → f a = g a) {a : α} (ha : XorSpan basis a) : f a = g a := by
  induction ha with
  | base ha => exact hbasis _ ha
  | xor _ _ iha ihb => rw [hf, hg, iha, ihb]

end XorLinear

namespace XorSpan

theorem mono {basis larger : α → Prop} (hle : ∀ a, basis a → larger a) {a : α}
    (ha : XorSpan basis a) : XorSpan larger a := by
  induction ha with
  | base ha => exact .base (hle _ ha)
  | xor _ _ iha ihb => exact .xor iha ihb

theorem image {f : α → β} (hf : XorLinear f) {basis : α → Prop} {image : β → Prop}
    (hbasis : ∀ a, basis a → image (f a)) {a : α} (ha : XorSpan basis a) :
    XorSpan image (f a) := by
  induction ha with
  | base ha => exact .base (hbasis _ ha)
  | xor _ _ iha ihb =>
    rw [hf]
    exact .xor iha ihb

/-- The numbers below a power of two are made of the smaller powers of two. -/
theorem nat_of_lt_two_pow {width n : Nat} (hn : n < 2 ^ (width + 1)) :
    XorSpan (fun a : Nat => ∃ bit, bit ≤ width ∧ a = 2 ^ bit) n := by
  induction width generalizing n with
  | zero =>
    have hbit : XorSpan (fun a : Nat => ∃ bit, bit ≤ 0 ∧ a = 2 ^ bit) 1 := .base ⟨0, le_rfl, rfl⟩
    obtain rfl | rfl : n = 0 ∨ n = 1 := by omega
    · exact .xor hbit hbit
    · exact hbit
  | succ width ih =>
    have hlow {m : Nat} (hm : m < 2 ^ (width + 1)) :
        XorSpan (fun a : Nat => ∃ bit, bit ≤ width + 1 ∧ a = 2 ^ bit) m :=
      (ih hm).mono fun a ⟨bit, hbit, ha⟩ => ⟨bit, by omega, ha⟩
    by_cases hsmall : n < 2 ^ (width + 1)
    · exact hlow hsmall
    · have htop : n = 2 ^ (width + 1) ^^^ (n ^^^ 2 ^ (width + 1)) := by
        rw [Nat.xor_comm n, ← Nat.xor_assoc, Nat.xor_self, Nat.zero_xor]
      have hrest : n ^^^ 2 ^ (width + 1) < 2 ^ (width + 1) := by
        apply Nat.lt_pow_two_of_testBit
        intro bit hbit
        rw [Nat.testBit_xor, Nat.testBit_two_pow]
        obtain rfl | hbit := Nat.eq_or_lt_of_le hbit
        · rw [Nat.testBit_of_two_pow_le_and_two_pow_add_one_gt (by omega) hn]
          simp
        · have habove : n < 2 ^ bit := Nat.lt_of_lt_of_le hn (Nat.pow_le_pow_right (by decide) hbit)
          rw [Nat.testBit_lt_two_pow habove]
          simp [Nat.ne_of_lt hbit]
      rw [htop]
      exact .xor (.base ⟨width + 1, le_rfl, rfl⟩) (hlow hrest)

end XorSpan

end Rodos.Library
