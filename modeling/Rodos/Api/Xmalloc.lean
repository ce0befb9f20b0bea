import Rodos.Library.Arena
import Rodos.Library.Runs
import Mathlib.Algebra.Group.Nat.Defs

/-! `xmalloc`: memory for stacks and buffers, taken from `xmallocBuf` before the scheduler runs and
never given back. -/
namespace Rodos.Api.Xmalloc
open Library

/-- `xmallocBuf` is its address, `sizeBits` the width of `size_t`. -/
structure Platform where
  sizeBits : Nat
  XMALLOC_SIZE : Nat
  xmallocBuf : Nat
  sizeBits_ge : 32 ≤ sizeBits
  size_pos : 0 < XMALLOC_SIZE
  size_lt : XMALLOC_SIZE < 2 ^ 31
  aligned : 8 ∣ xmallocBuf

/-- A call of `xmalloc`. -/
structure Request (platform : Platform) where
  len : BitVec platform.sizeBits
  schedulerRunning : Bool

variable {platform : Platform}

/-- The constant `~0x7u` has the 32 bits of an `unsigned int`. -/
def roundUp (len : BitVec platform.sizeBits) : BitVec platform.sizeBits :=
  (len + 7) &&& BitVec.ofNat platform.sizeBits 0xFFFFFFF8

/-- The pointer returned, if it is not null, and the new value of the static `index`. -/
def xmalloc (index : BitVec platform.sizeBits) (request : Request platform) :
    Option Nat × BitVec platform.sizeBits :=
  let len := roundUp request.len
  if ¬ len ≤ BitVec.ofNat platform.sizeBits platform.XMALLOC_SIZE then (none, index)
  else if request.schedulerRunning then (none, index)
  else if ¬ index + len < BitVec.ofNat platform.sizeBits platform.XMALLOC_SIZE then (none, index)
  else (some (platform.xmallocBuf + index.toNat), index + len)

def step (index : BitVec platform.sizeBits) (request : Request platform) :
    Option (BitVec platform.sizeBits) :=
  some (xmalloc index request).2

/-- What the callers of the calls that do not return null take for theirs. -/
def granted (index : BitVec platform.sizeBits) : List (Request platform) → List Block
  | [] => []
  | request :: later =>
    match xmalloc index request with
    | (none, next) => granted next later
    | (some start, next) => ⟨start, request.len.toNat⟩ :: granted next later

/-- The blocks are aligned, lie in the buffer and do not share a byte. -/
def WellPlaced (platform : Platform) (blocks : List Block) : Prop :=
  (∀ block ∈ blocks, 8 ∣ block.start) ∧
    Separate platform.xmallocBuf (platform.xmallocBuf + platform.XMALLOC_SIZE) blocks

instance (blocks : List Block) : Decidable (WellPlaced platform blocks) :=
  inferInstanceAs (Decidable (_ ∧ _))

/-- The size is not cut off by the rounding, or the request is refused. -/
def Fits (index : BitVec platform.sizeBits) (request : Request platform) : Prop :=
  request.len.toNat + 7 < 2 ^ 32 ∨ request.schedulerRunning ∨
    platform.XMALLOC_SIZE ≤ index.toNat + (request.len.toNat + 7) % 2 ^ 32 / 8 * 8

/-! ### Rounding -/

theorem and_mask (value : Nat) : value &&& 0xFFFFFFF8 = value % 2 ^ 32 / 8 * 8 := by
  have hmask : (0xFFFFFFF8 : Nat) = (2 ^ 29 - 1) <<< 3 := by decide
  have hshifts : value % 2 ^ 32 / 8 * 8 = ((value % 2 ^ 32) >>> 3) <<< 3 := by
    rw [Nat.shiftLeft_eq, Nat.shiftRight_eq_div_pow]
  apply Nat.eq_of_testBit_eq
  intro bit
  rw [hmask, hshifts, Nat.testBit_and, Nat.testBit_shiftLeft, Nat.testBit_shiftLeft,
    Nat.testBit_shiftRight, Nat.testBit_mod_two_pow, Nat.testBit_two_pow_sub_one]
  by_cases hbit : 3 ≤ bit
  · have hsame : 3 + (bit - 3) = bit := by omega
    simp only [hbit, hsame, decide_true, Bool.true_and]
    grind
  · simp [hbit]

theorem two_pow_le (platform : Platform) : 2 ^ 32 ≤ 2 ^ platform.sizeBits :=
  Nat.pow_le_pow_right (by decide) platform.sizeBits_ge

theorem toNat_roundUp (len : BitVec platform.sizeBits) :
    (roundUp len).toNat = (len.toNat + 7) % 2 ^ 32 / 8 * 8 := by
  have hpow := two_pow_le platform
  have hseven : 7 % 2 ^ platform.sizeBits = 7 := Nat.mod_eq_of_lt (by omega)
  have hmask : 0xFFFFFFF8 % 2 ^ platform.sizeBits = 0xFFFFFFF8 := Nat.mod_eq_of_lt (by omega)
  have hdvd : 2 ^ 32 ∣ 2 ^ platform.sizeBits := Nat.pow_dvd_pow 2 platform.sizeBits_ge
  have hadded : (7 : BitVec platform.sizeBits).toNat = 7 := hseven
  rw [roundUp, BitVec.toNat_and, BitVec.toNat_add, BitVec.toNat_ofNat, hmask, hadded, and_mask,
    Nat.mod_mod_of_dvd _ hdvd]

theorem toNat_size (platform : Platform) :
    (BitVec.ofNat platform.sizeBits platform.XMALLOC_SIZE).toNat = platform.XMALLOC_SIZE := by
  have hpow := two_pow_le platform
  have hsize := platform.size_lt
  rw [BitVec.toNat_ofNat, Nat.mod_eq_of_lt (by omega)]

/-! ### One call -/

/-- What the calls so far leave in `index`. -/
structure Reserved (index : BitVec platform.sizeBits) : Prop where
  aligned : 8 ∣ index.toNat
  inside : index.toNat < platform.XMALLOC_SIZE

variable {index : BitVec platform.sizeBits} {request : Request platform}

/-- A call either reserves the rounded size behind what is reserved already, or is refused. -/
theorem xmalloc_cases (hreserved : Reserved index) (request : Request platform) :
    (xmalloc index request = (none, index) ∧
      (request.schedulerRunning ∨
        platform.XMALLOC_SIZE ≤ index.toNat + (request.len.toNat + 7) % 2 ^ 32 / 8 * 8)) ∨
    ∃ next, xmalloc index request = (some (platform.xmallocBuf + index.toNat), next) ∧
      next.toNat = index.toNat + (request.len.toNat + 7) % 2 ^ 32 / 8 * 8 ∧
      request.schedulerRunning = false ∧ next.toNat < platform.XMALLOC_SIZE := by
  have hpow := two_pow_le platform
  have hsize := platform.size_lt
  have hinside := hreserved.inside
  have hlen := toNat_roundUp request.len
  unfold xmalloc
  simp only [BitVec.le_def, BitVec.lt_def, BitVec.toNat_add, toNat_size, hlen]
  split_ifs with hsmall hrunning hroom
  · exact .inl ⟨rfl, .inl hrunning⟩
  · right
    rw [Nat.mod_eq_of_lt (by omega)] at hroom
    refine ⟨_, rfl, ?_, Bool.not_eq_true _ |>.mp hrunning, ?_⟩
    · rw [BitVec.toNat_add, hlen, Nat.mod_eq_of_lt (by omega)]
    · rw [BitVec.toNat_add, hlen, Nat.mod_eq_of_lt (by omega)]
      exact hroom
  · left
    rw [Nat.mod_eq_of_lt (by omega)] at hroom
    exact ⟨rfl, .inr (by omega)⟩
  · exact .inl ⟨rfl, .inr (by omega)⟩

theorem Reserved.of_next {next : BitVec platform.sizeBits} (h : Reserved index)
    (hnext : next.toNat = index.toNat + (request.len.toNat + 7) % 2 ^ 32 / 8 * 8)
    (hinside : next.toNat < platform.XMALLOC_SIZE) : Reserved next := by
  refine ⟨?_, hinside⟩
  rw [hnext]
  exact Nat.dvd_add h.aligned (Nat.dvd_mul_left 8 _)

/-! ### Sequences of calls -/

theorem granted_of_refused {later : List (Request platform)}
    (hcall : xmalloc index request = (none, index)) :
    granted index (request :: later) = granted index later := by
  rw [granted, hcall]

theorem granted_of_reserved {start : Nat} {next : BitVec platform.sizeBits}
    {later : List (Request platform)} (hcall : xmalloc index request = (some start, next)) :
    granted index (request :: later) = ⟨start, request.len.toNat⟩ :: granted next later := by
  rw [granted, hcall]

/-- All blocks are aligned and lie behind what was reserved before. -/
theorem granted_behind (hreserved : Reserved index) (requests : List (Request platform)) :
    ∀ block ∈ granted index requests,
      8 ∣ block.start ∧ platform.xmallocBuf + index.toNat ≤ block.start := by
  induction requests generalizing index with
  | nil => nofun
  | cons request later ih =>
    obtain ⟨hcall, -⟩ | ⟨next, hcall, hnext, -, hinside⟩ := xmalloc_cases hreserved request
    · rw [granted_of_refused hcall]
      exact ih hreserved
    · rw [granted_of_reserved hcall, List.forall_mem_cons]
      refine ⟨⟨Nat.dvd_add platform.aligned hreserved.aligned, Nat.le_refl _⟩, ?_⟩
      intro block hblock
      obtain ⟨haligned, hbehind⟩ := ih (hreserved.of_next hnext hinside) block hblock
      exact ⟨haligned, by omega⟩

theorem separate_granted_iff (hreserved : Reserved index) (requests : List (Request platform)) :
    Separate platform.xmallocBuf (platform.xmallocBuf + platform.XMALLOC_SIZE)
        (granted index requests) ↔ Along step Fits index requests := by
  induction requests generalizing index with
  | nil => exact iff_of_true separate_nil trivial
  | cons request later ih =>
    unfold Along step
    obtain ⟨hcall, hrefused⟩ | ⟨next, hcall, hnext, hrunning, hinside⟩ :=
      xmalloc_cases hreserved request
    · rw [granted_of_refused hcall, hcall, ih hreserved]
      exact (and_iff_right (.inr hrefused)).symm
    · have hlater := ih (hreserved.of_next hnext hinside)
      rw [granted_of_reserved hcall, hcall]
      by_cases hlen : request.len.toNat + 7 < 2 ^ 32
      · have hbehind := granted_behind (hreserved.of_next hnext hinside) later
        have hstop : platform.xmallocBuf + index.toNat + request.len.toNat ≤
            platform.xmallocBuf + next.toNat := by omega
        rw [separate_cons_iff (Nat.le_add_right _ _) hstop (by omega) fun other hother =>
          (hbehind other hother).2, hlater]
        exact (and_iff_right (.inl hlen)).symm
      · have hsize := platform.size_lt
        apply iff_of_false
        · exact not_separate_cons (by simp only [Block.stop]; omega)
        · rintro ⟨hfits | hfits | hfits, -⟩
          · exact hlen hfits
          · rw [hrunning] at hfits
            cases hfits
          · omega

theorem reserved_start (platform : Platform) : Reserved (0 : BitVec platform.sizeBits) :=
  ⟨by simp, by simpa using platform.size_pos⟩

/-- The results of the calls since the start are aligned, inside the buffer and disjoint exactly
if no request is granted whose size the rounding cuts off. -/
theorem wellPlaced_iff (platform : Platform) (requests : List (Request platform)) :
    WellPlaced platform (granted 0 requests) ↔ Along step Fits 0 requests := by
  have hbehind := granted_behind (reserved_start platform) requests
  unfold WellPlaced
  rw [separate_granted_iff (reserved_start platform) requests]
  exact and_iff_right fun block hblock => (hbehind block hblock).1

/-- The STM32H7 boards, with the buffer at the start of a memory. -/
def stm32h7 : Platform where
  sizeBits := 32
  XMALLOC_SIZE := 40 * 1024
  xmallocBuf := 0x24000000
  sizeBits_ge := by decide
  size_pos := by decide
  size_lt := by decide
  aligned := by decide

/-- The greatest size is rounded to nothing: the block is said to be longer than the buffer, and the
next request gets the same address. -/
theorem not_wellPlaced_greatest :
    ¬ WellPlaced stm32h7
      (granted 0 ([⟨0xFFFFFFFF, false⟩, ⟨8, false⟩] : List (Request stm32h7))) := by
  decide

end Rodos.Api.Xmalloc
