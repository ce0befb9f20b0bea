import Rodos.Time.Calendar
import Mathlib.Algebra.Group.Nat.Defs
import Mathlib.Algebra.Ring.Int.Defs

/-! Local time in the format of ECSS and CCSDS (CUC): seconds and a binary fraction of a second. -/
namespace Rodos.Time

/-- What an `int64_t` keeps of a result. -/
def toInt64 (result : Int) : Int := result.bmod (2 ^ 64)

/-- What a `uint32_t` keeps of a result. -/
def toUInt32 (result : Int) : Int := result % 2 ^ 32

def FitsInt64 (result : Int) : Prop := -2 ^ 63 ≤ result ∧ result < 2 ^ 63

def FitsUInt32 (result : Int) : Prop := 0 ≤ result ∧ result < 2 ^ 32

def splitTimeECSS (localTime : Int) : Int × Int :=
  let seconds := toUInt32 (localTime.tdiv SECONDS)
  let preFraction := toInt64 (localTime - toInt64 (seconds * SECONDS))
  let preFraction := toInt64 (preFraction * 2 ^ 32)
  let fraction := toUInt32 (preFraction.tdiv SECONDS)
  (seconds, fraction)

inductive FractSize where
  | FractSize16Bit
  | FractSize32Bit

def FractSize.bits : FractSize → Nat
  | .FractSize16Bit => 16
  | .FractSize32Bit => 32

def ECSSTimeToLocalTime (seconds fraction : Int) (fractSize : FractSize) : Int :=
  toInt64 (toInt64 (SECONDS * seconds) + toInt64 (SECONDS * fraction) >>> fractSize.bits)

/-- No result of `splitTimeECSS` is too large for its type. -/
structure SplitFits (localTime : Int) : Prop where
  seconds : FitsUInt32 (localTime.tdiv SECONDS)
  whole : FitsInt64 (localTime.tdiv SECONDS * SECONDS)
  preFraction : FitsInt64 (localTime - localTime.tdiv SECONDS * SECONDS)
  shifted : FitsInt64 ((localTime - localTime.tdiv SECONDS * SECONDS) * 2 ^ 32)
  fraction : FitsUInt32
    (((localTime - localTime.tdiv SECONDS * SECONDS) * 2 ^ 32).tdiv SECONDS)

/-- Seconds count before fractions. -/
def NotAfter (earlier later : Int × Int) : Prop :=
  earlier.1 < later.1 ∨ earlier.1 = later.1 ∧ earlier.2 ≤ later.2

theorem toInt64_of_fits {result : Int} (hfits : FitsInt64 result) : toInt64 result = result := by
  obtain ⟨hlow, hhigh⟩ := hfits
  apply Int.bmod_eq_of_le <;> omega

theorem toUInt32_of_fits {result : Int} (hfits : FitsUInt32 result) : toUInt32 result = result :=
  Int.emod_eq_of_lt hfits.1 hfits.2

section split

variable {localTime : Int} (hnonneg : 0 ≤ localTime) (hlt : localTime < 2 ^ 32 * SECONDS)
include hnonneg hlt

theorem splitFits : SplitFits localTime := by
  rw [SECONDS_eq] at hlt
  have hdiv : localTime.tdiv SECONDS = localTime / 1000000000 :=
    Int.tdiv_eq_ediv_of_nonneg hnonneg
  have hrest : ((localTime - localTime / 1000000000 * 1000000000) * 2 ^ 32).tdiv 1000000000 =
      (localTime - localTime / 1000000000 * 1000000000) * 2 ^ 32 / 1000000000 :=
    Int.tdiv_eq_ediv_of_nonneg (by omega)
  constructor <;> rw [hdiv] <;> simp only [SECONDS_eq, hrest, FitsInt64, FitsUInt32] <;> omega

theorem splitTimeECSS_eq :
    splitTimeECSS localTime =
      (localTime / 1000000000, localTime % 1000000000 * 2 ^ 32 / 1000000000) := by
  have hfits := splitFits hnonneg hlt
  have hdiv : localTime.tdiv SECONDS = localTime / 1000000000 :=
    Int.tdiv_eq_ediv_of_nonneg hnonneg
  have hrest : localTime - localTime / 1000000000 * SECONDS = localTime % 1000000000 := by
    rw [SECONDS_eq]
    omega
  have hfraction : (localTime % 1000000000 * 2 ^ 32).tdiv SECONDS =
      localTime % 1000000000 * 2 ^ 32 / 1000000000 :=
    Int.tdiv_eq_ediv_of_nonneg (by omega)
  obtain ⟨hseconds, hwhole, hpre, hshifted, hlast⟩ := hfits
  rw [hdiv] at hseconds hwhole hpre hshifted hlast
  rw [hrest] at hpre hshifted hlast
  rw [hfraction] at hlast
  unfold splitTimeECSS
  simp only [hdiv, toUInt32_of_fits hseconds, toInt64_of_fits hwhole, hrest,
    toInt64_of_fits hpre, toInt64_of_fits hshifted, toUInt32_of_fits hlast, hfraction]

end split

theorem ECSSTimeToLocalTime_eq {seconds fraction : Int} (hseconds : FitsUInt32 seconds)
    (hfraction : FitsUInt32 fraction) :
    ECSSTimeToLocalTime seconds fraction .FractSize32Bit =
      1000000000 * seconds + 1000000000 * fraction / 2 ^ 32 := by
  obtain ⟨hlow, hhigh⟩ := hseconds
  obtain ⟨hfirst, hlast⟩ := hfraction
  have hshift : (1000000000 * fraction) >>> (32 : Nat) = 1000000000 * fraction / 2 ^ 32 :=
    Int.shiftRight_eq_div_pow _ 32
  unfold ECSSTimeToLocalTime FractSize.bits
  rw [SECONDS_eq, @toInt64_of_fits (1000000000 * seconds) ⟨by omega, by omega⟩,
    @toInt64_of_fits (1000000000 * fraction) ⟨by omega, by omega⟩, hshift]
  apply toInt64_of_fits
  constructor <;> omega

/-- Times up to 2^32 seconds are split without overflow and in order, and come back up to one
nanosecond. -/
theorem splitTimeECSS_precise {localTime : Int} (hnonneg : 0 ≤ localTime)
    (hlt : localTime < 2 ^ 32 * SECONDS) :
    SplitFits localTime ∧
      (∀ later, localTime ≤ later → later < 2 ^ 32 * SECONDS →
        NotAfter (splitTimeECSS localTime) (splitTimeECSS later)) ∧
      localTime - 1 ≤ ECSSTimeToLocalTime (splitTimeECSS localTime).1 (splitTimeECSS localTime).2
        .FractSize32Bit ∧
      ECSSTimeToLocalTime (splitTimeECSS localTime).1 (splitTimeECSS localTime).2
        .FractSize32Bit ≤ localTime := by
  refine ⟨splitFits hnonneg hlt, ?_, ?_⟩
  · intro later hlater hlaterLt
    rw [splitTimeECSS_eq hnonneg hlt, splitTimeECSS_eq (by omega) hlaterLt]
    unfold NotAfter
    omega
  · rw [splitTimeECSS_eq hnonneg hlt]
    rw [SECONDS_eq] at hlt
    rw [ECSSTimeToLocalTime_eq ⟨by omega, by omega⟩ ⟨by omega, by omega⟩]
    omega

theorem splitTimeECSS_precise_half :
    SplitFits 1500000001 ∧
      (∀ later, 1500000001 ≤ later → later < 2 ^ 32 * SECONDS →
        NotAfter (splitTimeECSS 1500000001) (splitTimeECSS later)) ∧
      1500000001 - 1 ≤ ECSSTimeToLocalTime (splitTimeECSS 1500000001).1
        (splitTimeECSS 1500000001).2 .FractSize32Bit ∧
      ECSSTimeToLocalTime (splitTimeECSS 1500000001).1 (splitTimeECSS 1500000001).2
        .FractSize32Bit ≤ 1500000001 :=
  splitTimeECSS_precise (by decide) (by decide)

end Rodos.Time
