import Rodos.Library.Memory
import Mathlib.Tactic.IntervalCases

/-! The two-byte codes of the S3P framing, most significant byte first. -/
namespace Rodos.S3p

def NEVER_USE : UInt16 := 0xFEFE
def BOM : UInt16 := 0xFE02
def EOM : UInt16 := 0xFE03
def STUFF : UInt16 := 0xFE7E
def NODATA : UInt16 := 0xFEAA
def COMMAND : UInt16 := 0xFE00
def MARK : UInt16 := 0x00FE

def isCommand (c : UInt16) : Bool := c &&& 0xff00 == COMMAND

def msb (c : UInt16) : UInt8 := (c >>> 8).toUInt8
def lsb (c : UInt16) : UInt8 := (c &&& 0xff).toUInt8

/-- `MARK` as it stands in the byte stream. -/
def markByte : UInt8 := 0xFE

theorem toUInt16_eq_mark (c : UInt8) : c.toUInt16 = MARK ↔ c = markByte := by
  rw [← UInt16.toNat_inj, ← UInt8.toNat_inj]
  simp [MARK, markByte]

theorem msb_of_isCommand {c : UInt16} (hc : isCommand c = true) : msb c = markByte := by
  rw [isCommand, beq_iff_eq, ← UInt16.toBitVec_inj] at hc
  rw [msb, markByte, ← UInt8.toBitVec_inj]
  apply BitVec.eq_of_getLsbD_eq
  intro bit hbit
  have hhigh := congrArg (fun word => word.getLsbD (bit + 8)) hc
  simp [COMMAND] at hhigh ⊢
  interval_cases bit <;> simpa using hhigh

/-- A receiver that has seen the mark recovers a command from its low byte. -/
theorem command_or_lsb {c : UInt16} (hc : isCommand c = true) :
    COMMAND ||| (lsb c).toUInt16 = c := by
  rw [isCommand, beq_iff_eq, ← UInt16.toBitVec_inj] at hc
  have hlow : (lsb c).toUInt16.toBitVec = c.toBitVec &&& 0xff#16 := by
    unfold lsb
    apply BitVec.eq_of_toNat_eq
    have hmask := Nat.and_two_pow_sub_one_eq_mod c.toNat 8
    simp at hmask ⊢
    rw [← hmask, Nat.and_assoc]
    rfl
  have hones : c.toBitVec &&& 0xffff#16 = c.toBitVec := BitVec.and_allOnes
  rw [← UInt16.toBitVec_inj, UInt16.toBitVec_or, hlow, ← hc, UInt16.toBitVec_and]
  change c.toBitVec &&& 0xff00#16 ||| c.toBitVec &&& 0xff#16 = _
  rw [← BitVec.and_or_distrib_left]
  exact hones

/-- `NEVER_USE` is the only command whose low byte is again the mark. -/
theorem lsb_ne_mark {c : UInt16} (hc : isCommand c = true) (hnever : c ≠ NEVER_USE) :
    lsb c ≠ markByte := by
  intro hlow
  apply hnever
  rw [← command_or_lsb hc, hlow]
  rfl

end Rodos.S3p
