import Rodos.Library.Digits
import Rodos.Print.FormatScan

/-! The number output of `vaprintf`: the digits are the numeral of the value, filled up to the
width, and `scratch` is large enough for them unless the base is two. -/
namespace Rodos.Print
open Library

section scratch

variable {base : Nat}

theorem writeDigits_eq (hbase : 1 < base) (ptr : Nat) (cells : List UInt8) (u_val width : Nat) :
    writeDigits base ptr cells u_val width =
      if (numeral base u_val).length ≤ ptr then
        some (ptr - (numeral base u_val).length, width - (numeral base u_val).length,
          (numeral base u_val).map digitChar ++ cells)
      else none := by
  induction ptr generalizing cells u_val width with
  | zero =>
    have hpos := length_numeral_pos hbase u_val
    rw [writeDigits, if_neg (by omega)]
  | succ ptr ih =>
    rw [writeDigits]
    by_cases hlast : u_val < base
    · rw [if_pos (Nat.div_eq_of_lt hlast), numeral_of_lt hlast, Nat.mod_eq_of_lt hlast,
        if_pos (by simp)]
      rfl
    · have hle := Nat.le_of_not_lt hlast
      have hquotient : u_val / base ≠ 0 := Nat.div_ne_zero_iff.mpr ⟨by omega, hle⟩
      rw [if_neg hquotient, ih, numeral_of_le hbase hle, List.length_append, List.length_singleton]
      by_cases hfits : (numeral base (u_val / base)).length ≤ ptr
      · rw [if_pos hfits, if_pos (by omega), Nat.add_sub_add_right, Nat.sub_sub, Nat.add_comm 1]
        simp
      · rw [if_neg hfits, if_neg (by omega)]

theorem writePadding_eq (fill : UInt8) (width ptr : Nat) (cells : List UInt8) :
    writePadding fill width ptr cells =
      if width ≤ ptr then some (ptr - width, List.replicate width fill ++ cells) else none := by
  induction width generalizing ptr cells with
  | zero => simp [writePadding]
  | succ width ih =>
    cases ptr with
    | zero => simp [writePadding]
    | succ ptr =>
      rw [writePadding, ih]
      simp [List.replicate_succ', List.append_assoc]

theorem putString_append {text : List UInt8} (hnonzero : 0 ∉ text) (behind : List UInt8) :
    putString (text ++ 0 :: behind) = some text := by
  induction text with
  | nil => rfl
  | cons c text ih =>
    rw [List.mem_cons, not_or] at hnonzero
    rw [List.cons_append, putString, if_neg (Ne.symm hnonzero.1), ih hnonzero.2]
    rfl

/-- The digits with their padding. -/
def paddedNumeral (base u_val width : Nat) (fill : Fill) : List UInt8 :=
  List.replicate (width - (numeral base u_val).length) fill.char ++
    (numeral base u_val).map digitChar

/-- A character that is neither a fill nor a digit. -/
theorem notMem_paddedNumeral (hbase : 1 < base) (hbase' : base ≤ 16) {c : UInt8}
    (hfill : ∀ fill : Fill, fill.char ≠ c) (hdigit : ∀ digit < 16, digitChar digit ≠ c)
    (u_val width : Nat) (fill : Fill) : c ∉ paddedNumeral base u_val width fill := by
  rw [paddedNumeral, List.mem_append, not_or]
  constructor
  · intro hpadding
    exact hfill fill (List.eq_of_mem_replicate hpadding).symm
  · intro hdigits
    obtain ⟨digit, hmem, hchar⟩ := List.mem_map.mp hdigits
    have hlt := digit_lt_of_mem_numeral hbase hmem
    exact hdigit digit (by omega) hchar

theorem Fill.char_ne_zero (fill : Fill) : fill.char ≠ 0 := by
  cases fill <;> decide

theorem digitChar_ne_zero : ∀ digit < 16, digitChar digit ≠ 0 := by
  decide

theorem length_paddedNumeral (base u_val width : Nat) (fill : Fill) :
    (paddedNumeral base u_val width fill).length = max width (numeral base u_val).length := by
  rw [paddedNumeral, List.length_append, List.length_replicate, List.length_map]
  omega

/-- The padding never leaves `scratch`, as a width is at most nine; the digits can. -/
theorem putNumber_eq (hbase : 1 < base) (hbase' : base ≤ 16) (u_val : Nat) {width : Nat}
    (hwidth : width < 10) (fill : Fill) :
    putNumber base u_val width fill.char =
      if u_val < base ^ 25 then some (paddedNumeral base u_val width fill) else none := by
  have hlength := @length_numeral_le_iff base hbase 25 (by decide) u_val
  rw [putNumber, SCRATCH_SIZE, writeDigits_eq hbase]
  by_cases hfits : (numeral base u_val).length ≤ 25
  · rw [if_pos hfits, if_pos (hlength.mp hfits), Option.bind_eq_bind, Option.bind_some]
    dsimp only
    rw [writePadding_eq, if_pos (by omega), Option.bind_eq_bind, Option.bind_some]
    dsimp only
    rw [← List.append_assoc]
    exact putString_append
      (notMem_paddedNumeral hbase hbase' Fill.char_ne_zero digitChar_ne_zero u_val width fill) []
  · rw [if_neg hfits, if_neg (fun h => hfits (hlength.mpr h))]
    rfl

end scratch

/-- The size that a conversion's `l` ask for. -/
def Directive.size (directive : Directive) : IntegerSize :=
  if directive.is_longlong then .longLong
  else if directive.is_long then .long
  else .int

theorem Specifier.size_directive (specifier : Specifier) :
    specifier.directive.size = specifier.size := by
  rw [Directive.size, Specifier.directive]
  cases specifier.size <;> rfl

namespace IntegerConversion

def base : IntegerConversion → Nat
  | o => 8
  | d | i | u => 10
  | x => 16
  | b => 2

def is_signed : IntegerConversion → Bool
  | d => true
  | _ => false

theorem one_lt_base (conversion : IntegerConversion) : 1 < conversion.base := by
  cases conversion <;> decide

theorem base_le (conversion : IntegerConversion) : conversion.base ≤ 16 := by
  cases conversion <;> decide

theorem numberKind_char (conversion : IntegerConversion) :
    numberKind conversion.char =
      some { base := conversion.base, is_signed := conversion.is_signed } := by
  cases conversion <;> rfl

end IntegerConversion

section integer

variable {long : LongSize} {directive : Directive} {size : IntegerSize}

theorem IntegerSize.bits_le (long : LongSize) (size : IntegerSize) : size.bits long ≤ 64 := by
  cases size <;> cases long <;> decide

theorem IntegerSize.two_pow_bits_le (long : LongSize) (size : IntegerSize) :
    2 ^ size.bits long ≤ 2 ^ 64 :=
  Nat.pow_le_pow_right (by decide) (size.bits_le long)

theorem integerArg_arg {D : Type} (hsize : directive.size = size)
    (value : BitVec (size.bits long)) (ap : List (Arg D long)) :
    integerArg directive (size.arg value :: ap) = some (value.signExtend 64, ap) := by
  subst hsize
  obtain ⟨_, _, _, is_long, is_longlong, _, _⟩ := directive
  cases is_longlong with
  | true => exact congrArg some (congrArg (·, ap) (BitVec.signExtend_eq value).symm)
  | false => cases is_long <;> rfl

/-- The narrowing to `u_val`. -/
theorem putSigned_eq (hsize : directive.size = size) (base : Nat) (negative : Bool)
    (s_val : BitVec 64) :
    putSigned long directive base negative s_val =
      (putNumber base (s_val.setWidth (size.bits long)).toNat
        (directive.width.val - if negative then 1 else 0) directive.fill.char).map fun text =>
          if negative then 0x2D :: text else text := by
  subst hsize
  obtain ⟨_, _, _, is_long, is_longlong, _, _⟩ := directive
  unfold putSigned
  cases negative <;> cases is_longlong <;> cases is_long <;>
    simp [Directive.size, IntegerSize.bits]

theorem setWidth_signExtend {width : Nat} (hwidth : width ≤ 64) (value : BitVec width) :
    (value.signExtend 64).setWidth width = value := by
  apply BitVec.eq_of_getLsbD_eq
  intro index hindex
  rw [BitVec.getLsbD_setWidth, BitVec.getLsbD_signExtend]
  simp [hindex, Nat.lt_of_lt_of_le hindex hwidth]

theorem slt_signExtend {width : Nat} (hwidth : width ≤ 64) (value : BitVec width) :
    (value.signExtend 64).slt 0 = decide (value.toInt < 0) := by
  rw [BitVec.slt_eq_decide, BitVec.toInt_signExtend_of_le hwidth]
  simp

/-- The magnitude of a negative number, in two's complement. -/
theorem toNat_neg_of_negative {width : Nat} {value : BitVec width} (hnegative : value.toInt < 0) :
    (-value).toNat = value.toInt.natAbs := by
  have hmsb : value.msb = true := by rw [BitVec.msb_eq_toInt, decide_eq_true hnegative]
  have hlt := value.isLt
  rw [BitVec.toInt_eq_msb_cond, if_pos hmsb] at hnegative ⊢
  have hpos : 0 < value.toNat := by
    by_contra hzero
    rw [BitVec.msb_eq_true_iff_two_mul_ge] at hmsb
    omega
  rw [BitVec.toNat_neg, Nat.mod_eq_of_lt (Nat.sub_lt (by omega) hpos)]
  omega

/-- Whether a minus sign is printed. -/
def IntegerConversion.negative {width : Nat} (conversion : IntegerConversion)
    (value : BitVec width) : Bool :=
  conversion.is_signed && decide (value.toInt < 0)

/-- The number that the digits show. -/
def IntegerConversion.magnitude {width : Nat} (conversion : IntegerConversion)
    (value : BitVec width) : Nat :=
  if conversion.negative value then value.toInt.natAbs else value.toNat

/-- The digits and what stands in front of them. -/
def IntegerConversion.output {width : Nat} (conversion : IntegerConversion)
    (directive : Directive) (value : BitVec width) : List UInt8 :=
  let negative := conversion.negative value
  let text := paddedNumeral conversion.base (conversion.magnitude value)
    (directive.width.val - if negative then 1 else 0) directive.fill
  let text := if negative then 0x2D :: text else text
  if conversion = .o then 0x30 :: text else text

theorem putInteger_eq (hsize : directive.size = size) (conversion : IntegerConversion)
    (value : BitVec (size.bits long)) :
    (putInteger long directive conversion.base conversion.is_signed (value.signExtend 64)).map
        (fun text => if conversion = .o then 0x30 :: text else text) =
      if conversion.magnitude value < conversion.base ^ 25 then
        some (conversion.output directive value)
      else none := by
  have hbits := size.bits_le long
  have hnumber := fun width (hwidth : width < 10) => putNumber_eq conversion.one_lt_base
    conversion.base_le (conversion.magnitude value) hwidth directive.fill
  rw [putInteger, slt_signExtend hbits, ← IntegerConversion.negative]
  by_cases hnegative : conversion.negative value = true
  · have hsigned : value.toInt < 0 := by
      rw [IntegerConversion.negative, Bool.and_eq_true, decide_eq_true_eq] at hnegative
      exact hnegative.2
    have hmagnitude : ((-value.signExtend 64).setWidth (size.bits long)).toNat =
        conversion.magnitude value := by
      rw [BitVec.setWidth_neg_of_le hbits, setWidth_signExtend hbits,
        toNat_neg_of_negative hsigned, IntegerConversion.magnitude, if_pos hnegative]
    rw [if_pos hnegative, putSigned_eq hsize, hmagnitude, hnumber _ (by omega)]
    by_cases hfits : conversion.magnitude value < conversion.base ^ 25 <;>
      simp [IntegerConversion.output, hnegative, hfits]
  · have hmagnitude : ((value.signExtend 64).setWidth (size.bits long)).toNat =
        conversion.magnitude value := by
      rw [setWidth_signExtend hbits, IntegerConversion.magnitude, if_neg hnegative]
    rw [if_neg hnegative, putSigned_eq hsize, hmagnitude, hnumber _ (by simp)]
    by_cases hfits : conversion.magnitude value < conversion.base ^ 25 <;>
      simp [IntegerConversion.output, hnegative, hfits]

variable {D : Type} [DoubleArithmetic D]

/-- What an integer conversion hands to `yputc`, if `scratch` is large enough. -/
theorem convert_integer (hsize : directive.size = size) {conversion : IntegerConversion}
    (hc : directive.c = conversion.char) (value : BitVec (size.bits long))
    (ap : List (Arg D long)) :
    convert directive (size.arg value :: ap) =
      if conversion.magnitude value < conversion.base ^ 25 then
        some (conversion.output directive value, ap)
      else none := by
  have hstring : conversion.char ≠ 0x73 := by cases conversion <;> decide
  have hoctal : conversion.char = 0x6F ↔ conversion = .o := by cases conversion <;> decide
  unfold convert
  rw [hc, if_neg hstring, conversion.numberKind_char]
  dsimp only
  rw [if_neg (by decide), integerArg_arg hsize, Option.bind_eq_bind, Option.bind_some]
  simp only [hoctal]
  have hput := congrArg (Option.map (·, ap)) (putInteger_eq hsize conversion value)
  rw [apply_ite (Option.map (·, ap)), Option.map_some, Option.map_none] at hput
  rw [← hput, Option.map_map]
  cases putInteger long directive conversion.base conversion.is_signed (value.signExtend 64) <;> rfl

theorem IntegerConversion.magnitude_lt (conversion : IntegerConversion) {width : Nat}
    (value : BitVec width) : conversion.magnitude value < 2 ^ width := by
  rw [magnitude]
  split
  · next hnegative =>
    rw [negative, Bool.and_eq_true, decide_eq_true_eq] at hnegative
    rw [← toNat_neg_of_negative hnegative.2]
    exact (-value).isLt
  · exact value.isLt

/-- Only with base two a value can have more than 25 digits. -/
theorem IntegerConversion.magnitude_lt_iff (conversion : IntegerConversion)
    (value : BitVec (size.bits long)) :
    conversion.magnitude value < conversion.base ^ 25 ↔
      (conversion = .b → value.toNat < 2 ^ 25) := by
  have hlt := Nat.lt_of_lt_of_le (conversion.magnitude_lt value) (size.two_pow_bits_le long)
  cases conversion with
  | b => simp [magnitude, negative, is_signed, base]
  | o | d | i | u | x =>
    simp only [base, reduceCtorEq, false_implies, iff_true]
    exact Nat.lt_trans hlt (by norm_num)

theorem vaprintf_specifier (specifier : Specifier) (value : BitVec (specifier.size.bits long)) :
    vaprintf (specifier.text ++ [0]) [(specifier.size.arg value : Arg D long)] =
      if specifier.conversion = .b → value.toNat < 2 ^ 25 then
        some (specifier.conversion.output specifier.directive value)
      else none := by
  rw [Specifier.text, List.cons_append,
    vaprintf_directive _ (specifier.scanDirective_spelling [0]),
    convert_integer specifier.size_directive rfl]
  simp only [specifier.conversion.magnitude_lt_iff value]
  split <;> simp

/-- No digit and no padding is written beside `scratch` if and only if a value that is printed with
base two has at most 25 digits. -/
theorem scratch_holds_integer_iff (specifier : Specifier)
    (value : BitVec (specifier.size.bits long)) :
    (vaprintf (specifier.text ++ [0]) [(specifier.size.arg value : Arg D long)]).isSome ↔
      (specifier.conversion = .b → value.toNat < 2 ^ 25) := by
  rw [vaprintf_specifier]
  split
  · next hfits => simpa using hfits
  · next hfits => simpa using hfits

/-- `%b` with a value of 26 digits. -/
theorem scratch_overflows :
    ¬∀ (specifier : Specifier) (value : BitVec (specifier.size.bits .bits32)),
      (vaprintf (specifier.text ++ [0])
        [(specifier.size.arg value : Arg Float .bits32)]).isSome := by
  intro hall
  have hfits := hall { conversion := .b } 0x2000000
  have hprinted := @vaprintf_specifier .bits32 Float _ { conversion := .b } 0x2000000
  rw [if_neg (by decide)] at hprinted
  rw [hprinted] at hfits
  cases hfits

end integer

end Rodos.Print
