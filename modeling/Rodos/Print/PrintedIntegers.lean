import Rodos.Print.NumberOutput
import Rodos.Support.StdlibPico

/-! What `vaprintf` prints for an integer, read back, is the integer. -/
namespace Rodos.Print
open Library

section reading

variable {base : Nat}

/-- The digit of a base that a character stands for. -/
def digitIn (base : Nat) (c : UInt8) : Option Nat :=
  (Support.digitOf c).bind fun digit => if digit.toNat < base then some digit.toNat else none

/-- A minus sign, fill characters and then the digits. -/
def readBack (base : Nat) (fill : UInt8) (text : List UInt8) : Option Int :=
  let minus := text.head? = some 0x2D
  let unsigned := if minus then text.tail else text
  ((unsigned.dropWhile (· == fill)).mapM (digitIn base)).map fun digits =>
    if minus then -(valueOf base digits : Int) else valueOf base digits

theorem digitOf_digitChar {digit : Nat} (hdigit : digit < 16) :
    Support.digitOf (digitChar digit) = some (UInt8.ofNat digit) := by
  revert digit
  decide

theorem digitIn_digitChar (hbase : base ≤ 16) {digit : Nat} (hdigit : digit < base) :
    digitIn base (digitChar digit) = some digit := by
  have hbyte : (UInt8.ofNat digit).toNat = digit :=
    UInt8.toNat_ofNat_of_lt' (by simp only [UInt8.size]; omega)
  rw [digitIn, digitOf_digitChar (by omega), Option.bind_some, hbyte, if_pos hdigit]

theorem mapM_digitIn (hbase : base ≤ 16) {digits : List Nat}
    (hdigits : ∀ digit ∈ digits, digit < base) :
    (digits.map digitChar).mapM (digitIn base) = some digits := by
  induction digits with
  | nil => rfl
  | cons digit digits ih =>
    rw [List.forall_mem_cons] at hdigits
    rw [List.map_cons, List.mapM_cons, digitIn_digitChar hbase hdigits.1, ih hdigits.2]
    rfl

theorem dropWhile_padding (fill : UInt8) (count : Nat) (text : List UInt8) :
    (List.replicate count fill ++ text).dropWhile (· == fill) = text.dropWhile (· == fill) := by
  induction count with
  | zero => rfl
  | succ count ih =>
    rw [List.replicate_succ, List.cons_append, List.dropWhile_cons_of_pos (by simp), ih]

/-- A digit that is taken for a fill character is a zero. -/
theorem eq_zero_of_digitChar_eq {digit : Nat} (hdigit : digit < 16) {fill : Fill}
    (hfill : digitChar digit = fill.char) : digit = 0 := by
  revert digit
  cases fill <;> decide

/-- The zeros that are dropped with the padding do not change the number. -/
theorem dropWhile_digits (hbase : base ≤ 16) (fill : Fill) {digits : List Nat}
    (hdigits : ∀ digit ∈ digits, digit < base) :
    ∃ rest, (digits.map digitChar).dropWhile (· == fill.char) = rest.map digitChar ∧
      (∀ digit ∈ rest, digit < base) ∧ valueOf base rest = valueOf base digits := by
  induction digits with
  | nil => exact ⟨[], rfl, hdigits, rfl⟩
  | cons digit digits ih =>
    by_cases hfill : digitChar digit = fill.char
    · rw [List.forall_mem_cons] at hdigits
      obtain ⟨rest, hrest, hbound, hvalue⟩ := ih hdigits.2
      obtain rfl := eq_zero_of_digitChar_eq (Nat.lt_of_lt_of_le hdigits.1 hbase) hfill
      refine ⟨rest, ?_, hbound, hvalue.trans (valueOf_zeros 1 digits).symm⟩
      rw [List.map_cons, List.dropWhile_cons_of_pos (by simpa using hfill), hrest]
    · refine ⟨digit :: digits, ?_, hdigits, rfl⟩
      rw [List.map_cons, List.dropWhile_cons_of_neg (by simpa using hfill)]

/-- The digits behind the padding denote the number. -/
theorem mapM_paddedNumeral (hbase : 1 < base) (hbase' : base ≤ 16) (n width : Nat) (fill : Fill) :
    ∃ digits, ((paddedNumeral base n width fill).dropWhile (· == fill.char)).mapM (digitIn base) =
      some digits ∧ valueOf base digits = n := by
  obtain ⟨digits, hdrop, hbound, hvalue⟩ := dropWhile_digits hbase' fill
    (fun _ hdigit => @digit_lt_of_mem_numeral base n hbase _ hdigit)
  refine ⟨digits, ?_, hvalue.trans (valueOf_numeral base n)⟩
  rw [paddedNumeral, dropWhile_padding, hdrop, mapM_digitIn hbase' hbound]

theorem Fill.char_ne_minus (fill : Fill) : fill.char ≠ 0x2D := by
  cases fill <;> decide

theorem digitChar_ne_minus : ∀ digit < 16, digitChar digit ≠ 0x2D := by
  decide

theorem readBack_paddedNumeral (hbase : 1 < base) (hbase' : base ≤ 16) (n width : Nat)
    (fill : Fill) (negative : Bool) :
    readBack base fill.char
        (if negative then 0x2D :: paddedNumeral base n width fill
          else paddedNumeral base n width fill) =
      some (if negative then -(n : Int) else n) := by
  obtain ⟨digits, hread, hvalue⟩ := mapM_paddedNumeral hbase hbase' n width fill
  cases negative with
  | true => simp [readBack, hread, hvalue]
  | false =>
    have hplain : (paddedNumeral base n width fill).head? ≠ some 0x2D := fun hhead =>
      notMem_paddedNumeral hbase hbase' Fill.char_ne_minus digitChar_ne_minus n width fill
        (List.mem_of_mem_head? hhead)
    simp [readBack, hread, hvalue, hplain]

end reading

namespace IntegerConversion

variable {width : Nat}

/-- The number that the argument is for a conversion. -/
def denoted (conversion : IntegerConversion) (value : BitVec width) : Int :=
  if conversion.is_signed then value.toInt else value.toNat

theorem denoted_eq (conversion : IntegerConversion) (value : BitVec width) :
    conversion.denoted value =
      if conversion.negative value then -(conversion.magnitude value : Int)
      else conversion.magnitude value := by
  rw [denoted, magnitude, negative]
  cases conversion.is_signed with
  | false => rfl
  | true =>
    by_cases hnegative : value.toInt < 0
    · rw [Bool.true_and, decide_eq_true hnegative, if_pos rfl, if_pos rfl, if_pos rfl]
      omega
    · have hmsb : value.msb = false := by rw [BitVec.msb_eq_toInt, decide_eq_false hnegative]
      rw [Bool.true_and, decide_eq_false hnegative, BitVec.toInt_eq_toNat_of_msb hmsb]
      rfl

theorem negative_iff (conversion : IntegerConversion) (value : BitVec width) :
    conversion.negative value = true ↔ conversion.denoted value < 0 := by
  rw [denoted, negative]
  cases conversion.is_signed <;> simp

theorem natAbs_denoted (conversion : IntegerConversion) (value : BitVec width) :
    (conversion.denoted value).natAbs = conversion.magnitude value := by
  rw [denoted_eq]
  split <;> simp

end IntegerConversion

/-- The characters of a number without any padding. -/
def charactersNeeded (base : Nat) (number : Int) : Nat :=
  (numeral base number.natAbs).length + if number < 0 then 1 else 0

/-- A minus sign takes one of the characters of the width. -/
theorem IntegerConversion.length_signed (conversion : IntegerConversion) {width : Nat}
    (value : BitVec width) (field : Nat) (fill : Fill) :
    let negative := conversion.negative value
    let text := paddedNumeral conversion.base (conversion.magnitude value)
      (field - if negative then 1 else 0) fill
    (if negative then 0x2D :: text else text).length =
      max field (charactersNeeded conversion.base (conversion.denoted value)) := by
  have hpos := length_numeral_pos conversion.one_lt_base (conversion.magnitude value)
  dsimp only
  simp only [charactersNeeded, conversion.natAbs_denoted, ← conversion.negative_iff]
  cases conversion.negative value with
  | false => simp [length_paddedNumeral]
  | true =>
    simp only [if_true, List.length_cons, length_paddedNumeral]
    omega

/-- The text of a conversion with `d`, `u`, `x` or `o`, read back in its base, is the argument, and
it is as long as the width and the number ask for. -/
theorem printed_integer_reads_back {D : Type} [DoubleArithmetic D] {long : LongSize}
    (specifier : Specifier) (hconversion : specifier.conversion ∈ [.d, .u, .x, .o])
    (value : BitVec (specifier.size.bits long)) :
    ∃ text, vaprintf (specifier.text ++ [0]) [(specifier.size.arg value : Arg D long)] =
        some (if specifier.conversion = .o then 0x30 :: text else text) ∧
      readBack specifier.conversion.base (if specifier.zero then 0x30 else 0x20) text =
        some (specifier.conversion.denoted value) ∧
      text.length = max (specifier.width.getD 0).val
        (charactersNeeded specifier.conversion.base (specifier.conversion.denoted value)) := by
  have hprinted := @vaprintf_specifier long D _ specifier value
  have hother : specifier.conversion ≠ .b := by
    intro hb
    rw [hb] at hconversion
    revert hconversion
    decide
  rw [if_pos (fun hb => absurd hb hother)] at hprinted
  have hfill : (if specifier.zero then 0x30 else 0x20 : UInt8) = specifier.directive.fill.char := by
    rw [Specifier.directive]
    cases specifier.zero <;> rfl
  refine ⟨_, hprinted, ?_, specifier.conversion.length_signed value _ _⟩
  rw [hfill, readBack_paddedNumeral specifier.conversion.one_lt_base specifier.conversion.base_le,
    specifier.conversion.denoted_eq]

/-- `%05ld` with the most negative number, where a `long` has 32 bits. -/
theorem printed_integer_reads_back_intMin :
    ∃ text, vaprintf [0x25, 0x30, 0x35, 0x6C, 0x64, 0]
        [(Arg.long 0x80000000#32 : Arg Float .bits32)] = some text ∧
      readBack 10 0x30 text = some (-2147483648) ∧
      text.length = max 5 (charactersNeeded 10 (-2147483648)) :=
  @printed_integer_reads_back Float _ .bits32
    { zero := true, width := some 5, size := .long, conversion := .d } (by decide) 0x80000000#32

end Rodos.Print
