import Mathlib.Data.List.Forall2
import Rodos.Print.NumberOutput

/-! Which arguments a format asks for, and when `vaprintf` prints them all. -/
namespace Rodos.Print
open Library DoubleArithmetic

/-- The conversions of a format up to its end or to a bad one. -/
def directives (fmt : List UInt8) : List Directive :=
  match fmt with
  | [] => []
  | c :: fmt =>
    if c = 0 then []
    else if c ≠ 0x25 then directives fmt
    else
      match _hscan : scanDirective fmt with
      | some (some (directive, rest)) => directive :: directives rest
      | _ => []
termination_by fmt.length
decreasing_by
  · exact Nat.lt_succ_self _
  · exact Nat.lt_succ_of_lt (length_scanDirective _hscan)

/-- The conversions that take an argument; the others print their own character. -/
def Directive.takesArgument (directive : Directive) : Bool :=
  directive.c = 0x73 || directive.c = 0x63 || (numberKind directive.c).isSome

def argumentDirectives (fmt : List UInt8) : List Directive :=
  (directives fmt).filter Directive.takesArgument

section directives

variable {c : UInt8} {fmt rest : List UInt8} {directive : Directive}

@[simp] theorem argumentDirectives_terminator : argumentDirectives (0 :: fmt) = [] := by
  rw [argumentDirectives, directives, if_pos rfl, List.filter_nil]

theorem argumentDirectives_character (hzero : c ≠ 0) (hpercent : c ≠ 0x25) :
    argumentDirectives (c :: fmt) = argumentDirectives fmt := by
  rw [argumentDirectives, directives, if_neg hzero, if_pos hpercent, argumentDirectives]

theorem argumentDirectives_bad_format (hscan : scanDirective fmt = some none) :
    argumentDirectives (0x25 :: fmt) = [] := by
  rw [argumentDirectives, directives, if_neg (by decide), if_neg (by decide)]
  split <;> simp_all

theorem argumentDirectives_directive (hscan : scanDirective fmt = some (some (directive, rest))) :
    argumentDirectives (0x25 :: fmt) =
      if directive.takesArgument then directive :: argumentDirectives rest
      else argumentDirectives rest := by
  rw [argumentDirectives, directives, if_neg (by decide), if_neg (by decide)]
  split
  · next found hfound =>
    rw [hscan] at hfound
    cases hfound
    rw [List.filter_cons]
    rfl
  · simp_all

end directives

variable {D : Type} {long : LongSize}

/-- The argument is of the kind that `va_arg` is asked for. -/
def Directive.Matches (directive : Directive) : Arg D long → Prop
  | .string characters => directive.c = 0x73 ∧ 0 ∈ characters
  | .double _ => directive.c = 0x65 ∨ directive.c = 0x66
  | .int _ => directive.c = 0x63 ∨
      (∃ conversion : IntegerConversion, directive.c = conversion.char) ∧ directive.size = .int
  | .long _ =>
      (∃ conversion : IntegerConversion, directive.c = conversion.char) ∧ directive.size = .long
  | .longLong _ =>
      (∃ conversion : IntegerConversion, directive.c = conversion.char) ∧ directive.size = .longLong

/-- The value of an integer without a sign. -/
def Arg.unsigned : Arg D long → Nat
  | .int value => value.toNat
  | .long value => value.toNat
  | .longLong value => value.toNat
  | _ => 0

theorem IntegerSize.unsigned_arg (size : IntegerSize) (value : BitVec (size.bits long)) :
    (size.arg value : Arg D long).unsigned = value.toNat := by
  cases size <;> rfl

/-- At most 25 digits with base two. -/
def Directive.Fits (directive : Directive) (arg : Arg D long) : Prop :=
  directive.c = 0x62 → arg.unsigned < 2 ^ 25

section convert

variable [DoubleArithmetic D] {directive : Directive}

theorem putString_isSome {characters : List UInt8} (h : 0 ∈ characters) :
    (putString characters).isSome := by
  induction characters with
  | nil => exact absurd h List.not_mem_nil
  | cons c characters ih =>
    rw [putString]
    split
    · rfl
    · next hc =>
      obtain hsame | hrest := List.mem_cons.mp h
      · exact absurd hsame.symm hc
      · rw [Option.isSome_map]
        exact ih hrest

theorem putSigned_ten_isSome (long : LongSize) (directive : Directive) (negative : Bool)
    (s_val : BitVec 64) : (putSigned long directive 10 negative s_val).isSome := by
  have hlt : (s_val.setWidth (directive.size.bits long)).toNat < 10 ^ 25 := by
    have hvalue := (s_val.setWidth (directive.size.bits long)).isLt
    have hbits := directive.size.two_pow_bits_le long
    exact Nat.lt_trans (Nat.lt_of_lt_of_le hvalue hbits) (by norm_num)
  rw [putSigned_eq rfl, putNumber_eq (by decide) (by decide) _ (by omega), if_pos hlt]
  rfl

theorem putFloat_isSome (long : LongSize) (directive : Directive) (f_val : D)
    (s_val : BitVec 64) : (putFloat long directive f_val s_val).isSome := by
  rw [putFloat, Option.isSome_map]
  exact putSigned_ten_isSome long directive _ _

theorem writeExponent_eq (ptr : Nat) (cells : List UInt8) (e_val width : Nat) :
    writeExponent ptr cells e_val =
      (writeDigits 10 ptr cells e_val width).map fun written => written.2.2 := by
  induction ptr generalizing cells e_val width with
  | zero => rfl
  | succ ptr ih =>
    have hchar : digitChar (e_val % 10) = UInt8.ofNat (e_val % 10 + 0x30) := by
      have hdigit : e_val % 10 < 10 := Nat.mod_lt _ (by decide)
      generalize e_val % 10 = digit at *
      revert digit
      decide
    rw [writeExponent, writeDigits, hchar]
    split
    · rfl
    · exact ih _ _ _

/-- The second `scratch` holds every exponent. -/
theorem putExponent_isSome {e_val : Int} (hlow : -306 < e_val) (hhigh : e_val < 306) :
    (putExponent e_val).isSome := by
  have hlength : (numeral 10 e_val.natAbs).length ≤ 5 := by
    rw [length_numeral_le_iff (by decide) (by decide)]
    omega
  have hnonzero : 0 ∉ (numeral 10 e_val.natAbs).map digitChar := by
    intro hdigits
    obtain ⟨digit, hdigit, hchar⟩ := List.mem_map.mp hdigits
    have hlt := digit_lt_of_mem_numeral (by decide) hdigit
    exact digitChar_ne_zero digit (by omega) hchar
  rw [putExponent, writeExponent_eq _ _ _ 0, writeDigits_eq (by decide), if_pos hlength,
    Option.map_some, Option.bind_eq_bind, Option.bind_some]
  dsimp only
  rw [putString_append hnonzero]
  rfl

theorem append_isSome {front back : Option (List UInt8)} (hfront : front.isSome)
    (hback : back.isSome) :
    (do let text ← front; let exponent ← back; some (text ++ exponent)).isSome := by
  obtain ⟨text, rfl⟩ := Option.isSome_iff_exists.mp hfront
  obtain ⟨exponent, rfl⟩ := Option.isSome_iff_exists.mp hback
  rfl

theorem putExponential_isSome (long : LongSize) (directive : Directive) (f_val : D) :
    (putExponential long directive f_val).isSome := by
  unfold putExponential
  dsimp only
  split
  · exact append_isSome (putFloat_isSome long directive _ _)
      (putExponent_isSome (by decide) (by decide))
  · split
    · rfl
    · exact append_isSome (putFloat_isSome long directive _ _)
        (putExponent_isSome (by omega) (by omega))

theorem putDouble_isSome (long : LongSize) (directive : Directive) (is_exp : Bool) (f_val : D) :
    (putDouble long directive is_exp f_val).isSome := by
  rw [putDouble]
  split
  · rfl
  · split
    · exact putExponential_isSome long directive f_val
    · exact putFloat_isSome long directive f_val _

/-- What a conversion does with an argument of its kind: it prints it, if `scratch` is large enough,
and takes no other argument. -/
structure Converts (directive : Directive) (arg : Arg D long) (ap : List (Arg D long)) : Prop where
  fits : directive.Fits arg → ∃ text, convert directive (arg :: ap) = some (text, ap)
  overflows : ¬directive.Fits arg → convert directive (arg :: ap) = none

theorem converts_of_isSome {arg : Arg D long} {ap : List (Arg D long)} {text : Option (List UInt8)}
    (hc : directive.c ≠ 0x62) (hconvert : convert directive (arg :: ap) = text.map (·, ap))
    (htext : text.isSome) : Converts directive arg ap := by
  obtain ⟨text, rfl⟩ := Option.isSome_iff_exists.mp htext
  exact ⟨fun _ => ⟨text, hconvert⟩, fun hfits => absurd (fun hb => absurd hb hc) hfits⟩

theorem converts_integer {size : IntegerSize} (hsize : directive.size = size)
    {conversion : IntegerConversion} (hc : directive.c = conversion.char)
    (value : BitVec (size.bits long)) (ap : List (Arg D long)) :
    Converts directive (size.arg value) ap := by
  have hfits : directive.Fits (size.arg value : Arg D long) ↔
      conversion.magnitude value < conversion.base ^ 25 := by
    have hbinary : conversion.char = 0x62 ↔ conversion = .b := by cases conversion <;> decide
    rw [Directive.Fits, hc, hbinary, size.unsigned_arg, conversion.magnitude_lt_iff]
  have hconvert := convert_integer hsize hc value ap
  constructor
  · intro h
    rw [if_pos (hfits.mp h)] at hconvert
    exact ⟨_, hconvert⟩
  · intro h
    rw [if_neg (fun hlt => h (hfits.mpr hlt))] at hconvert
    exact hconvert

theorem converts_argument {arg : Arg D long} (hmatches : directive.Matches arg)
    (ap : List (Arg D long)) : Converts directive arg ap := by
  cases arg with
  | string characters =>
    obtain ⟨hc, hterminated⟩ := hmatches
    exact converts_of_isSome (by rw [hc]; decide) (by rw [convert, if_pos hc])
      (putString_isSome hterminated)
  | double f_val =>
    obtain hc | hc := hmatches <;>
      exact converts_of_isSome (by rw [hc]; decide) (by unfold convert; rw [hc]; rfl)
        (putDouble_isSome long directive _ f_val)
  | int value =>
    obtain hc | ⟨⟨conversion, hc⟩, hsize⟩ := hmatches
    · exact @converts_of_isSome _ _ _ _ _ _ (some [UInt8.ofBitVec (value.setWidth 8)])
        (by rw [hc]; decide) (by unfold convert; rw [hc]; rfl) rfl
    · exact converts_integer hsize hc value ap
  | long value =>
    obtain ⟨⟨conversion, hc⟩, hsize⟩ := hmatches
    exact converts_integer hsize hc value ap
  | longLong value =>
    obtain ⟨⟨conversion, hc⟩, hsize⟩ := hmatches
    exact converts_integer hsize hc value ap

theorem convert_character (htakes : directive.takesArgument = false) (ap : List (Arg D long)) :
    convert directive ap = some ([directive.c], ap) := by
  simp only [Directive.takesArgument, Bool.or_eq_false_iff, decide_eq_false_iff_not,
    Option.isSome_eq_false_iff, Option.isNone_iff_eq_none] at htakes
  obtain ⟨⟨hstring, hchar⟩, hnumber⟩ := htakes
  unfold convert
  rw [if_neg hstring, hnumber]
  exact if_neg hchar

theorem vaprintf_converts {fmt rest : List UInt8} {arg : Arg D long} {ap : List (Arg D long)}
    (hscan : scanDirective fmt = some (some (directive, rest)))
    (hconverts : Converts directive arg ap) :
    (vaprintf (0x25 :: fmt) (arg :: ap)).isSome ↔
      directive.Fits arg ∧ (vaprintf rest ap).isSome := by
  rw [vaprintf_directive _ hscan]
  by_cases hfits : directive.Fits arg
  · obtain ⟨text, hconvert⟩ := hconverts.fits hfits
    rw [hconvert, Option.bind_some, Option.isSome_map]
    exact (and_iff_right hfits).symm
  · rw [hconverts.overflows hfits]
    exact iff_of_false (by simp) (fun h => hfits h.1)

end convert

/-- `vaprintf` accesses nothing beside its arrays if and only if every argument of a `%b` has at
most 25 digits. -/
theorem vaprintf_isSome_iff [DoubleArithmetic D] {fmt : List UInt8} (hfmt : Terminated fmt)
    {args : List (Arg D long)}
    (hkinds : List.Forall₂ Directive.Matches (argumentDirectives fmt) args)
    (extra : List (Arg D long)) :
    (vaprintf fmt (args ++ extra)).isSome ↔
      List.Forall₂ Directive.Fits (argumentDirectives fmt) args := by
  induction hlength : fmt.length using Nat.strong_induction_on generalizing fmt args with
  | _ length ih =>
    cases fmt with
    | nil => exact absurd hfmt not_terminated_nil
    | cons c fmt =>
      by_cases hzero : c = 0
      · subst hzero
        rw [argumentDirectives_terminator] at hkinds ⊢
        cases hkinds
        simp
      have hrest := hfmt.tail hzero
      by_cases hpercent : c = 0x25
      · subst hpercent
        obtain hbad | ⟨directive, rest, hscan, hterminated⟩ := hrest.scanDirective
        · rw [argumentDirectives_bad_format hbad] at hkinds ⊢
          cases hkinds
          simp [vaprintf_bad_format _ hbad]
        · have hshorter : rest.length < length :=
            hlength ▸ Nat.lt_succ_of_lt (length_scanDirective hscan)
          rw [argumentDirectives_directive hscan] at hkinds ⊢
          split at hkinds
          · next htakes =>
            cases hkinds with
            | cons hmatches hkinds =>
              rw [if_pos htakes, List.forall₂_cons, ← ih _ hshorter hterminated hkinds rfl]
              exact vaprintf_converts hscan (converts_argument hmatches _)
          · next htakes =>
            rw [if_neg htakes, ← ih _ hshorter hterminated hkinds rfl,
              vaprintf_directive _ hscan, convert_character (Bool.eq_false_of_not_eq_true htakes),
              Option.bind_some, Option.isSome_map]
      · rw [argumentDirectives_character hzero hpercent] at hkinds ⊢
        rw [vaprintf_character _ hzero hpercent, Option.isSome_map]
        exact ih _ (hlength ▸ Nat.lt_succ_self _) hrest hkinds rfl

end Rodos.Print
