import Mathlib.Tactic.Common

/-! `Yprintf::vaprintf` of `yprintf.cpp`. A pointer that only moves forwards (the format, a string)
is the list of the bytes from it to the end of its array; any access beside an array is `none`.
The result is what is handed to `yputc`, in this order. -/
namespace Rodos.Print

/-- The size of a `long` depends on the platform. -/
inductive LongSize
  | bits32
  | bits64

def LongSize.bits : LongSize → Nat
  | bits32 => 32
  | bits64 => 64

/-- The operations on `double`. What they compute is left open. -/
class DoubleArithmetic (D : Type) extends Mul D, Div D, Sub D, Neg D where
  ofInt : Int → D
  toLongLong : D → BitVec 64
  less : D → D → Bool
  equal : D → D → Bool

/-- The `double` of the machine. -/
instance : DoubleArithmetic Float where
  ofInt := Float.ofInt
  toLongLong f := f.toInt64.toBitVec
  less left right := left < right
  equal left right := left == right

open DoubleArithmetic

/-- One argument of the `va_list`; of a string it is the array from the pointer on. -/
inductive Arg (D : Type) (long : LongSize)
  | int (value : BitVec 32)
  | long (value : BitVec long.bits)
  | longLong (value : BitVec 64)
  | double (value : D)
  | string (characters : List UInt8)

inductive Fill
  | space
  | zero

def Fill.char : Fill → UInt8
  | space => 0x20
  | zero => 0x30

def noWidth : Fin 10 := 0

/-- What the scan behind a `%` found. -/
structure Directive where
  fill : Fill := .space
  width : Fin 10 := noWidth
  decimalPos : UInt8 := 3
  is_long : Bool := false
  is_longlong : Bool := false
  c : UInt8
  nonzero : c ≠ 0

/-- `c = *fmt++;` -/
def fetch : List UInt8 → Option (UInt8 × List UInt8)
  | [] => none
  | c :: fmt => some (c, fmt)

def IsDigit (c : UInt8) : Prop := 0x30 ≤ c ∧ c ≤ 0x39

instance (c : UInt8) : Decidable (IsDigit c) := inferInstanceAs (Decidable (_ ∧ _))

theorem IsDigit.sub_lt {c : UInt8} (h : IsDigit c) : (c - 0x30).toNat < 10 := by
  obtain ⟨hlow, hhigh⟩ := h
  rw [UInt8.le_iff_toNat_le] at hlow hhigh
  rw [UInt8.toNat_sub_of_le _ _ (UInt8.le_iff_toNat_le.mpr hlow)]
  simp only [UInt8.reduceToNat] at *
  omega

/-- `if(present) { value = found; c = *fmt++; }` -/
def scanOptional {α : Type} (present : Prop) [Decidable present] (found : present → α)
    (absent : α) (c : UInt8) (fmt : List UInt8) : Option (α × UInt8 × List UInt8) :=
  if h : present then (fetch fmt).map (found h, ·) else some (absent, c, fmt)

def scanFill (c : UInt8) (fmt : List UInt8) : Option (Fill × UInt8 × List UInt8) :=
  scanOptional (c = 0x30) (fun _ => .zero) .space c fmt

def scanWidth (c : UInt8) (fmt : List UInt8) : Option (Fin 10 × UInt8 × List UInt8) :=
  scanOptional (IsDigit c) (fun h => ⟨(c - 0x30).toNat, h.sub_lt⟩) noWidth c fmt

/-- The loop for more than nine decimal positions. -/
def scanDigits (decimalPos c : UInt8) : List UInt8 → Option (UInt8 × UInt8 × List UInt8)
  | [] => if IsDigit c then none else some (decimalPos, c, [])
  | next :: fmt =>
    if IsDigit c then scanDigits (decimalPos * 10 + (c - 0x30)) next fmt
    else some (decimalPos, c, next :: fmt)

/-- An inner `none` is the return at a bad format. -/
def scanDecimalPos (c : UInt8) (fmt : List UInt8) :
    Option (Option (UInt8 × UInt8 × List UInt8)) :=
  if c = 0x2E then do
    let (c, fmt) ← fetch fmt
    if c = 0 then some none
    else
      let decimalPos := c - 0x30
      let (c, fmt) ← fetch fmt
      if c = 0 then some none
      else (scanDigits decimalPos c fmt).map some
  else some (some (3, c, fmt))

def scanLong (c : UInt8) (fmt : List UInt8) : Option (Bool × UInt8 × List UInt8) :=
  scanOptional (c = 0x6C) (fun _ => true) false c fmt

/-- The scan behind a `%`; an inner `none` is the return at a bad format. -/
def scanDirective (fmt : List UInt8) : Option (Option (Directive × List UInt8)) := do
  let (c, fmt) ← fetch fmt
  let (fill, c, fmt) ← scanFill c fmt
  let (width, c, fmt) ← scanWidth c fmt
  match ← scanDecimalPos c fmt with
  | none => some none
  | some (decimalPos, c, fmt) =>
    let (is_long, c, fmt) ← scanLong c fmt
    let (is_longlong, c, fmt) ← scanLong c fmt
    if nonzero : c ≠ 0 then
      some (some ({ fill, width, decimalPos, is_long, is_longlong, c, nonzero }, fmt))
    else some none

/-- `while ((c = *ptr++)) yputc(c);` -/
def putString : List UInt8 → Option (List UInt8)
  | [] => none
  | c :: ptr => if c = 0 then some [] else (putString ptr).map (c :: ·)

def digitChar (digit : Nat) : UInt8 :=
  let ch := UInt8.ofNat (digit + 0x30)
  if ch > 0x39 then ch + 0x41 - 0x39 - 1 else ch

/-- The loop over the digits. `ptr` is an index into `scratch` and `cells` is the array from there
on; the result is `ptr`, `width` and the cells. -/
def writeDigits (base : Nat) : (ptr : Nat) → (cells : List UInt8) → (u_val width : Nat) →
    Option (Nat × Nat × List UInt8)
  | 0, _, _, _ => none
  | ptr + 1, cells, u_val, width =>
    let cells := digitChar (u_val % base) :: cells
    if u_val / base = 0 then some (ptr, width - 1, cells)
    else writeDigits base ptr cells (u_val / base) (width - 1)

/-- `while (width--) *--ptr = fill;` -/
def writePadding (fill : UInt8) : (width ptr : Nat) → (cells : List UInt8) →
    Option (Nat × List UInt8)
  | 0, ptr, cells => some (ptr, cells)
  | _ + 1, 0, _ => none
  | width + 1, ptr + 1, cells => writePadding fill width ptr (fill :: cells)

def SCRATCH_SIZE : Nat := 26

/-- The block with the array `scratch`. -/
def putNumber (base u_val width : Nat) (fill : UInt8) : Option (List UInt8) := do
  let (ptr, width, cells) ← writeDigits base (SCRATCH_SIZE - 1) [0] u_val width
  let (_, cells) ← writePadding fill width ptr cells
  putString cells

/-- The sign, if there is one, and the block with `scratch`; `s_val` is not negative any more. -/
def putSigned (long : LongSize) (directive : Directive) (base : Nat) (negative : Bool)
    (s_val : BitVec 64) : Option (List UInt8) :=
  let width := if negative then directive.width.val - 1 else directive.width.val
  let u_val :=
    if directive.is_longlong then s_val.toNat
    else if directive.is_long then (s_val.setWidth long.bits).toNat
    else (s_val.setWidth 32).toNat
  (putNumber base u_val width directive.fill.char).map fun text =>
    if negative then 0x2D :: text else text

/-- `va_arg` for the integers. -/
def integerArg {D : Type} {long : LongSize} (directive : Directive) :
    List (Arg D long) → Option (BitVec 64 × List (Arg D long))
  | .longLong value :: ap => if directive.is_longlong then some (value, ap) else none
  | .long value :: ap =>
    if directive.is_longlong then none
    else if directive.is_long then some (value.signExtend 64, ap)
    else none
  | .int value :: ap =>
    if directive.is_longlong then none
    else if directive.is_long then none
    else some (value.signExtend 64, ap)
  | _ => none

def putInteger (long : LongSize) (directive : Directive) (base : Nat) (is_signed : Bool)
    (s_val : BitVec 64) : Option (List UInt8) :=
  if is_signed && s_val.slt 0 then putSigned long directive base true (-s_val)
  else putSigned long directive base false s_val

section double

variable {D : Type} [DoubleArithmetic D]

/-- `while(decimalPos--)`: the digits behind the point. -/
def putDecimals (f_val : D) (s_val : BitVec 64) : (decimalPos : Nat) → List UInt8
  | 0 => []
  | decimalPos + 1 =>
    let f_val := f_val - ofInt s_val.toInt
    let f_val := f_val * ofInt 10
    let s_val := toLongLong f_val
    UInt8.ofBitVec ((s_val + 0x30).setWidth 8) :: putDecimals f_val s_val decimalPos

/-- A `char` that counts down to zero runs through its negative values first, so it makes as many
rounds as its bits say without a sign. -/
def putFloat (long : LongSize) (directive : Directive) (f_val : D) (s_val : BitVec 64) :
    Option (List UInt8) :=
  let negative := s_val.slt 0 || less f_val (ofInt 0)
  let s_val := if negative then -s_val else s_val
  let f_val := if negative then -f_val else f_val
  (putSigned long directive 10 negative s_val).map fun text =>
    text ++ 0x2E :: putDecimals f_val s_val directive.decimalPos.toNat

/-- `while(pow-- > 0) tmp *= 10;` -/
def powerOfTen (tmp : D) : (pow : Nat) → D
  | 0 => tmp
  | pow + 1 => powerOfTen (tmp * ofInt 10) pow

/-- The loop for numbers below `tmp`. -/
def scaleUp (sign tmp f_val : D) (e_val : Int) : D × Int :=
  if less (sign * f_val) tmp ∧ equal f_val (ofInt 0) = false ∧ e_val ≥ -306 then
    scaleUp sign tmp (f_val * ofInt 10) (e_val - 1)
  else (f_val, e_val)
termination_by (e_val + 307).toNat

/-- The loop for the other numbers. -/
def scaleDown (sign tmp f_val : D) (e_val : Int) : D × Int :=
  if less (sign * f_val) tmp = false ∧ e_val ≤ 306 then
    scaleDown sign tmp (f_val / ofInt 10) (e_val + 1)
  else (f_val, e_val)
termination_by (307 - e_val).toNat

/-- `f_val` and `e_val` for `%e`. -/
def scale (width : Nat) (f_val : D) : D × Int :=
  let negative := less f_val (ofInt 0)
  let pow := if negative ∧ width - 1 > 0 then width - 1 - 1 else width - 1
  let tmp := powerOfTen (ofInt 1) pow
  let sign := ofInt (if negative then -1 else 1)
  if less (sign * f_val) tmp then scaleUp sign tmp f_val 0
  else
    let (f_val, e_val) := scaleDown sign tmp f_val 0
    (f_val * ofInt 10, e_val - 1)

/-- The loop over the digits of the exponent. -/
def writeExponent : (ptr : Nat) → (cells : List UInt8) → (e_val : Nat) → Option (List UInt8)
  | 0, _, _ => none
  | ptr + 1, cells, e_val =>
    let cells := UInt8.ofNat (e_val % 10 + 0x30) :: cells
    if e_val / 10 = 0 then some cells else writeExponent ptr cells (e_val / 10)

/-- The block with the second `scratch`, of six cells. -/
def putExponent (e_val : Int) : Option (List UInt8) := do
  let cells ← writeExponent (6 - 1) [0] e_val.natAbs
  let text ← putString cells
  some (0x65 :: if e_val < 0 then 0x2D :: text else text)

def putExponential (long : LongSize) (directive : Directive) (f_val : D) :
    Option (List UInt8) := do
  let negative := less f_val (ofInt 0)
  let (f_val, e_val) := scale directive.width f_val
  if e_val ≤ -306 then
    let text ← putFloat long directive (ofInt 0 : D) 0
    let exponent ← putExponent 0
    some (text ++ exponent)
  else if e_val ≥ 306 then
    some (if negative then [0x2D, 0x69, 0x6E, 0x66] else [0x69, 0x6E, 0x66]) -- inf
  else
    let text ← putFloat long directive f_val (toLongLong f_val)
    let exponent ← putExponent e_val
    some (text ++ exponent)

/-- `if(f_val != f_val)` stands before both forms. -/
def putDouble (long : LongSize) (directive : Directive) (is_exp : Bool) (f_val : D) :
    Option (List UInt8) :=
  if equal f_val f_val = false then some [0x6E, 0x61, 0x6E] -- nan
  else if is_exp then putExponential long directive f_val
  else putFloat long directive f_val (toLongLong f_val)

end double

/-- The cases of the switch that lead to the number output. -/
structure NumberKind where
  base : Nat
  is_signed : Bool := false
  is_float : Bool := false
  is_exp : Bool := false

def numberKind (c : UInt8) : Option NumberKind :=
  if c = 0x6F then some { base := 8 } -- 'o'
  else if c = 0x65 then some { base := 10, is_signed := true, is_float := true, is_exp := true }
  else if c = 0x66 then some { base := 10, is_signed := true, is_float := true } -- 'f'
  else if c = 0x64 then some { base := 10, is_signed := true } -- 'd'
  else if c = 0x69 then some { base := 10 } -- 'i'
  else if c = 0x75 then some { base := 10 } -- 'u'
  else if c = 0x78 then some { base := 16 } -- 'x'
  else if c = 0x62 then some { base := 2 } -- 'b'
  else none

variable {D : Type} [DoubleArithmetic D] {long : LongSize}

/-- The output of one conversion and the arguments behind it. -/
def convert (directive : Directive) (ap : List (Arg D long)) :
    Option (List UInt8 × List (Arg D long)) :=
  if directive.c = 0x73 then -- 's'
    match ap with
    | .string ptr :: ap => (putString ptr).map (·, ap)
    | _ => none
  else
    match numberKind directive.c with
    | some kind =>
      if kind.is_float then
        match ap with
        | .double f_val :: ap => (putDouble long directive kind.is_exp f_val).map (·, ap)
        | _ => none
      else do
        let (s_val, ap) ← integerArg directive ap
        let text ← putInteger long directive kind.base kind.is_signed s_val
        some (if directive.c = 0x6F then 0x30 :: text else text, ap)
    | none =>
      if directive.c = 0x63 then -- 'c'
        match ap with
        | .int value :: ap => some ([UInt8.ofBitVec (value.setWidth 8)], ap)
        | _ => none
      else some ([directive.c], ap)

section length

variable {c c' : UInt8} {fmt fmt' : List UInt8}

theorem length_fetch (h : fetch fmt = some (c', fmt')) : fmt'.length < fmt.length := by
  cases fmt with
  | nil => simp [fetch] at h
  | cons first fmt =>
    obtain ⟨rfl, rfl⟩ : first = c' ∧ fmt = fmt' := by simpa [fetch] using h
    simp

theorem length_scanOptional {α : Type} {present : Prop} [Decidable present] {found : present → α}
    {absent value : α} (h : scanOptional present found absent c fmt = some (value, c', fmt')) :
    fmt'.length ≤ fmt.length := by
  unfold scanOptional at h
  split at h
  · obtain ⟨next, hnext, heq⟩ := Option.map_eq_some_iff.mp h
    cases heq
    exact Nat.le_of_lt (length_fetch hnext)
  · cases h
    exact Nat.le_refl _

theorem length_scanDigits {decimalPos decimalPos' : UInt8}
    (h : scanDigits decimalPos c fmt = some (decimalPos', c', fmt')) :
    fmt'.length ≤ fmt.length := by
  induction fmt generalizing decimalPos c with
  | nil =>
    rw [scanDigits] at h
    split at h
    · cases h
    · cases h
      exact Nat.le_refl _
  | cons next fmt ih =>
    rw [scanDigits] at h
    split at h
    · exact Nat.le_succ_of_le (ih h)
    · cases h
      exact Nat.le_refl _

theorem length_scanDecimalPos {decimalPos : UInt8}
    (h : scanDecimalPos c fmt = some (some (decimalPos, c', fmt'))) :
    fmt'.length ≤ fmt.length := by
  unfold scanDecimalPos at h
  split at h
  · obtain ⟨⟨first, behind⟩, hfirst, h⟩ := Option.bind_eq_some_iff.mp h
    dsimp only at h
    split at h
    · cases h
    · obtain ⟨⟨second, rest⟩, hsecond, h⟩ := Option.bind_eq_some_iff.mp h
      dsimp only at h
      split at h
      · cases h
      · obtain ⟨scanned, hscanned, heq⟩ := Option.map_eq_some_iff.mp h
        cases heq
        have hdigits := length_scanDigits hscanned
        have := length_fetch hfirst
        have := length_fetch hsecond
        omega
  · cases h
    exact Nat.le_refl _

/-- The scan behind a `%` moves on. -/
theorem length_scanDirective {directive : Directive}
    (h : scanDirective fmt = some (some (directive, fmt'))) : fmt'.length < fmt.length := by
  obtain ⟨⟨c0, fmt0⟩, hfetch, h⟩ := Option.bind_eq_some_iff.mp h
  obtain ⟨⟨fill, c1, fmt1⟩, hfill, h⟩ := Option.bind_eq_some_iff.mp h
  obtain ⟨⟨width, c2, fmt2⟩, hwidth, h⟩ := Option.bind_eq_some_iff.mp h
  obtain ⟨decimals, hdecimals, h⟩ := Option.bind_eq_some_iff.mp h
  cases decimals with
  | none => cases h
  | some decimals =>
    obtain ⟨decimalPos, c3, fmt3⟩ := decimals
    obtain ⟨⟨is_long, c4, fmt4⟩, hlong, h⟩ := Option.bind_eq_some_iff.mp h
    obtain ⟨⟨is_longlong, c5, fmt5⟩, hlonglong, h⟩ := Option.bind_eq_some_iff.mp h
    dsimp only at h
    split at h
    · cases h
      have h0 := length_fetch hfetch
      have h1 := length_scanOptional hfill
      have h2 := length_scanOptional hwidth
      have h3 := length_scanDecimalPos hdecimals
      have h4 := length_scanOptional hlong
      have h5 := length_scanOptional hlonglong
      dsimp only at *
      omega
    · cases h

end length

def vaprintf (fmt : List UInt8) (ap : List (Arg D long)) : Option (List UInt8) :=
  match fmt with
  | [] => none
  | c :: fmt =>
    if c = 0 then some []
    else if c ≠ 0x25 then (vaprintf fmt ap).map (c :: ·)
    else
      match _hscan : scanDirective fmt with
      | none => none
      | some none => some []
      | some (some (directive, rest)) => do
        let (text, ap) ← convert directive ap
        let output ← vaprintf rest ap
        some (text ++ output)
termination_by fmt.length
decreasing_by
  · exact Nat.lt_succ_self _
  · exact Nat.lt_succ_of_lt (length_scanDirective _hscan)

section vaprintf

variable {c : UInt8} {fmt rest : List UInt8} (ap : List (Arg D long))

@[simp] theorem vaprintf_terminator : vaprintf (0 :: fmt) ap = some [] := by
  rw [vaprintf, if_pos rfl]

theorem vaprintf_character (hzero : c ≠ 0) (hpercent : c ≠ 0x25) :
    vaprintf (c :: fmt) ap = (vaprintf fmt ap).map (c :: ·) := by
  rw [vaprintf, if_neg hzero, if_pos hpercent]

theorem vaprintf_bad_format (hscan : scanDirective fmt = some none) :
    vaprintf (0x25 :: fmt) ap = some [] := by
  rw [vaprintf, if_neg (by decide), if_neg (by decide)]
  split <;> simp_all

theorem vaprintf_directive {directive : Directive}
    (hscan : scanDirective fmt = some (some (directive, rest))) :
    vaprintf (0x25 :: fmt) ap = (convert directive ap).bind fun (text, ap) =>
      (vaprintf rest ap).map (text ++ ·) := by
  rw [vaprintf, if_neg (by decide), if_neg (by decide)]
  split
  · simp_all
  · simp_all
  · next found hfound =>
    rw [hscan] at hfound
    cases hfound
    cases convert directive ap with
    | none => rfl
    | some converted =>
      dsimp
      cases vaprintf rest converted.2 <;> rfl

end vaprintf

end Rodos.Print
