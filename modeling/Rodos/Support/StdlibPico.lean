import Mathlib.Algebra.Group.Nat.Defs
import Mathlib.Algebra.Ring.Int.Defs
import Mathlib.Data.Int.Notation
import Rodos.Library.Numeral

/-! `strToInt32_t` of `stdlib_pico.cpp`. The buffer is the array of the string with its terminator
as the last byte; an access beside it is `none`. -/
namespace Rodos.Support
open Library

def isspace (c : UInt8) : Bool := (c ≥ 0x09 && c ≤ 0x0D) || c == 0x20

def isdigit (c : UInt8) : Bool := c ≥ 0x30 && c ≤ 0x39

def isalpha (c : UInt8) : Bool := (c ≥ 0x61 && c ≤ 0x7A) || (c ≥ 0x41 && c ≤ 0x5A)

def isupper (c : UInt8) : Bool := c ≥ 0x41 && c ≤ 0x5A

/-- An `int32_t` that overflows wraps around. -/
def int32 (value : Int) : Int := value.bmod (2 ^ 32)

def INT32_MAX : Int := 2 ^ 31 - 1
def INT32_MIN : Int := -2 ^ 31

/-- `do { c = *s++; } while (isspace(c));` -/
def skipSpaces (buffer : List UInt8) (s : Nat) : Option (UInt8 × Nat) :=
  if h : s < buffer.length then
    if isspace buffer[s] then skipSpaces buffer (s + 1) else some (buffer[s], s + 1)
  else none
termination_by buffer.length - s

/-- What a character counts as a digit, if it is one of any base. -/
def digitOf (c : UInt8) : Option UInt8 :=
  if isdigit c then some (c - 0x30)
  else if isalpha c then some (c - (if isupper c then 0x41 - 10 else 0x61 - 10))
  else none

/-- The accumulator and `any` after one more digit. -/
def takeDigit (base cutoff cutlim : Nat) (state : Int × Int) (c : Nat) : Int × Int :=
  let (acc, any) := state
  if any < 0 ∨ acc > cutoff ∨ (acc = cutoff ∧ c > cutlim) then (acc, -1)
  else (int32 (int32 (acc * base) + c), 1)

/-- The loop over the digits; the last component is `s` behind it. -/
def takeDigits (buffer : List UInt8) (base cutoff cutlim : Nat) (c : UInt8) (s : Nat)
    (state : Int × Int) : Option ((Int × Int) × Nat) :=
  match digitOf c with
  | none => some (state, s)
  | some digit =>
    if digit.toNat ≥ base then some (state, s)
    else if h : s < buffer.length then
      takeDigits buffer base cutoff cutlim buffer[s] (s + 1)
        (takeDigit base cutoff cutlim state digit.toNat)
    else none
termination_by buffer.length - s

/-- The sign, the character behind it and `s`. -/
def takeSign (buffer : List UInt8) (c : UInt8) (s : Nat) : Option (Bool × UInt8 × Nat) :=
  if c = 0x2D then buffer[s]?.map fun c => (true, c, s + 1)
  else if c = 0x2B then buffer[s]?.map fun c => (false, c, s + 1)
  else some (false, c, s)

/-- The base, the first character of the digits and `s`. -/
def takeBase (buffer : List UInt8) (base : Nat) (c : UInt8) (s : Nat) :
    Option (Nat × UInt8 × Nat) := do
  let hasPrefix ←
    if (base = 0 ∨ base = 16) ∧ c = 0x30 then
      buffer[s]?.map fun x => decide (x = 0x78 ∨ x = 0x58)
    else some false
  if hasPrefix then
    let c ← buffer[s + 1]?
    some (16, c, s + 2)
  else if base = 0 then some (if c = 0x30 then 8 else 10, c, s)
  else some (base, c, s)

/-- The result and what `*endptr` is afterwards, as an index into the string; `endptr` may be
null. -/
def strToInt32_t (buffer : List UInt8) (endptr : Option Nat) (base : Nat) :
    Option (Int × Option Nat) := do
  let (c, s) ← skipSpaces buffer 0
  let (neg, c, s) ← takeSign buffer c s
  let (base, c, s) ← takeBase buffer base c s
  let cutoff : Nat := if neg then 2 ^ 31 else 2 ^ 31 - 1
  let cutlim := cutoff % base
  let cutoff := cutoff / base
  let ((acc, any), s) ← takeDigits buffer base cutoff cutlim c s (0, 0)
  let acc :=
    if any < 0 then if neg then INT32_MIN else INT32_MAX
    else if neg then int32 (-acc) else acc
  some (acc, endptr.map fun _ => if any ≠ 0 then s - 1 else 0)

section limits

variable {base limit : Nat}

/-- The test before a digit: the number with it would be above the limit. -/
theorem exceeds_iff (hbase : 0 < base) {acc : Int} {c : Nat} (hc : c < base) :
    (acc > (limit / base : Nat) ∨ (acc = (limit / base : Nat) ∧ c > limit % base)) ↔
      acc * base + c > limit := by
  have hsplit := Nat.div_add_mod limit base
  have hmod := Nat.mod_lt limit hbase
  generalize limit / base = cutoff at *
  generalize limit % base = cutlim at *
  have hsplit : (limit : Int) = base * cutoff + cutlim := by exact_mod_cast hsplit.symm
  rw [hsplit]
  constructor
  · rintro (habove | ⟨rfl, hlast⟩)
    · have hgap : (cutoff + 1 : Int) * base ≤ acc * base :=
        Int.mul_le_mul_of_nonneg_right habove (by omega)
      rw [Int.add_mul, Int.one_mul, Int.mul_comm (cutoff : Int)] at hgap
      omega
    · rw [Int.mul_comm]
      omega
  · intro hgreater
    by_contra hnot
    rw [not_or, not_and] at hnot
    obtain hequal | hless := Int.lt_or_eq_of_le (Int.not_lt.mp hnot.1) |>.symm
    · have hlast := hnot.2 hequal
      rw [hequal, Int.mul_comm] at hgreater
      omega
    · have hgap : acc * base ≤ (cutoff - 1 : Int) * base :=
        Int.mul_le_mul_of_nonneg_right (by omega) (by omega)
      rw [Int.sub_mul, Int.one_mul, Int.mul_comm (cutoff : Int)] at hgap
      omega

/-- Before one of the digits the accumulator, a wrapped number, shows that the limit will be
exceeded. -/
def Noticed (base limit : Nat) (digits : List Nat) : Prop :=
  ∃ (front : List Nat) (digit : Nat) (back : List Nat), digits = front ++ digit :: back ∧
    int32 (valueOf base front) * base + digit > limit

theorem noticed_concat (digits : List Nat) (digit : Nat) :
    Noticed base limit (digits ++ [digit]) ↔
      Noticed base limit digits ∨ int32 (valueOf base digits) * base + digit > limit := by
  constructor
  · rintro ⟨front, noticed, back, hsplit, habove⟩
    cases back using List.reverseRecOn with
    | nil =>
      obtain ⟨rfl, hlast⟩ := List.append_inj' hsplit rfl
      rw [List.singleton_inj.mp hlast]
      exact .inr habove
    | append_singleton back last =>
      rw [← List.cons_append, ← List.append_assoc] at hsplit
      obtain ⟨hfront, _⟩ := List.append_inj' hsplit rfl
      exact .inl ⟨front, noticed, back, hfront, habove⟩
  · rintro (⟨front, noticed, back, rfl, habove⟩ | habove)
    · exact ⟨front, noticed, back ++ [digit], by simp, habove⟩
    · exact ⟨digits, digit, [], rfl, habove⟩

theorem int32_step (value : Int) (digit : Nat) :
    int32 (int32 (int32 value * base) + digit) = int32 (value * base + digit) := by
  unfold int32
  rw [Int.bmod_mul_bmod, Int.bmod_add_bmod]

theorem takeDigit_eq (hbase : 0 < base) {digit : Nat} (hdigit : digit < base) (state : Int × Int) :
    takeDigit base (limit / base) (limit % base) state digit =
      if state.2 < 0 ∨ state.1 * base + digit > limit then (state.1, -1)
      else (int32 (int32 (state.1 * base) + digit), 1) := by
  obtain ⟨acc, any⟩ := state
  simp only [takeDigit, exceeds_iff hbase hdigit]

/-- The accumulator is the number so far, wrapped, until it is noticed that it is too big. -/
theorem foldl_takeDigit (hbase : 0 < base) {digits : List Nat}
    (hdigits : ∀ digit ∈ digits, digit < base) :
    let state := digits.foldl (takeDigit base (limit / base) (limit % base)) (0, 0)
    (state.2 < 0 ↔ Noticed base limit digits) ∧ (state.2 = 0 ↔ digits = []) ∧
      (0 ≤ state.2 → state.1 = int32 (valueOf base digits)) := by
  induction digits using List.reverseRecOn with
  | nil =>
    refine ⟨?_, by simp, fun _ => by simp [int32]⟩
    constructor
    · intro hnegative
      exact absurd hnegative (Int.lt_irrefl 0)
    · rintro ⟨front, digit, back, hsplit, -⟩
      simp at hsplit
  | append_singleton digits digit ih =>
    intro state
    have hdigit : digit < base := hdigits digit (by simp)
    obtain ⟨hnoticed, -, hacc⟩ := ih fun other hother => hdigits other (by simp [hother])
    have hstate : state = takeDigit base (limit / base) (limit % base)
        (digits.foldl (takeDigit base (limit / base) (limit % base)) (0, 0)) digit := by
      simp [state]
    rw [takeDigit_eq hbase hdigit] at hstate
    generalize digits.foldl (takeDigit base (limit / base) (limit % base)) (0, 0) = before at *
    rw [noticed_concat, ← hnoticed]
    by_cases habove : before.2 < 0 ∨ before.1 * base + digit > limit
    · rw [if_pos habove] at hstate
      rw [hstate]
      refine ⟨⟨fun _ => ?_, fun _ => by simp⟩, by simp, fun hnot => absurd hnot (by simp)⟩
      by_cases hnegative : before.2 < 0
      · exact .inl hnegative
      · rw [← hacc (by omega)]
        exact .inr (habove.resolve_left hnegative)
    · rw [if_neg habove] at hstate
      rw [not_or] at habove
      rw [hstate, ← hacc (by omega)]
      refine ⟨⟨fun hone => absurd hone (by simp), fun hor => absurd hor (by tauto)⟩, by simp,
        fun _ => ?_⟩
      dsimp only
      rw [hacc (by omega), int32_step, valueOf_concat]
      push_cast
      rfl

/-- A positive number is noticed as soon as it is above the limit. -/
theorem noticed_of_max (hbase : 0 < base) {digits : List Nat}
    (hdigits : ∀ digit ∈ digits, digit < base) :
    Noticed base (2 ^ 31 - 1) digits ↔ 2 ^ 31 - 1 < valueOf base digits := by
  induction digits using List.reverseRecOn with
  | nil =>
    refine ⟨fun ⟨front, digit, back, hsplit, _⟩ => ?_, fun habove => absurd habove (by simp)⟩
    simp at hsplit
  | append_singleton digits digit ih =>
    have hrest := ih fun other hother => hdigits other (by simp [hother])
    have hgrow := Nat.le_mul_of_pos_right (valueOf base digits) hbase
    rw [noticed_concat, hrest, valueOf_concat]
    by_cases habove : 2 ^ 31 - 1 < valueOf base digits
    · exact ⟨fun _ => by omega, fun _ => .inl habove⟩
    · have hexact : int32 (valueOf base digits) = valueOf base digits :=
        Int.bmod_eq_of_le (by omega) (by omega)
      rw [hexact, or_iff_right habove]
      constructor
      · intro hgreater
        exact_mod_cast hgreater
      · intro hgreater
        exact_mod_cast hgreater

/-- A number that is not above the limit for negative ones is never noticed. -/
theorem not_noticed_of_le (hbase : 2 ≤ base) {digits : List Nat}
    (hle : valueOf base digits ≤ 2 ^ 31) : ¬ Noticed base (2 ^ 31) digits := by
  rintro ⟨front, digit, back, rfl, habove⟩
  have hstep := valueOf_step_le (by omega : 0 < base) front back digit
  have hdouble : valueOf base front * 2 ≤ valueOf base front * base :=
    Nat.mul_le_mul_left _ hbase
  by_cases hfront : valueOf base front < 2 ^ 31
  · have hexact : int32 (valueOf base front) = valueOf base front :=
      Int.bmod_eq_of_le (by omega) (by omega)
    rw [hexact] at habove
    have hcast : valueOf base front * base + digit > 2 ^ 31 := by exact_mod_cast habove
    omega
  · omega

end limits

section scan

/-- What a character counts as a digit of any base. -/
def digitValue (c : UInt8) : Option Nat :=
  if 0x30 ≤ c.toNat ∧ c.toNat ≤ 0x39 then some (c.toNat - 0x30)
  else if 0x41 ≤ c.toNat ∧ c.toNat ≤ 0x5A then some (c.toNat - 0x41 + 10)
  else if 0x61 ≤ c.toNat ∧ c.toNat ≤ 0x7A then some (c.toNat - 0x61 + 10)
  else none

/-- The longest sequence of digits of the base at the front. -/
def leadingDigits (base : Nat) : List UInt8 → List Nat
  | [] => []
  | c :: rest =>
    match digitValue c with
    | none => []
    | some digit => if digit < base then digit :: leadingDigits base rest else []

/-- Whether a minus sign stands in front, and what stands behind the sign. -/
def behindSign (rest : List UInt8) : Bool × List UInt8 :=
  if rest.head? = some 0x2D then (true, rest.tail)
  else if rest.head? = some 0x2B then (false, rest.tail)
  else (false, rest)

/-- The base, given or found out, and what stands behind the prefix. -/
def behindPrefix (base : Nat) (rest : List UInt8) : Nat × List UInt8 :=
  if (base = 0 ∨ base = 16) ∧ rest.head? = some 0x30 ∧
      (rest.tail.head? = some 0x78 ∨ rest.tail.head? = some 0x58) then (16, rest.drop 2)
  else if base = 0 then (if rest.head? = some 0x30 then 8 else 10, rest)
  else (base, rest)

/-- What a string denotes: its digits end before the character at `stop`. -/
structure Numeral where
  negative : Bool
  base : Nat
  digits : List Nat
  stop : Nat

def Numeral.ofText (base : Nat) (text : List UInt8) : Numeral :=
  let (negative, rest) := behindSign (text.dropWhile isspace)
  let (base, rest) := behindPrefix base rest
  let digits := leadingDigits base rest
  { negative, base, digits, stop := text.length - rest.length + digits.length }

def Numeral.value (numeral : Numeral) : Int :=
  if numeral.negative then -(valueOf numeral.base numeral.digits : Int)
  else valueOf numeral.base numeral.digits

theorem digitOf_eq (c : UInt8) : (digitOf c).map UInt8.toNat = digitValue c := by
  have hall : ∀ n < 256,
      (digitOf (UInt8.ofNat n)).map UInt8.toNat = digitValue (UInt8.ofNat n) := by
    decide +kernel
  have hc := hall c.toNat c.toNat_lt
  rwa [UInt8.ofNat_toNat] at hc

theorem mem_leadingDigits {base : Nat} {rest : List UInt8} :
    ∀ digit ∈ leadingDigits base rest, digit < base := by
  induction rest with
  | nil => simp [leadingDigits]
  | cons c rest ih =>
    intro digit hdigit
    rw [leadingDigits] at hdigit
    split at hdigit
    · simp at hdigit
    · split at hdigit
      next hless =>
        obtain rfl | hmem := List.mem_cons.mp hdigit
        · exact hless
        · exact ih digit hmem
      next => simp at hdigit

variable {text rest : List UInt8}

/-- The byte some places behind the start of a suffix. -/
theorem getElem?_buffer (hsuffix : rest <:+ text) (count : Nat) :
    (text ++ [0])[text.length - rest.length + count]? = (rest ++ [0])[count]? := by
  obtain ⟨front, rfl⟩ := hsuffix
  have hstart : (front ++ rest).length - rest.length + count = front.length + count := by
    rw [List.length_append]
    omega
  rw [hstart, List.append_assoc, List.getElem?_append_right (by omega), Nat.add_sub_cancel_left]

/-- With at least one more character the pointer behind the first is at the rest. -/
theorem length_sub_tail (hsuffix : rest <:+ text) {c : UInt8} {tail : List UInt8}
    (hcons : rest = c :: tail) : text.length - rest.length + 1 = text.length - tail.length := by
  have hlength := hsuffix.length_le
  rw [hcons, List.length_cons] at hlength ⊢
  omega

/-- `c = *s++` where the rest starts: the character read and the pointer behind it. -/
theorem read_rest (hsuffix : rest <:+ text) :
    (text ++ [0])[text.length - rest.length]? = some (rest.headD 0) := by
  have hcell := getElem?_buffer hsuffix 0
  rw [Nat.add_zero] at hcell
  rw [hcell]
  cases rest <;> rfl

theorem skipSpaces_eq (hsuffix : rest <:+ text) :
    skipSpaces (text ++ [0]) (text.length - rest.length) =
      some ((rest.dropWhile isspace).headD 0,
        text.length - (rest.dropWhile isspace).length + 1) := by
  induction rest with
  | nil =>
    obtain ⟨hbuffer, hcell⟩ := List.getElem?_eq_some_iff.mp (read_rest hsuffix)
    rw [skipSpaces, dif_pos hbuffer, hcell]
    rfl
  | cons c rest ih =>
    obtain ⟨hbuffer, hcell⟩ := List.getElem?_eq_some_iff.mp (read_rest hsuffix)
    rw [skipSpaces, dif_pos hbuffer, hcell, List.headD_cons, List.dropWhile_cons]
    cases hspace : isspace c with
    | true =>
      rw [if_pos rfl, if_pos rfl, length_sub_tail hsuffix rfl]
      exact ih ((List.suffix_cons c rest).trans hsuffix)
    | false => rfl

theorem takeDigits_eq {base cutoff cutlim : Nat} (hsuffix : rest <:+ text) (state : Int × Int) :
    takeDigits (text ++ [0]) base cutoff cutlim (rest.headD 0) (text.length - rest.length + 1)
        state =
      some ((leadingDigits base rest).foldl (takeDigit base cutoff cutlim) state,
        text.length - rest.length + (leadingDigits base rest).length + 1) := by
  induction rest generalizing state with
  | nil =>
    have hnone : digitOf 0 = none := by decide
    rw [takeDigits, List.headD_nil, hnone]
    rfl
  | cons c rest ih =>
    have htail := (List.suffix_cons c rest).trans hsuffix
    obtain ⟨hbuffer, hcell⟩ := List.getElem?_eq_some_iff.mp (read_rest htail)
    have hdigit := digitOf_eq c
    rw [takeDigits, List.headD_cons, leadingDigits, ← hdigit]
    cases digitOf c with
    | none => rfl
    | some digit =>
      simp only [Option.map_some]
      by_cases hless : digit.toNat < base
      · have hnext := length_sub_tail hsuffix rfl
        rw [if_neg (by omega), if_pos hless, hnext, dif_pos hbuffer, hcell, ih htail,
          List.foldl_cons]
        congr 2
        simp only [List.length_cons] at hnext ⊢
        omega
      · rw [if_pos (by omega), if_neg hless]
        rfl

theorem takeSign_eq (hsuffix : rest <:+ text) :
    takeSign (text ++ [0]) (rest.headD 0) (text.length - rest.length + 1) =
        some ((behindSign rest).1, (behindSign rest).2.headD 0,
          text.length - (behindSign rest).2.length + 1) ∧ (behindSign rest).2 <:+ text := by
  cases rest with
  | nil => exact ⟨rfl, hsuffix⟩
  | cons c rest =>
    have htail := (List.suffix_cons c rest).trans hsuffix
    have hread := read_rest htail
    rw [takeSign, behindSign, List.headD_cons, List.head?_cons]
    by_cases hminus : c = 0x2D
    · rw [if_pos hminus, if_pos (congrArg some hminus), length_sub_tail hsuffix rfl, hread]
      exact ⟨rfl, htail⟩
    · rw [if_neg hminus, if_neg (mt Option.some.inj hminus)]
      by_cases hplus : c = 0x2B
      · rw [if_pos hplus, if_pos (congrArg some hplus), length_sub_tail hsuffix rfl, hread]
        exact ⟨rfl, htail⟩
      · rw [if_neg hplus, if_neg (mt Option.some.inj hplus)]
        exact ⟨rfl, hsuffix⟩

theorem headD_eq_iff (rest : List UInt8) {c : UInt8} (hc : c ≠ 0) :
    rest.headD 0 = c ↔ rest.head? = some c := by
  cases rest with
  | nil => simp [hc.symm]
  | cons x rest => simp

/-- What the base and the digits behind it have to be. -/
def BaseTaken (text : List UInt8) (base : Nat) (rest : List UInt8) : Prop :=
  takeBase (text ++ [0]) base (rest.headD 0) (text.length - rest.length + 1) =
      some ((behindPrefix base rest).1, (behindPrefix base rest).2.headD 0,
        text.length - (behindPrefix base rest).2.length + 1) ∧
    (behindPrefix base rest).2 <:+ text

theorem takeBase_hex {x : UInt8} (hsuffix : 0x30 :: x :: rest <:+ text)
    (hbase : base = 0 ∨ base = 16) (hletter : x = 0x78 ∨ x = 0x58) :
    BaseTaken text base (0x30 :: x :: rest) := by
  have htail := (List.suffix_cons _ (x :: rest)).trans hsuffix
  have hrest := (List.suffix_cons x rest).trans htail
  have hread := read_rest htail
  have hbehind := read_rest hrest
  have hnext := length_sub_tail hsuffix rfl
  have hthird := length_sub_tail htail rfl
  have hhex : behindPrefix base (0x30 :: x :: rest) = (16, rest) := by
    rw [behindPrefix, if_pos ⟨hbase, rfl, by simpa using hletter⟩]
    rfl
  rw [BaseTaken, hhex, hnext]
  refine ⟨?_, hrest⟩
  rw [List.headD_cons] at hread
  have hlast : text.length - (x :: rest).length + 2 = text.length - rest.length + 1 := by
    omega
  rw [takeBase, List.headD_cons, if_pos ⟨hbase, rfl⟩, hread, hthird, hbehind, hlast]
  simp [hletter]

/-- A zero without the letter behind it is a digit. -/
theorem takeBase_zero (hsuffix : 0x30 :: rest <:+ text) (hbase : base = 0 ∨ base = 16)
    (hx : ¬ (rest.head? = some 0x78 ∨ rest.head? = some 0x58)) :
    BaseTaken text base (0x30 :: rest) := by
  have hread := read_rest ((List.suffix_cons _ rest).trans hsuffix)
  have hno : decide (rest.headD 0 = 0x78 ∨ rest.headD 0 = 0x58) = false := by
    apply decide_eq_false
    rw [headD_eq_iff _ (by decide), headD_eq_iff _ (by decide)]
    exact hx
  have hplain : behindPrefix base (0x30 :: rest) =
      (if base = 0 then 8 else base, 0x30 :: rest) := by
    rw [behindPrefix, if_neg (fun hall => hx hall.2.2)]
    split <;> rfl
  rw [BaseTaken, hplain]
  refine ⟨?_, hsuffix⟩
  rw [length_sub_tail hsuffix rfl, takeBase, List.headD_cons, if_pos ⟨hbase, rfl⟩, hread,
    Option.map_some, hno]
  obtain rfl | rfl := hbase <;> rfl

theorem takeBase_eq (hsuffix : rest <:+ text) (base : Nat) : BaseTaken text base rest := by
  have hhead := headD_eq_iff rest (by decide : (0x30 : UInt8) ≠ 0)
  by_cases hzero : (base = 0 ∨ base = 16) ∧ rest.head? = some 0x30
  · obtain ⟨hbase, hfirst⟩ := hzero
    obtain ⟨rest, rfl⟩ : ∃ tail, rest = 0x30 :: tail := List.head?_eq_some_iff.mp hfirst
    by_cases hx : rest.head? = some 0x78 ∨ rest.head? = some 0x58
    · cases rest with
      | nil => simp at hx
      | cons x rest => exact takeBase_hex hsuffix hbase (by simpa using hx)
    · exact takeBase_zero hsuffix hbase hx
  · have hplain : behindPrefix base rest =
        (if base = 0 then (if rest.head? = some 0x30 then 8 else 10) else base, rest) := by
      rw [behindPrefix, if_neg (fun hall => hzero ⟨hall.1, hall.2.1⟩)]
      split <;> rfl
    rw [BaseTaken, hplain]
    refine ⟨?_, hsuffix⟩
    rw [← hhead] at hzero
    rw [takeBase, if_neg hzero]
    by_cases hbase : base = 0 <;> simp [hbase, ← hhead]

/-- The digits that are read are those of the numeral. -/
theorem strToInt32_t_eq (text : List UInt8) (endptr : Option Nat) (base : Nat) :
    let numeral := Numeral.ofText base text
    let limit : Nat := if numeral.negative then 2 ^ 31 else 2 ^ 31 - 1
    let state := numeral.digits.foldl
      (takeDigit numeral.base (limit / numeral.base) (limit % numeral.base)) (0, 0)
    strToInt32_t (text ++ [0]) endptr base =
      some (if state.2 < 0 then if numeral.negative then INT32_MIN else INT32_MAX
          else if numeral.negative then int32 (-state.1) else state.1,
        endptr.map fun _ => if state.2 ≠ 0 then numeral.stop else 0) := by
  have hspaces := skipSpaces_eq (List.suffix_refl text)
  rw [Nat.sub_self] at hspaces
  obtain ⟨hsign, hsigned⟩ := takeSign_eq (text.dropWhile_suffix isspace)
  obtain ⟨hbase, hbased⟩ := takeBase_eq hsigned base
  have hdigits (cutoff cutlim : Nat) := @takeDigits_eq _ _
    (behindPrefix base (behindSign (text.dropWhile isspace)).2).1 cutoff cutlim hbased (0, 0)
  simp only [strToInt32_t, hspaces, hsign, hbase, hdigits, Option.bind_eq_bind, Option.bind_some,
    Numeral.ofText, Nat.add_sub_cancel]
  rfl

end scan

section clamp

def clamp (value : Int) : Int := max INT32_MIN (min INT32_MAX value)

variable {base : Nat} {digits : List Nat}

theorem positive_result (hbase : 2 ≤ base) (hdigits : ∀ digit ∈ digits, digit < base) :
    let state := digits.foldl
      (takeDigit base ((2 ^ 31 - 1) / base) ((2 ^ 31 - 1) % base)) (0, 0)
    (if state.2 < 0 then INT32_MAX else state.1) = clamp (valueOf base digits) := by
  intro state
  obtain ⟨hnoticed, -, hacc⟩ := @foldl_takeDigit base (2 ^ 31 - 1) (by omega) digits hdigits
  rw [noticed_of_max (by omega) hdigits] at hnoticed
  unfold clamp INT32_MIN INT32_MAX
  by_cases habove : state.2 < 0
  · have hbig := hnoticed.mp habove
    rw [if_pos habove]
    omega
  · have hle := mt hnoticed.mpr habove
    rw [if_neg habove, hacc (Int.not_lt.mp habove), int32,
      Int.bmod_eq_of_le (by omega) (by omega)]
    omega

/-- Negating the smallest number overflows again. -/
theorem int32_neg (value : Int) :
    int32 (-int32 value) = if int32 value = INT32_MIN then INT32_MIN else -int32 value := by
  have hlow : -2 ^ 31 ≤ int32 value := Int.le_bmod (by decide)
  have hhigh : int32 value < 2 ^ 31 := Int.bmod_lt (by decide)
  split
  next hmin => rw [hmin]; decide
  next hmin =>
    rw [INT32_MIN] at hmin
    exact Int.bmod_eq_of_le (by omega) (by omega)

/-- The wrapped accumulator, negated, against the number it stands for. -/
theorem int32_neg_eq_clamp_iff (number : Nat) :
    int32 (-int32 number) = clamp (-(number : Int)) ↔
      number ≤ 2 ^ 31 ∨ int32 number = INT32_MIN := by
  have hhigh : int32 number < 2 ^ 31 := Int.bmod_lt (by decide)
  rw [int32_neg]
  unfold clamp INT32_MIN INT32_MAX
  by_cases hless : number < 2 ^ 31
  · have hexact : int32 number = number := Int.bmod_eq_of_le (by omega) (by omega)
    rw [hexact, if_neg (by omega)]
    omega
  · by_cases heq : number = 2 ^ 31
    · have hmin : int32 number = -2 ^ 31 := by
        rw [heq]
        decide
      rw [if_pos hmin]
      omega
    · by_cases hmin : int32 number = -2 ^ 31
      · rw [if_pos hmin]
        exact ⟨fun _ => .inr hmin, fun _ => by omega⟩
      · rw [if_neg hmin]
        constructor
        · intro hclamped
          omega
        · rintro (hle | hmin')
          · omega
          · exact absurd hmin' hmin

/-- What a negative number gives is right unless it is too big and this goes unnoticed. -/
theorem negative_result_iff (hbase : 2 ≤ base) (hdigits : ∀ digit ∈ digits, digit < base) :
    let state := digits.foldl (takeDigit base (2 ^ 31 / base) (2 ^ 31 % base)) (0, 0)
    (if state.2 < 0 then INT32_MIN else int32 (-state.1)) = clamp (-(valueOf base digits : Int)) ↔
      valueOf base digits ≤ 2 ^ 31 ∨ Noticed base (2 ^ 31) digits ∨
        int32 (valueOf base digits) = INT32_MIN := by
  intro state
  obtain ⟨hnoticed, -, hacc⟩ := @foldl_takeDigit base (2 ^ 31) (by omega) digits hdigits
  have hsmall := @not_noticed_of_le base hbase digits
  rw [← hnoticed] at hsmall ⊢
  change (if state.2 < 0 then INT32_MIN else int32 (-state.1)) = _ ↔
    _ ∨ state.2 < 0 ∨ int32 (valueOf base digits) = INT32_MIN
  by_cases habove : state.2 < 0
  · have hbig : 2 ^ 31 < valueOf base digits := by
      by_contra hle
      exact hsmall (Nat.not_lt.mp hle) habove
    rw [if_pos habove]
    refine ⟨fun _ => .inr (.inl habove), fun _ => ?_⟩
    unfold clamp INT32_MIN INT32_MAX
    omega
  · rw [if_neg habove, hacc (Int.not_lt.mp habove), int32_neg_eq_clamp_iff]
    simp only [habove, false_or]

end clamp

theorem two_le_behindPrefix {base : Nat} (hbase : base = 0 ∨ 2 ≤ base) (rest : List UInt8) :
    2 ≤ (behindPrefix base rest).1 := by
  unfold behindPrefix
  split
  · exact (by decide : 2 ≤ 16)
  · split
    · dsimp only
      split <;> decide
    · exact hbase.resolve_left ‹_›

/-- The result by sign, and the end pointer. -/
theorem strToInt32_t_numeral {text : List UInt8} (endptr : Option Nat) {base : Nat}
    {numeral : Numeral} (hnumeral : Numeral.ofText base text = numeral) (htwo : 2 ≤ numeral.base)
    (hdigits : ∀ digit ∈ numeral.digits, digit < numeral.base) :
    strToInt32_t (text ++ [0]) endptr base =
      some (if numeral.negative then
          let state := numeral.digits.foldl
            (takeDigit numeral.base (2 ^ 31 / numeral.base) (2 ^ 31 % numeral.base)) (0, 0)
          if state.2 < 0 then INT32_MIN else int32 (-state.1)
        else clamp (valueOf numeral.base numeral.digits),
        endptr.map fun _ => if numeral.digits = [] then 0 else numeral.stop) := by
  have hresult := strToInt32_t_eq text endptr base
  have hempty := (@foldl_takeDigit numeral.base (if numeral.negative then 2 ^ 31 else 2 ^ 31 - 1)
    (by omega) numeral.digits hdigits).2.1
  simp only [hnumeral, ne_eq, hempty, ite_not] at hresult
  rw [hresult]
  cases numeral.negative with
  | true => rfl
  | false => exact congrArg (fun acc => some (acc, _)) (positive_result htwo hdigits)

/-- The end pointer is right for every string. The result is the clamped value, except for a
negative number beyond the range that the accumulator wraps around for without being noticed. -/
theorem strToInt32_t_exact_iff (text : List UInt8) (endptr : Option Nat) {base : Nat}
    (hbase : base = 0 ∨ 2 ≤ base ∧ base ≤ 36) :
    let numeral := Numeral.ofText base text
    let pointer := endptr.map fun _ => if numeral.digits = [] then 0 else numeral.stop
    (∃ result, strToInt32_t (text ++ [0]) endptr base = some (result, pointer)) ∧
      (strToInt32_t (text ++ [0]) endptr base = some (clamp numeral.value, pointer) ↔
        numeral.negative = false ∨ valueOf numeral.base numeral.digits ≤ 2 ^ 31 ∨
          Noticed numeral.base (2 ^ 31) numeral.digits ∨
          int32 (valueOf numeral.base numeral.digits) = INT32_MIN) := by
  intro numeral pointer
  have htwo : 2 ≤ numeral.base := two_le_behindPrefix (hbase.imp_right And.left) _
  have hdigits : ∀ digit ∈ numeral.digits, digit < numeral.base := mem_leadingDigits
  have hresult := @strToInt32_t_numeral text endptr base numeral rfl htwo hdigits
  refine ⟨⟨_, hresult⟩, ?_⟩
  rw [hresult, Option.some.injEq, Prod.mk.injEq, and_iff_left rfl, Numeral.value]
  cases numeral.negative with
  | true =>
    rw [if_pos rfl, if_pos rfl, or_iff_right Bool.true_eq_false.mp]
    exact negative_result_iff htwo hdigits
  | false =>
    rw [if_neg Bool.false_ne_true, if_neg Bool.false_ne_true]
    exact ⟨fun _ => .inl rfl, fun _ => rfl⟩

/-- "-2147483649" in base 10 is noticed. -/
theorem strToInt32_t_exact_iff_clamped :
    strToInt32_t ([0x2D, 0x32, 0x31, 0x34, 0x37, 0x34, 0x38, 0x33, 0x36, 0x34, 0x39] ++ [0])
        none 10 =
      some (INT32_MIN, none) := by
  have hall := strToInt32_t_exact_iff
    [0x2D, 0x32, 0x31, 0x34, 0x37, 0x34, 0x38, 0x33, 0x36, 0x34, 0x39] none
    (by decide : 10 = 0 ∨ 2 ≤ 10 ∧ 10 ≤ 36)
  exact hall.2.mpr (.inr (.inr (.inl ⟨[2, 1, 4, 7, 4, 8, 3, 6, 4], 9, [], by decide, by decide⟩)))

/-- "-21474836480" in base 10 gives 0. -/
theorem strToInt32_t_wraps :
    strToInt32_t ([0x2D, 0x32, 0x31, 0x34, 0x37, 0x34, 0x38, 0x33, 0x36, 0x34, 0x38, 0x30] ++ [0])
        (some 0) 10 = some (0, some 12) ∧
      clamp (Numeral.ofText 10
        [0x2D, 0x32, 0x31, 0x34, 0x37, 0x34, 0x38, 0x33, 0x36, 0x34, 0x38, 0x30]).value =
        INT32_MIN := by
  constructor
  · rw [strToInt32_t_eq]
    decide
  · decide

end Rodos.Support
