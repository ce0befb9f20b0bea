import Rodos.Print.Yprintf

/-! The scan of a format: it ends at the terminator at the latest, and behind a `%` it finds what a
specifier spells. -/
namespace Rodos.Print

/-- A string with its terminator, which is the first zero and the last byte of the array. -/
def Terminated (fmt : List UInt8) : Prop := ∃ text, 0 ∉ text ∧ fmt = text ++ [0]

section terminated

variable {c : UInt8} {fmt : List UInt8}

theorem terminated_cons_iff :
    Terminated (c :: fmt) ↔ (c = 0 ∧ fmt = []) ∨ (c ≠ 0 ∧ Terminated fmt) := by
  constructor
  · rintro ⟨text, hnonzero, heq⟩
    cases text with
    | nil => exact .inl (by simpa using heq)
    | cons first text =>
      obtain ⟨rfl, rfl⟩ := List.cons.inj heq
      rw [List.mem_cons, not_or] at hnonzero
      exact .inr ⟨Ne.symm hnonzero.1, text, hnonzero.2, rfl⟩
  · rintro (⟨rfl, rfl⟩ | ⟨hc, text, hnonzero, rfl⟩)
    · exact ⟨[], List.not_mem_nil, rfl⟩
    · refine ⟨c :: text, ?_, rfl⟩
      rw [List.mem_cons, not_or]
      exact ⟨Ne.symm hc, hnonzero⟩

theorem not_terminated_nil : ¬Terminated [] := by
  rintro ⟨text, _, heq⟩
  simp at heq

theorem Terminated.tail (h : Terminated (c :: fmt)) (hc : c ≠ 0) : Terminated fmt := by
  obtain ⟨hzero, _⟩ | ⟨_, hrest⟩ := terminated_cons_iff.mp h
  · exact absurd hzero hc
  · exact hrest

theorem Terminated.fetch (h : Terminated fmt) :
    ∃ c rest, fetch fmt = some (c, rest) ∧ Terminated (c :: rest) := by
  cases fmt with
  | nil => exact absurd h not_terminated_nil
  | cons c rest => exact ⟨c, rest, rfl, h⟩

/-- A test that the terminator does not pass keeps the scan in front of it. -/
theorem Terminated.scanOptional {α : Type} {present : Prop} [Decidable present]
    {found : present → α} {absent : α} (h : Terminated (c :: fmt)) (hpresent : present → c ≠ 0) :
    ∃ value c' rest, scanOptional present found absent c fmt = some (value, c', rest) ∧
      Terminated (c' :: rest) := by
  unfold Print.scanOptional
  split
  · next hfound =>
    obtain ⟨c', rest, hfetch, hrest⟩ := (h.tail (hpresent hfound)).fetch
    exact ⟨found hfound, c', rest, by rw [hfetch]; rfl, hrest⟩
  · exact ⟨absent, c, fmt, rfl, h⟩

theorem IsDigit.ne_zero (h : IsDigit c) : c ≠ 0 := by
  rintro rfl
  exact absurd h (by decide)

theorem Terminated.scanDigits {decimalPos : UInt8} (h : Terminated (c :: fmt)) :
    ∃ value c' rest, scanDigits decimalPos c fmt = some (value, c', rest) ∧
      Terminated (c' :: rest) := by
  induction fmt generalizing decimalPos c with
  | nil =>
    have hc : ¬IsDigit c := fun hdigit => not_terminated_nil (h.tail hdigit.ne_zero)
    exact ⟨decimalPos, c, [], by rw [Print.scanDigits, if_neg hc], h⟩
  | cons next fmt ih =>
    rw [Print.scanDigits]
    split
    · next hdigit => exact ih (h.tail hdigit.ne_zero)
    · exact ⟨decimalPos, c, next :: fmt, rfl, h⟩

theorem Terminated.scanDecimalPos (h : Terminated (c :: fmt)) :
    scanDecimalPos c fmt = some none ∨
      ∃ value c' rest, scanDecimalPos c fmt = some (some (value, c', rest)) ∧
        Terminated (c' :: rest) := by
  unfold Print.scanDecimalPos
  split
  · next hpoint =>
    obtain ⟨first, behind, hfirst, hbehind⟩ := (h.tail (by simp [hpoint])).fetch
    rw [hfirst, Option.bind_eq_bind, Option.bind_some]
    dsimp only
    split
    · exact .inl rfl
    · next hne =>
      obtain ⟨second, rest, hsecond, hrest⟩ := (hbehind.tail hne).fetch
      rw [hsecond, Option.bind_some]
      dsimp only
      split
      · exact .inl rfl
      · obtain ⟨value, c', rest, hdigits, hscanned⟩ :=
          @Terminated.scanDigits second rest (first - 0x30) hrest
        exact .inr ⟨value, c', rest, by rw [hdigits]; rfl, hscanned⟩
  · exact .inr ⟨3, c, fmt, rfl, h⟩

/-- Behind a `%` the scan reads no byte behind the terminator. -/
theorem Terminated.scanDirective (h : Terminated fmt) :
    scanDirective fmt = some none ∨
      ∃ directive rest, scanDirective fmt = some (some (directive, rest)) ∧ Terminated rest := by
  obtain ⟨c0, fmt0, hfetch, h0⟩ := h.fetch
  obtain ⟨fill, c1, fmt1, hfill, h1⟩ :
      ∃ fill c1 fmt1, scanFill c0 fmt0 = some (fill, c1, fmt1) ∧ Terminated (c1 :: fmt1) :=
    h0.scanOptional (by rintro rfl; decide)
  obtain ⟨width, c2, fmt2, hwidth, h2⟩ :
      ∃ width c2 fmt2, scanWidth c1 fmt1 = some (width, c2, fmt2) ∧ Terminated (c2 :: fmt2) :=
    h1.scanOptional IsDigit.ne_zero
  obtain hbad | ⟨decimalPos, c3, fmt3, hdecimals, h3⟩ := h2.scanDecimalPos
  · exact .inl (by simp [Print.scanDirective, hfetch, hfill, hwidth, hbad])
  · obtain ⟨is_long, c4, fmt4, hlong, h4⟩ :
        ∃ is_long c4 fmt4, scanLong c3 fmt3 = some (is_long, c4, fmt4) ∧
          Terminated (c4 :: fmt4) :=
      h3.scanOptional (by rintro rfl; decide)
    obtain ⟨is_longlong, c, rest, hlonglong, hrest⟩ :
        ∃ is_longlong c rest, scanLong c4 fmt4 = some (is_longlong, c, rest) ∧
          Terminated (c :: rest) :=
      h4.scanOptional (by rintro rfl; decide)
    by_cases hc : c = 0
    · exact .inl (by
        simp [Print.scanDirective, hfetch, hfill, hwidth, hdecimals, hlong, hlonglong, hc])
    · refine .inr ⟨{ fill, width, decimalPos, is_long, is_longlong, c, nonzero := hc }, rest, ?_,
        hrest.tail hc⟩
      simp [Print.scanDirective, hfetch, hfill, hwidth, hdecimals, hlong, hlonglong, hc]

end terminated

inductive IntegerConversion
  | o
  | d
  | i
  | u
  | x
  | b
  deriving DecidableEq

def IntegerConversion.char : IntegerConversion → UInt8
  | o => 0x6F
  | d => 0x64
  | i => 0x69
  | u => 0x75
  | x => 0x78
  | b => 0x62

theorem IntegerConversion.char_plain (conversion : IntegerConversion) :
    ¬IsDigit conversion.char ∧ conversion.char ≠ 0x2E ∧ conversion.char ≠ 0x6C ∧
      conversion.char ≠ 0 := by
  cases conversion <;> decide

/-- No, one or two `l`. -/
inductive IntegerSize
  | int
  | long
  | longLong
  deriving DecidableEq

namespace IntegerSize

def is_long : IntegerSize → Bool
  | int => false
  | long | longLong => true

def is_longlong : IntegerSize → Bool
  | int | long => false
  | longLong => true

def bits (long : LongSize) : IntegerSize → Nat
  | int => 32
  | .long => long.bits
  | longLong => 64

def arg {D : Type} {long : LongSize} (size : IntegerSize) (value : BitVec (size.bits long)) :
    Arg D long :=
  match size with
  | int => .int value
  | .long => .long value
  | longLong => .longLong value

end IntegerSize

def digit (value : Fin 10) : UInt8 := UInt8.ofNat (value.val + 0x30)

theorem isDigit_digit (value : Fin 10) : IsDigit (digit value) := by
  revert value
  decide

/-- What stands behind the point: any character, then digits. -/
structure Precision where
  first : UInt8
  digits : List (Fin 10)
  nonzero : first ≠ 0

def Precision.text (precision : Precision) : List UInt8 :=
  0x2E :: precision.first :: precision.digits.map digit

def Precision.decimalPos (precision : Precision) : UInt8 :=
  precision.digits.foldl (fun decimalPos value => decimalPos * 10 + (digit value - 0x30))
    (precision.first - 0x30)

/-- A conversion of an integer as it is spelled in a format. -/
structure Specifier where
  zero : Bool := false
  width : Option (Fin 10) := none
  precision : Option Precision := none
  size : IntegerSize := .int
  conversion : IntegerConversion
  /-- A zero in front is the fill and not a width. -/
  canonical : zero = false → width ≠ some 0 := by decide

namespace Specifier

/-- What stands behind the `%`. -/
def spelling (specifier : Specifier) : List UInt8 :=
  (if specifier.zero then [0x30] else []) ++
    ((specifier.width.map digit).toList ++
      ((specifier.precision.map Precision.text).getD [] ++
        ((if specifier.size.is_long then [0x6C] else []) ++
          ((if specifier.size.is_longlong then [0x6C] else []) ++ [specifier.conversion.char]))))

def text (specifier : Specifier) : List UInt8 := 0x25 :: specifier.spelling

def directive (specifier : Specifier) : Directive where
  fill := if specifier.zero then .zero else .space
  width := specifier.width.getD noWidth
  decimalPos := (specifier.precision.map Precision.decimalPos).getD 3
  is_long := specifier.size.is_long
  is_longlong := specifier.size.is_longlong
  c := specifier.conversion.char
  nonzero := specifier.conversion.char_plain.2.2.2

end Specifier

section spelled

variable {c c' : UInt8} {fmt fmt' : List UInt8}

theorem scanFill_spelled (zero : Bool) (hnext : zero = false → c' ≠ 0x30)
    (h : c :: fmt = (if zero then [0x30] else []) ++ c' :: fmt') :
    scanFill c fmt = some (if zero then .zero else .space, c', fmt') := by
  cases zero with
  | false =>
    obtain ⟨rfl, rfl⟩ := List.cons.inj h
    exact dif_neg (hnext rfl)
  | true =>
    obtain ⟨rfl, rfl⟩ := List.cons.inj h
    rfl

theorem digit_sub_toNat (value : Fin 10) : (digit value - 0x30).toNat = value.val := by
  revert value
  decide

theorem scanWidth_spelled (width : Option (Fin 10)) (hnext : ¬IsDigit c')
    (h : c :: fmt = (width.map digit).toList ++ c' :: fmt') :
    scanWidth c fmt = some (width.getD noWidth, c', fmt') := by
  cases width with
  | none =>
    obtain ⟨rfl, rfl⟩ := List.cons.inj h
    exact dif_neg hnext
  | some value =>
    obtain ⟨rfl, rfl⟩ := List.cons.inj h
    simp [scanWidth, scanOptional, isDigit_digit, fetch, digit_sub_toNat]

theorem scanDigits_spelled (digits : List (Fin 10)) {decimalPos : UInt8} (hnext : ¬IsDigit c')
    (h : c :: fmt = digits.map digit ++ c' :: fmt') :
    scanDigits decimalPos c fmt =
      some (digits.foldl (fun decimalPos value => decimalPos * 10 + (digit value - 0x30))
        decimalPos, c', fmt') := by
  induction digits generalizing c fmt decimalPos with
  | nil =>
    obtain ⟨rfl, rfl⟩ := List.cons.inj h
    cases fmt <;> exact if_neg hnext
  | cons value digits ih =>
    obtain ⟨rfl, rfl⟩ := List.cons.inj h
    obtain ⟨next, rest, hrest⟩ :
        ∃ next rest, digits.map digit ++ c' :: fmt' = next :: rest :=
      List.exists_cons_of_ne_nil (by simp)
    rw [List.append_eq, hrest, scanDigits, if_pos (isDigit_digit value), ih hrest.symm]
    rfl

theorem scanDecimalPos_spelled (precision : Option Precision) (hnext : ¬IsDigit c')
    (hpoint : c' ≠ 0x2E) (hzero : c' ≠ 0)
    (h : c :: fmt = (precision.map Precision.text).getD [] ++ c' :: fmt') :
    scanDecimalPos c fmt =
      some (some ((precision.map Precision.decimalPos).getD 3, c', fmt')) := by
  cases precision with
  | none =>
    obtain ⟨rfl, rfl⟩ := List.cons.inj h
    exact if_neg hpoint
  | some precision =>
    obtain ⟨rfl, rfl⟩ := List.cons.inj h
    obtain ⟨next, rest, hrest⟩ :
        ∃ next rest, precision.digits.map digit ++ c' :: fmt' = next :: rest :=
      List.exists_cons_of_ne_nil (by simp)
    have hne : next ≠ 0 := by
      cases hdigits : precision.digits with
      | nil =>
        rw [hdigits] at hrest
        obtain ⟨rfl, _⟩ := List.cons.inj hrest
        exact hzero
      | cons value digits =>
        rw [hdigits] at hrest
        obtain ⟨rfl, _⟩ := List.cons.inj hrest
        exact (isDigit_digit value).ne_zero
    have hscan := @scanDigits_spelled next c' rest fmt' precision.digits (precision.first - 0x30)
      hnext hrest.symm
    simp [scanDecimalPos, fetch, precision.nonzero, hrest, hne, hscan, Precision.decimalPos]

theorem scanLong_spelled (is_long : Bool) (hnext : is_long = false → c' ≠ 0x6C)
    (h : c :: fmt = (if is_long then [0x6C] else []) ++ c' :: fmt') :
    scanLong c fmt = some (is_long, c', fmt') := by
  cases is_long with
  | false =>
    obtain ⟨rfl, rfl⟩ := List.cons.inj h
    exact dif_neg (hnext rfl)
  | true =>
    obtain ⟨rfl, rfl⟩ := List.cons.inj h
    rfl

/-- What is known of every character that can come first is known of the first one. -/
theorem exists_first (front : List UInt8) (accepted : UInt8 → Prop)
    (hfront : ∀ first ∈ front.head?, accepted first) (hc : accepted c) :
    ∃ first rest, first :: rest = front ++ c :: fmt ∧ accepted first := by
  cases front with
  | nil => exact ⟨c, fmt, rfl, hc⟩
  | cons first front => exact ⟨first, front ++ c :: fmt, rfl, hfront first rfl⟩

end spelled

theorem digit_ne_zero {value : Fin 10} : value ≠ 0 → digit value ≠ 0x30 := by
  revert value
  decide

theorem IntegerSize.is_longlong_of_not (size : IntegerSize) (h : size.is_long = false) :
    size.is_longlong = false := by
  cases size <;> trivial

theorem letter_of_mem_head {flag : Bool} {first letter : UInt8}
    (h : first ∈ (if flag then [letter] else []).head?) : flag = true ∧ first = letter := by
  cases flag with
  | false => cases h
  | true => exact ⟨rfl, (Option.some.inj h).symm⟩

theorem point_of_mem_head {precision : Option Precision} {first : UInt8}
    (h : first ∈ ((precision.map Precision.text).getD []).head?) : first = 0x2E := by
  cases precision with
  | none => cases h
  | some precision => exact (Option.some.inj h).symm

theorem ne_zero_of_mem_head {width : Option (Fin 10)} {first : UInt8}
    (h : first ∈ (width.map digit).toList.head?) (hwidth : width ≠ some 0) : first ≠ 0x30 := by
  cases width with
  | none => cases h
  | some value =>
    obtain rfl : digit value = first := Option.some.inj h
    exact digit_ne_zero (fun hvalue => hwidth (congrArg some hvalue))

/-- The scan finds what a specifier spells. -/
theorem Specifier.scanDirective_spelling (specifier : Specifier) (rest : List UInt8) :
    scanDirective (specifier.spelling ++ rest) = some (some (specifier.directive, rest)) := by
  obtain ⟨hdigit, hpoint, hletter, hzero⟩ := specifier.conversion.char_plain
  -- from the last character on, what each stage of the scan finds first
  obtain ⟨c4, fmt4, h4, hfirst4⟩ := @exists_first specifier.conversion.char rest
    (if specifier.size.is_longlong then [0x6C] else [])
    (fun c => (¬IsDigit c ∧ c ≠ 0x2E ∧ c ≠ 0) ∧ (specifier.size.is_long = false → c ≠ 0x6C))
    (by
      intro first hfirst
      obtain ⟨hflag, rfl⟩ := letter_of_mem_head hfirst
      refine ⟨by decide, fun hlong => ?_⟩
      rw [specifier.size.is_longlong_of_not hlong] at hflag
      contradiction)
    ⟨⟨hdigit, hpoint, hzero⟩, fun _ => hletter⟩
  obtain ⟨c3, fmt3, h3, hfirst3⟩ := @exists_first c4 fmt4
    (if specifier.size.is_long then [0x6C] else []) (fun c => ¬IsDigit c ∧ c ≠ 0x2E ∧ c ≠ 0)
    (by
      intro first hfirst
      obtain ⟨_, rfl⟩ := letter_of_mem_head hfirst
      decide)
    hfirst4.1
  obtain ⟨c2, fmt2, h2, hfirst2⟩ := @exists_first c3 fmt3
    ((specifier.precision.map Precision.text).getD []) (fun c => ¬IsDigit c)
    (by
      intro first hfirst
      rw [point_of_mem_head hfirst]
      decide)
    hfirst3.1
  obtain ⟨c1, fmt1, h1, hfirst1⟩ := @exists_first c2 fmt2 (specifier.width.map digit).toList
    (fun c => specifier.zero = false → c ≠ 0x30)
    (fun first hfirst hflag => ne_zero_of_mem_head hfirst (specifier.canonical hflag))
    (fun _ hfirst => hfirst2 (hfirst ▸ by decide))
  obtain ⟨c0, fmt0, h0, _⟩ := @exists_first c1 fmt1 (if specifier.zero then [0x30] else [])
    (fun _ => True) (fun _ _ => trivial) trivial
  have htext : specifier.spelling ++ rest = c0 :: fmt0 := by
    rw [h0, h1, h2, h3, h4]
    simp [Specifier.spelling]
  have hfill := scanFill_spelled specifier.zero hfirst1 h0
  have hwidth := scanWidth_spelled specifier.width hfirst2 h1
  have hdecimals := scanDecimalPos_spelled specifier.precision hfirst3.1 hfirst3.2.1 hfirst3.2.2 h2
  have hlong := scanLong_spelled specifier.size.is_long hfirst4.2 h3
  have hlonglong := scanLong_spelled specifier.size.is_longlong (fun _ => hletter) h4
  simp [scanDirective, htext, fetch, hfill, hwidth, hdecimals, hlong, hlonglong, hzero,
    Specifier.directive]

end Rodos.Print
