import Rodos.Library.Logged
import Rodos.Print.FormatArguments

/-! `SNPRINTF` of `rodos-debug.cpp`: the output of `vaprintf` cut off to the size of the
destination. -/
namespace Rodos.Print
open Library

structure SNYprintf where
  memory : Logged UInt8
  dest : Nat
  max_size : Nat
  cur_size : Nat := 0

namespace SNYprintf

def yputc (self : SNYprintf) (c : UInt8) : SNYprintf :=
  if self.cur_size + 1 < self.max_size then
    { self with
      memory := self.memory.store self.dest c
      dest := self.dest + 1
      cur_size := self.cur_size + 1 }
  else self

/-- The destructor. -/
def terminate (self : SNYprintf) : SNYprintf :=
  if self.max_size ≠ 0 then { self with memory := self.memory.store self.dest 0 } else self

end SNYprintf

variable {D : Type} [DoubleArithmetic D] {long : LongSize}

/-- The memory and the returned size. -/
def vsnprintf (memory : Logged UInt8) (dest size : Nat) (fmt : List UInt8)
    (args : List (Arg D long)) : Option (Logged UInt8 × Nat) :=
  (vaprintf fmt args).map fun output =>
    let yprintf := output.foldl SNYprintf.yputc { memory, dest, max_size := size }
    (yprintf.terminate.memory, yprintf.cur_size)

def SNPRINTF (memory : Logged UInt8) (dest size : Nat) (fmt : List UInt8)
    (args : List (Arg D long)) : Option (Logged UInt8 × Nat) :=
  vsnprintf memory dest size fmt args

/-- What the printer has stored after some output. -/
structure Printed (start size : Nat) (output : List UInt8) (yprintf : SNYprintf) : Prop where
  max_size : yprintf.max_size = size
  cur_size : yprintf.cur_size = min (size - 1) output.length
  dest : yprintf.dest = start + yprintf.cur_size
  stored : yprintf.memory.cells.slice start yprintf.dest = output.take (size - 1)
  within : yprintf.memory.Within fun index => start ≤ index ∧ index < start + size

section printed

variable {start size : Nat} {output : List UInt8} {yprintf : SNYprintf}

theorem slice_store_end (memory : Memory UInt8) {start stop : Nat} (hstart : start ≤ stop)
    (value : UInt8) :
    (memory.store stop value).slice start (stop + 1) = memory.slice start stop ++ [value] := by
  rw [Memory.slice, Memory.front_store_end, List.drop_append_of_le_length (by simpa using hstart)]
  rfl

theorem slice_store_behind (memory : Memory UInt8) (start stop : Nat) (value : UInt8) :
    (memory.store stop value).slice start stop = memory.slice start stop := by
  rw [Memory.slice, Memory.front_store_of_le memory value (Nat.le_refl stop), ← Memory.slice]

theorem printed_start (cells : Memory UInt8) (start size : Nat) :
    Printed start size [] { memory := ⟨cells, []⟩, dest := start, max_size := size } := by
  refine ⟨rfl, by simp, rfl, ?_, Logged.within_fresh cells⟩
  simp [Memory.slice]

/-- One more character is stored or, when only the place of the terminator is left, dropped. -/
theorem Printed.yputc (h : Printed start size output yprintf) (c : UInt8) :
    Printed start size (output ++ [c]) (yprintf.yputc c) := by
  have hcur := h.cur_size
  rw [SNYprintf.yputc, h.max_size]
  by_cases hroom : yprintf.cur_size + 1 < size
  · rw [if_pos hroom]
    have hall : output.length < size - 1 := by omega
    refine ⟨rfl, by simp; omega, by simp [h.dest, Nat.add_assoc], ?_, ?_⟩
    · have hstored := h.stored
      rw [List.take_of_length_le (by omega)] at hstored
      rw [List.take_of_length_le (by simp; omega), Logged.cells_store,
        slice_store_end _ (by rw [h.dest]; omega), hstored]
    · exact h.within.store (by rw [h.dest]; omega)
  · rw [if_neg hroom]
    have hfull : size - 1 ≤ output.length := by omega
    refine ⟨h.max_size, by simp; omega, h.dest, ?_, h.within⟩
    rw [h.stored, List.take_append_of_le_length hfull]

theorem printed_output (cells : Memory UInt8) (start size : Nat) (output : List UInt8) :
    Printed start size output (output.foldl SNYprintf.yputc
      { memory := ⟨cells, []⟩, dest := start, max_size := size }) := by
  induction output using List.reverseRecOn with
  | nil => exact printed_start cells start size
  | append_singleton output c ih =>
    rw [List.foldl_append]
    exact ih.yputc c

/-- A string in the destination: the output as far as there is room, and a terminator. -/
structure Truncated (memory : Logged UInt8) (dest size : Nat) (output : List UInt8) : Prop where
  within : memory.Within fun index => dest ≤ index ∧ index < dest + size
  stored : memory.cells.slice dest (dest + min (size - 1) output.length) = output.take (size - 1)
  terminated : memory.cells (dest + min (size - 1) output.length) = 0

theorem Printed.terminate (h : Printed start size output yprintf) (hsize : 0 < size) :
    Truncated yprintf.terminate.memory start size output := by
  have hcur := h.cur_size
  have hstored := h.stored
  rw [h.dest, hcur] at hstored
  rw [SNYprintf.terminate, if_pos (by rw [h.max_size]; omega), h.dest, hcur]
  refine ⟨h.within.store (by omega), ?_, Memory.store_same _ _ _⟩
  rw [Logged.cells_store, slice_store_behind, hstored]

end printed

/-- For a format with arguments of its kinds, `vaprintf` ends without an access beside its arrays
and `SNPRINTF` leaves the output, cut off to the destination, if and only if every argument of a
`%b` has at most 25 digits. -/
theorem snprintf_truncates_iff {text : List UInt8} (hnonzero : 0 ∉ text)
    {args : List (Arg D long)}
    (hkinds : List.Forall₂ Directive.Matches (argumentDirectives (text ++ [0])) args)
    (extra : List (Arg D long)) (cells : Memory UInt8) (dest : Nat) {size : Nat}
    (hsize : 0 < size) :
    (∃ output memory, vaprintf (text ++ [0]) (args ++ extra) = some output ∧
        SNPRINTF ⟨cells, []⟩ dest size (text ++ [0]) (args ++ extra) =
          some (memory, min (size - 1) output.length) ∧
        Truncated memory dest size output) ↔
      List.Forall₂ Directive.Fits (argumentDirectives (text ++ [0])) args := by
  rw [← vaprintf_isSome_iff ⟨text, hnonzero, rfl⟩ hkinds extra, Option.isSome_iff_exists]
  constructor
  · rintro ⟨output, _, houtput, _⟩
    exact ⟨output, houtput⟩
  · rintro ⟨output, houtput⟩
    have hprinted := printed_output cells dest size output
    refine ⟨output, _, houtput, ?_, hprinted.terminate hsize⟩
    rw [SNPRINTF, vsnprintf, houtput, ← hprinted.cur_size]
    rfl

/-- `a%d` with a lone `%` behind it, printed to a destination of three bytes. -/
theorem snprintf_truncates_iff_lone :
    ∃ output memory, vaprintf [0x61, 0x25, 0x64, 0x25, 0] [(Arg.int 77 : Arg Float .bits32)] =
        some output ∧
      SNPRINTF ⟨fun _ => 0xFF, []⟩ 5 3 [0x61, 0x25, 0x64, 0x25, 0]
          [(Arg.int 77 : Arg Float .bits32)] =
        some (memory, min 2 output.length) ∧
      Truncated memory 5 3 output := by
  have hdirectives : argumentDirectives [0x61, 0x25, 0x64, 0x25, 0] =
      [{ c := 0x64, nonzero := by decide }] := by
    rw [argumentDirectives_character (by decide) (by decide),
      @argumentDirectives_directive _ [0x25, 0] { c := 0x64, nonzero := by decide } rfl,
      argumentDirectives_bad_format rfl]
    rfl
  have hkinds : List.Forall₂ Directive.Matches (argumentDirectives [0x61, 0x25, 0x64, 0x25, 0])
      [(Arg.int 77 : Arg Float .bits32)] := by
    rw [hdirectives]
    exact .cons (.inr ⟨⟨.d, rfl⟩, rfl⟩) .nil
  have hfits : List.Forall₂ Directive.Fits (argumentDirectives [0x61, 0x25, 0x64, 0x25, 0])
      [(Arg.int 77 : Arg Float .bits32)] := by
    rw [hdirectives]
    exact .cons (fun hb => absurd hb (by decide)) .nil
  exact (@snprintf_truncates_iff Float _ .bits32 [0x61, 0x25, 0x64, 0x25] (by decide) _ hkinds []
    (fun _ => 0xFF) 5 3 (by decide)).mpr hfits

/-- `%b` with a value of 26 digits. -/
theorem snprintf_overflows :
    ¬∀ (text : List UInt8) (args : List (Arg Float .bits32)) (cells : Memory UInt8)
        (dest size : Nat), 0 ∉ text →
      List.Forall₂ Directive.Matches (argumentDirectives (text ++ [0])) args → 0 < size →
      ∃ output memory, vaprintf (text ++ [0]) args = some output ∧
        SNPRINTF ⟨cells, []⟩ dest size (text ++ [0]) args =
          some (memory, min (size - 1) output.length) ∧
        Truncated memory dest size output := by
  intro hall
  have hkinds : List.Forall₂ Directive.Matches (argumentDirectives [0x25, 0x62, 0])
      [(Arg.int 0x2000000 : Arg Float .bits32)] := by
    rw [@argumentDirectives_directive _ [0] { c := 0x62, nonzero := by decide } rfl,
      argumentDirectives_terminator]
    exact .cons (.inr ⟨⟨.b, rfl⟩, rfl⟩) .nil
  obtain ⟨output, _, houtput, _⟩ :=
    hall [0x25, 0x62] [.int 0x2000000] (fun _ => 0) 0 100 (by decide) hkinds (by decide)
  have hprinted := @vaprintf_specifier .bits32 Float _ { conversion := .b } 0x2000000
  rw [if_neg (by decide)] at hprinted
  cases hprinted.symm.trans houtput

end Rodos.Print
