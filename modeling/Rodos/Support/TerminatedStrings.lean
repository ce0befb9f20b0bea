import Rodos.Library.CString
import Rodos.Library.Logged

/-! `strlen`, `strcpy` and `memcpy` of `string_pico.cpp`, with the bytes they access; no pointer is
null. A loop that runs up to the terminator has `fuel` rounds at most and gives nothing if it
needs more. -/
namespace Rodos.Support
open Library

/-- `while(*s)`, with `s` moved by `len` characters. -/
def strlenFrom : (fuel : Nat) → (s : Logged UInt8) → (len : Nat) → Option (Nat × Logged UInt8)
  | 0, _, _ => none
  | fuel + 1, s, len =>
    let (c, s) := s.load len
    if c ≠ 0 then strlenFrom fuel s (len + 1) else some (len, s)

def strlen (fuel : Nat) (s : Logged UInt8) : Option (Nat × Logged UInt8) := strlenFrom fuel s 0

/-- `while(*s)`, with both pointers moved by `index` characters. -/
def strcpyFrom : (fuel : Nat) → (dest s : Logged UInt8) → (index : Nat) →
    Option (Logged UInt8 × Logged UInt8)
  | 0, _, _, _ => none
  | fuel + 1, dest, s, index =>
    let (c, s) := s.load index
    if c ≠ 0 then
      let (c, s) := s.load index
      strcpyFrom fuel (dest.store index c) s (index + 1)
    else some (dest.store index 0, s)

/-- The destination and the source afterwards. -/
def strcpy (fuel : Nat) (dest s : Logged UInt8) : Option (Logged UInt8 × Logged UInt8) :=
  strcpyFrom fuel dest s 0

/-- From `s + sIndex` to `dest + destIndex`; the destination and the source afterwards. -/
def memcpy (dest s : Logged UInt8) (destIndex sIndex : Nat) :
    (len : Nat) → Logged UInt8 × Logged UInt8
  | 0 => (dest, s)
  | len + 1 =>
    let (c, s) := s.load sIndex
    memcpy (dest.store destIndex c) s (destIndex + 1) (sIndex + 1) len

theorem strlenFrom_succ (fuel : Nat) (s : Logged UInt8) (len : Nat) :
    strlenFrom (fuel + 1) s len =
      if s.cells len ≠ 0 then strlenFrom fuel (s.load len).2 (len + 1)
      else some (len, (s.load len).2) := rfl

/-- From a character of the string on. -/
theorem strlenFrom_spec {text : List UInt8} {fuel len last : Nat} {s : Logged UInt8}
    (hstring : StringAt s.cells len text) (hlast : len + text.length = last)
    (hfuel : text.length < fuel) (hwithin : s.Within (· ≤ last)) :
    ∃ after, strlenFrom fuel s len = some (last, after) ∧ after.Within (· ≤ last) := by
  induction fuel generalizing text s len with
  | zero => omega
  | succ fuel ih =>
    rw [strlenFrom_succ]
    cases text with
    | nil =>
      rw [StringAt.nil_iff] at hstring
      have hend : len = last := hlast
      rw [if_neg (not_not.mpr hstring), hend]
      exact ⟨_, rfl, hwithin.load (Nat.le_refl last)⟩
    | cons character text =>
      rw [List.length_cons] at hlast hfuel
      have hcharacter : s.cells len ≠ 0 := hstring.cell_ne_zero (Nat.zero_lt_succ _)
      rw [if_pos hcharacter]
      exact ih (StringAt.cons_iff.mp hstring).2.2 (by omega) (by omega) (hwithin.load (by omega))

theorem strlen_spec {text : List UInt8} {fuel : Nat} {s : Logged UInt8}
    (hstring : StringAt s.cells 0 text) (hfuel : text.length < fuel)
    (hwithin : s.Within (· ≤ text.length)) :
    ∃ after, strlen fuel s = some (text.length, after) ∧ after.Within (· ≤ text.length) :=
  strlenFrom_spec hstring (Nat.zero_add _) hfuel hwithin

theorem strcpyFrom_succ (fuel : Nat) (dest s : Logged UInt8) (index : Nat) :
    strcpyFrom (fuel + 1) dest s index =
      if s.cells index ≠ 0 then
        strcpyFrom fuel (dest.store index (s.cells index)) ((s.load index).2.load index).2
          (index + 1)
      else some (dest.store index 0, (s.load index).2) := rfl

/-- The string is copied with its terminator, and nothing else is written. -/
theorem strcpyFrom_spec {text : List UInt8} {fuel index last : Nat} {dest s : Logged UInt8}
    (hstring : StringAt s.cells index text) (hlast : index + text.length = last)
    (hfuel : text.length < fuel) :
    ∃ copied after, strcpyFrom fuel dest s index = some (copied, after) ∧
      (∀ other, copied.cells other =
        if index ≤ other ∧ other ≤ last then s.cells other else dest.cells other) ∧
      ∀ other, other ∈ copied.touched ↔ other ∈ dest.touched ∨ index ≤ other ∧ other ≤ last := by
  induction fuel generalizing text dest s index with
  | zero => omega
  | succ fuel ih =>
    rw [strcpyFrom_succ]
    cases text with
    | nil =>
      rw [StringAt.nil_iff] at hstring
      have hend : index = last := hlast
      subst hend
      rw [if_neg (not_not.mpr hstring)]
      refine ⟨_, _, rfl, fun other => ?_, fun other => ?_⟩
      · by_cases hother : other = index
        · simp [hother, hstring]
        · rw [if_neg (by omega), Logged.cells_store, Memory.store_other _ _ hother]
      · rw [Logged.touched_store, List.mem_cons]
        grind
    | cons character text =>
      rw [List.length_cons] at hlast hfuel
      have hcharacter : s.cells index ≠ 0 := hstring.cell_ne_zero (Nat.zero_lt_succ _)
      obtain ⟨copied, after, hcopy, hcells, htouched⟩ :=
        @ih text (index + 1) (dest.store index (s.cells index)) ((s.load index).2.load index).2
          (StringAt.cons_iff.mp hstring).2.2 (by omega) (by omega)
      rw [if_pos hcharacter]
      refine ⟨copied, after, hcopy, fun other => ?_, fun other => ?_⟩
      · rw [hcells]
        by_cases hother : other = index
        · rw [if_neg (by omega), if_pos (by omega), hother, Logged.cells_store, Memory.store_same]
        · rw [Logged.cells_store, Memory.store_other _ _ hother]
          by_cases hinside : index + 1 ≤ other ∧ other ≤ last
          · rw [if_pos hinside, if_pos (by omega)]
            rfl
          · rw [if_neg hinside, if_neg (by omega)]
      · rw [htouched, Logged.touched_store, List.mem_cons]
        grind

@[simp] theorem cells_memcpy (dest s : Logged UInt8) (destIndex sIndex len : Nat) :
    (memcpy dest s destIndex sIndex len).1.cells =
      Memory.copy dest.cells s.cells destIndex sIndex len := by
  induction len generalizing dest s destIndex sIndex with
  | zero => rfl
  | succ len ih => exact ih (dest.store destIndex (s.cells sIndex)) (s.load sIndex).2 _ _

theorem mem_touched_memcpy (dest s : Logged UInt8) (destIndex sIndex len other : Nat) :
    other ∈ (memcpy dest s destIndex sIndex len).1.touched ↔
      other ∈ dest.touched ∨ destIndex ≤ other ∧ other < destIndex + len := by
  induction len generalizing dest s destIndex sIndex with
  | zero =>
    rw [memcpy]
    grind
  | succ len ih =>
    have hrest := ih (dest.store destIndex (s.cells sIndex)) (s.load sIndex).2 (destIndex + 1)
      (sIndex + 1)
    rw [Logged.touched_store, List.mem_cons] at hrest
    show other ∈ (memcpy (dest.store destIndex (s.cells sIndex)) (s.load sIndex).2 (destIndex + 1)
      (sIndex + 1) len).1.touched ↔ _
    rw [hrest]
    grind

end Rodos.Support
