import Rodos.Library.CString
import Rodos.Library.Logged

/-! The string functions of `string_pico.cpp` that take a bound, with the characters they access.
A null pointer is `none`. -/
namespace Rodos.Support
open Library

/-- `while(*s)`, with `s` moved by `len` characters. -/
def strnlenFrom (n : Nat) (s : Logged UInt8) (len : Nat) : Nat × Logged UInt8 :=
  let (c, s) := s.load len
  if c ≠ 0 then
    if len + 1 ≥ n then (len + 1, s) else strnlenFrom n s (len + 1)
  else (len, s)
termination_by n - len

def strnlen (s : Option (Logged UInt8)) (n : Nat) : Nat × Option (Logged UInt8) :=
  match s with
  | none => (0, none)
  | some s => ((strnlenFrom n s 0).1, some (strnlenFrom n s 0).2)

/-- `while (n > 0)`, with both pointers moved by `index` characters; the position of `dest` behind
the loop comes first. -/
def strncpyFrom (dest src : Logged UInt8) (index : Nat) :
    Nat → Nat × Logged UInt8 × Logged UInt8
  | 0 => (index, dest, src)
  | n + 1 =>
    let (c, src) := src.load index
    let dest := dest.store index c
    let (c, src) := src.load index
    if c = 0 then (index, dest, src) else strncpyFrom dest src (index + 1) n

/-- The destination and the source afterwards; nothing is copied from or to a null pointer. -/
def strncpy (dest src : Option (Logged UInt8)) (n : Nat) :
    Option (Logged UInt8) × Option (Logged UInt8) :=
  match dest, src with
  | some dest, some src =>
    let (index, dest, src) := strncpyFrom dest src 0 n
    (some (dest.store index 0), some src)
  | dest, src => (dest, src)

/-- The rounds of the `do` loop, with both pointers moved by `index` characters. -/
def strncmpFrom (a b : Logged UInt8) (index n : Nat) : Int × Logged UInt8 × Logged UInt8 :=
  let (ac, a) := a.load index
  let (bc, b) := b.load index
  match n with
  | 0 => (0, a, b)
  | n + 1 =>
    if ac < bc then (-1, a, b)
    else if ac > bc then (1, a, b)
    else if ac ≠ 0 then strncmpFrom a b (index + 1) n
    else (0, a, b)

def strncmp (a b : Option (Logged UInt8)) (n : Nat) :
    Int × Option (Logged UInt8) × Option (Logged UInt8) :=
  match a, b with
  | none, none => (0, none, none)
  | none, some b => (-1, none, some b)
  | some a, none => (1, some a, none)
  | some a, some b =>
    let (result, a, b) := strncmpFrom a b 0 n
    (result, some a, some b)

section strnlen

theorem strnlenFrom_eq (n : Nat) (s : Logged UInt8) (len : Nat) :
    strnlenFrom n s len =
      if s.cells len ≠ 0 then
        if len + 1 ≥ n then (len + 1, (s.load len).2)
        else strnlenFrom n (s.load len).2 (len + 1)
      else (len, (s.load len).2) := by
  rw [strnlenFrom]
  rfl

/-- From a character of the string on, with the bound not yet reached. -/
theorem strnlenFrom_spec {text : List UInt8} {n len : Nat} {s : Logged UInt8}
    (hstring : StringAt s.cells 0 text) (hlen : len < n) (hinside : len ≤ text.length)
    (hwithin : s.Within (· < n)) :
    (strnlenFrom n s len).1 = min text.length n ∧ (strnlenFrom n s len).2.Within (· < n) := by
  induction hleft : n - len generalizing len s with
  | zero => omega
  | succ left ih =>
    have hcell := hstring.cell_eq_zero_iff hinside
    rw [Nat.zero_add] at hcell
    have hloaded : (s.load len).2.Within (· < n) := hwithin.load hlen
    rw [strnlenFrom_eq]
    by_cases hend : s.cells len = 0
    · rw [if_neg (not_not.mpr hend)]
      have hlast := hcell.mp hend
      exact ⟨by dsimp only; omega, hloaded⟩
    · have hne := mt hcell.mpr hend
      rw [if_pos hend]
      by_cases hbound : len + 1 ≥ n
      · rw [if_pos hbound]
        exact ⟨by dsimp only; omega, hloaded⟩
      · rw [if_neg hbound]
        exact ih hstring (by omega) (by omega) hloaded (by omega)

/-- The first character is read even if the bound is zero. -/
theorem strnlenFrom_zero (s : Logged UInt8) :
    (strnlenFrom 0 s 0).2.touched = 0 :: s.touched := by
  rw [strnlenFrom_eq]
  split <;> rfl

theorem strnlen_iff {text : List UInt8} {s : Memory UInt8} (hstring : StringAt s 0 text) (n : Nat) :
    ((strnlenFrom n ⟨s, []⟩ 0).1 = min text.length n ∧
        (strnlenFrom n ⟨s, []⟩ 0).2.Within (· < n)) ↔ n ≠ 0 := by
  constructor
  · rintro ⟨-, hwithin⟩ rfl
    have hfirst : 0 ∈ (strnlenFrom 0 ⟨s, []⟩ 0).2.touched := by
      rw [strnlenFrom_zero]
      exact List.mem_cons_self
    exact absurd (hwithin 0 hfirst) (Nat.lt_irrefl 0)
  · intro hn
    exact @strnlenFrom_spec text n 0 ⟨s, []⟩ hstring (Nat.pos_of_ne_zero hn) (Nat.zero_le _)
      (Logged.within_fresh s)

end strnlen

section strncpy

theorem strncpyFrom_succ (dest src : Logged UInt8) (index n : Nat) :
    strncpyFrom dest src index (n + 1) =
      if src.cells index = 0 then
        (index, dest.store index (src.cells index), ((src.load index).2.load index).2)
      else
        strncpyFrom (dest.store index (src.cells index)) ((src.load index).2.load index).2
          (index + 1) n := rfl

/-- Where the loop ends: at the terminator, or behind as many characters as the bound admits. -/
theorem strncpyFrom_spec {text : List UInt8} {dest src : Logged UInt8} {index n bound : Nat}
    (hstring : StringAt src.cells 0 text) (hinside : index ≤ text.length)
    (hbound : index + n = bound) (hdest : dest.Within (· < bound)) (hsrc : src.Within (· < bound)) :
    (strncpyFrom dest src index n).1 = min text.length bound ∧
      (strncpyFrom dest src index n).2.1.Within (· < bound) ∧
      (strncpyFrom dest src index n).2.2.Within (· < bound) := by
  induction n generalizing dest src index with
  | zero => exact ⟨by rw [strncpyFrom]; omega, hdest, hsrc⟩
  | succ n ih =>
    have hcell := hstring.cell_eq_zero_iff hinside
    rw [Nat.zero_add] at hcell
    have hstored : (dest.store index (src.cells index)).Within (· < bound) :=
      hdest.store (by omega)
    have hloaded : ((src.load index).2.load index).2.Within (· < bound) :=
      (hsrc.load (by omega)).load (by omega)
    rw [strncpyFrom_succ]
    by_cases hend : src.cells index = 0
    · rw [if_pos hend]
      have hlast := hcell.mp hend
      exact ⟨by dsimp only; omega, hstored, hloaded⟩
    · rw [if_neg hend]
      have hne := mt hcell.mpr hend
      exact ih hstring (by omega) (by omega) hstored hloaded

theorem strncpy_iff {text : List UInt8} {src : Memory UInt8} (hstring : StringAt src 0 text)
    (dest : Memory UInt8) (n : Nat) :
    (∀ memory ∈ (strncpy (some ⟨dest, []⟩) (some ⟨src, []⟩) n).1, memory.Within (· < n)) ∧
        (∀ memory ∈ (strncpy (some ⟨dest, []⟩) (some ⟨src, []⟩) n).2, memory.Within (· < n)) ↔
      text.length < n := by
  obtain ⟨hindex, hdest, hsrc⟩ := @strncpyFrom_spec text ⟨dest, []⟩ ⟨src, []⟩ 0 n n hstring
    (Nat.zero_le _) (Nat.zero_add n) (Logged.within_fresh dest) (Logged.within_fresh src)
  simp only [strncpy, Option.mem_def, Option.some.injEq, forall_eq']
  constructor
  · rintro ⟨hwithin, -⟩
    have hend := hwithin _ List.mem_cons_self
    rw [hindex] at hend
    omega
  · intro hshort
    exact ⟨hdest.store (by omega), hsrc⟩

end strncpy

section strncmp

/-- What a comparison of two byte strings returns. -/
def comparison (a b : List UInt8) : Int := if a < b then -1 else if b < a then 1 else 0

theorem strncmpFrom_zero (a b : Logged UInt8) (index : Nat) :
    strncmpFrom a b index 0 = (0, (a.load index).2, (b.load index).2) := by
  rw [strncmpFrom]

theorem strncmpFrom_succ (a b : Logged UInt8) (index n : Nat) :
    strncmpFrom a b index (n + 1) =
      if a.cells index < b.cells index then (-1, (a.load index).2, (b.load index).2)
      else if a.cells index > b.cells index then (1, (a.load index).2, (b.load index).2)
      else if a.cells index ≠ 0 then strncmpFrom (a.load index).2 (b.load index).2 (index + 1) n
      else (0, (a.load index).2, (b.load index).2) := by
  rw [strncmpFrom]
  rfl

theorem character_cases (c d : UInt8) : c < d ∨ c = d ∨ d < c := by
  by_cases hless : c < d
  · exact .inl hless
  · by_cases hgreater : d < c
    · exact .inr (.inr hgreater)
    · exact .inr (.inl (UInt8.le_antisymm (UInt8.not_lt.mp hgreater) (UInt8.not_lt.mp hless)))

theorem comparison_cons (c d : UInt8) (a b : List UInt8) :
    comparison (c :: a) (d :: b) = if c < d then -1 else if d < c then 1 else comparison a b := by
  unfold comparison
  simp only [List.cons_lt_cons_iff]
  obtain hless | rfl | hgreater := character_cases c d
  · simp [hless]
  · simp
  · have hne : d ≠ c := UInt8.ne_of_lt hgreater
    simp [hgreater, UInt8.lt_asymm hgreater, hne, hne.symm]

/-- The rounds of the loop, the strings being what is left of them. With the bound reached one more
character of each is read, unless a difference or the end has come before. -/
theorem strncmpFrom_spec {s t : List UInt8} {a b : Logged UInt8} {index n bound : Nat}
    (ha : StringAt a.cells index s) (hb : StringAt b.cells index t) (hbound : index + n = bound)
    (hawithin : a.Within (· < bound)) (hbwithin : b.Within (· < bound)) :
    (strncmpFrom a b index n).1 = comparison (s.take n) (t.take n) ∧
      ((strncmpFrom a b index n).2.1.Within (· < bound) ∧
          (strncmpFrom a b index n).2.2.Within (· < bound) ↔
        (s.take n = t.take n → s.length < n)) := by
  induction n generalizing s t a b index with
  | zero =>
    rw [strncmpFrom_zero]
    refine ⟨rfl, fun hwithin => ?_, fun hend => absurd (hend rfl) (Nat.not_lt_zero _)⟩
    have hbehind : index < bound := hwithin.1 index List.mem_cons_self
    omega
  | succ n ih =>
    have haloaded : (a.load index).2.Within (· < bound) := hawithin.load (by omega)
    have hbloaded : (b.load index).2.Within (· < bound) := hbwithin.load (by omega)
    rw [strncmpFrom_succ]
    cases s with
    | nil =>
      rw [StringAt.nil_iff] at ha
      cases t with
      | nil =>
        rw [StringAt.nil_iff] at hb
        simp [ha, hb, comparison, haloaded, hbloaded]
      | cons d t =>
        rw [StringAt.cons_iff] at hb
        have hless : (0 : UInt8) < d := UInt8.pos_iff_ne_zero.mpr hb.2.1
        simp [ha, hb.1, hless, comparison, haloaded, hbloaded]
    | cons c s =>
      rw [StringAt.cons_iff] at ha
      cases t with
      | nil =>
        rw [StringAt.nil_iff] at hb
        have hless : (0 : UInt8) < c := UInt8.pos_iff_ne_zero.mpr ha.2.1
        simp [ha.1, hb, hless, comparison, haloaded, hbloaded]
      | cons d t =>
        rw [StringAt.cons_iff] at hb
        rw [List.take_succ_cons, List.take_succ_cons, comparison_cons, ha.1, hb.1]
        obtain hless | rfl | hgreater := character_cases c d
        · have hne : c ≠ d := UInt8.ne_of_lt hless
          simp [hless, hne, haloaded, hbloaded]
        · have hrest := @ih s t (a.load index).2 (b.load index).2 (index + 1) ha.2.2 hb.2.2
            (by omega) haloaded hbloaded
          simp [ha.2.1, hrest]
        · have hne : d ≠ c := UInt8.ne_of_lt hgreater
          simp [hgreater, UInt8.lt_asymm hgreater, hne.symm, haloaded, hbloaded]

theorem comparison_eq_zero {a b : List UInt8} : comparison a b = 0 ↔ a = b := by
  constructor
  · intro hzero
    induction a generalizing b with
    | nil =>
      cases b with
      | nil => rfl
      | cons d b => simp [comparison] at hzero
    | cons c a ih =>
      cases b with
      | nil => simp [comparison] at hzero
      | cons d b =>
        rw [comparison_cons] at hzero
        obtain hless | rfl | hgreater := character_cases c d
        · simp [hless] at hzero
        · rw [ih (by simpa using hzero)]
        · simp [hgreater, UInt8.lt_asymm hgreater] at hzero
  · rintro rfl
    simp [comparison, List.lt_irrefl]

/-- Neither string is read past its terminator, whatever the bound is. -/
theorem strncmpFrom_within {s t : List UInt8} {a b : Logged UInt8} {index n aLast bLast : Nat}
    (ha : StringAt a.cells index s) (hb : StringAt b.cells index t)
    (haLast : index + s.length = aLast) (hbLast : index + t.length = bLast)
    (hawithin : a.Within (· ≤ aLast)) (hbwithin : b.Within (· ≤ bLast)) :
    (strncmpFrom a b index n).2.1.Within (· ≤ aLast) ∧
      (strncmpFrom a b index n).2.2.Within (· ≤ bLast) := by
  have haloaded : (a.load index).2.Within (· ≤ aLast) := hawithin.load (by omega)
  have hbloaded : (b.load index).2.Within (· ≤ bLast) := hbwithin.load (by omega)
  induction n generalizing s t a b index with
  | zero =>
    rw [strncmpFrom_zero]
    exact ⟨haloaded, hbloaded⟩
  | succ n ih =>
    rw [strncmpFrom_succ]
    by_cases hless : a.cells index < b.cells index
    · rw [if_pos hless]
      exact ⟨haloaded, hbloaded⟩
    by_cases hgreater : a.cells index > b.cells index
    · rw [if_neg hless, if_pos hgreater]
      exact ⟨haloaded, hbloaded⟩
    by_cases hend : a.cells index = 0
    · rw [if_neg hless, if_neg hgreater, if_neg (not_not.mpr hend)]
      exact ⟨haloaded, hbloaded⟩
    rw [if_neg hless, if_neg hgreater, if_pos hend]
    have hsame : a.cells index = b.cells index :=
      UInt8.le_antisymm (UInt8.not_lt.mp hgreater) (UInt8.not_lt.mp hless)
    cases s with
    | nil => exact absurd ha.terminated hend
    | cons c s =>
      cases t with
      | nil => exact absurd (hsame.trans hb.terminated) hend
      | cons d t =>
        rw [StringAt.cons_iff] at ha hb
        rw [List.length_cons] at haLast hbLast
        exact ih ha.2.2 hb.2.2 (by omega) (by omega) haloaded hbloaded
          (haloaded.load (by omega)) (hbloaded.load (by omega))

theorem strncmp_iff {textA textB : List UInt8} {a b : Memory UInt8}
    (ha : StringAt a 0 textA) (hb : StringAt b 0 textB) (n : Nat) :
    ((strncmp (some ⟨a, []⟩) (some ⟨b, []⟩) n).1 = comparison (textA.take n) (textB.take n) ∧
        (∀ memory ∈ (strncmp (some ⟨a, []⟩) (some ⟨b, []⟩) n).2.1, memory.Within (· < n)) ∧
        ∀ memory ∈ (strncmp (some ⟨a, []⟩) (some ⟨b, []⟩) n).2.2, memory.Within (· < n)) ↔
      (textA.take n = textB.take n → textA.length < n) := by
  obtain ⟨hresult, hwithin⟩ := @strncmpFrom_spec textA textB ⟨a, []⟩ ⟨b, []⟩ 0 n n ha hb
    (Nat.zero_add n) (Logged.within_fresh a) (Logged.within_fresh b)
  simp only [strncmp, Option.mem_def, Option.some.injEq, forall_eq', hresult, true_and]
  exact hwithin

end strncmp

/-- The three functions against their bound. `strnlen` fails for the bound zero, `strncpy` for every
string that is not shorter than the bound, `strncmp` if the first `n` characters of both strings
are the same and none of them is the terminator. -/
theorem bounded_string_functions_iff {textS textT : List UInt8} {s t : Memory UInt8}
    (hs : StringAt s 0 textS) (ht : StringAt t 0 textT) (dest : Memory UInt8) (n : Nat) :
    ((strnlen (some ⟨s, []⟩) n).1 = min textS.length n ∧
        (∀ memory ∈ (strnlen (some ⟨s, []⟩) n).2, memory.Within (· < n)) ↔
      n ≠ 0) ∧
    ((∀ memory ∈ (strncpy (some ⟨dest, []⟩) (some ⟨s, []⟩) n).1, memory.Within (· < n)) ∧
        (∀ memory ∈ (strncpy (some ⟨dest, []⟩) (some ⟨s, []⟩) n).2, memory.Within (· < n)) ↔
      textS.length < n) ∧
    ((strncmp (some ⟨s, []⟩) (some ⟨t, []⟩) n).1 =
          comparison (textS.take n) (textT.take n) ∧
        (∀ memory ∈ (strncmp (some ⟨s, []⟩) (some ⟨t, []⟩) n).2.1, memory.Within (· < n)) ∧
        (∀ memory ∈ (strncmp (some ⟨s, []⟩) (some ⟨t, []⟩) n).2.2, memory.Within (· < n)) ↔
      (textS.take n = textT.take n → textS.length < n)) ∧
    (strncmp (some ⟨s, []⟩) (some ⟨t, []⟩) n).1 = comparison (textS.take n) (textT.take n) := by
  refine ⟨?_, strncpy_iff hs dest n, strncmp_iff hs ht n, ?_⟩
  · simp only [strnlen, Option.mem_def, Option.some.injEq, forall_eq']
    exact strnlen_iff hs n
  · exact (@strncmpFrom_spec textS textT ⟨s, []⟩ ⟨t, []⟩ 0 n n hs ht (Nat.zero_add n)
      (Logged.within_fresh s) (Logged.within_fresh t)).1

/-- Room for three characters and the terminator is enough for a string of three. -/
theorem bounded_string_functions_iff_fits :
    (strnlen (some ⟨Memory.ofText [0x61, 0x62, 0x63], []⟩) 4).1 = 3 :=
  ((bounded_string_functions_iff
    (stringAt_ofText (by decide : (0 : UInt8) ∉ [0x61, 0x62, 0x63]))
    (stringAt_ofText (by decide : (0 : UInt8) ∉ [0x61])) (fun _ => 0) 4).1.mpr (by decide)).1

/-- `strnlen("a", 0)` is 1, `strncpy(dest, "ab", 2)` writes `dest[2]`, and `strncmp("ab", "ab", 2)`
reads behind the first two characters. -/
theorem bounded_string_functions_overrun :
    (strnlen (some ⟨Memory.ofText [0x61], []⟩) 0).1 ≠ min 1 0 ∧
      ¬ (∀ memory ∈ (strncpy (some ⟨fun _ => 0, []⟩)
          (some ⟨Memory.ofText [0x61, 0x62], []⟩) 2).1, memory.Within (· < 2)) ∧
      ¬ (∀ memory ∈ (strncmp (some ⟨Memory.ofText [0x61, 0x62], []⟩)
          (some ⟨Memory.ofText [0x61, 0x62], []⟩) 2).2.1, memory.Within (· < 2)) := by
  refine ⟨?_, fun hwithin => ?_, fun hwithin => ?_⟩
  · simp only [strnlen]
    rw [strnlenFrom_eq]
    decide
  · exact absurd (hwithin _ rfl 2 (by decide)) (Nat.lt_irrefl 2)
  · exact absurd (hwithin _ rfl 2 (by decide)) (Nat.lt_irrefl 2)

end Rodos.Support
