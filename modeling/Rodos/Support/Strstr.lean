import Rodos.Library.Substring
import Rodos.Support.StringPico
import Rodos.Support.TerminatedStrings

/-! `strstr` of `string_pico.cpp`. A pointer into a string is the number of characters before it,
null is `none`. -/
namespace Rodos.Support
open Library

/-- The inner `do` loop from `s + index` on: null at the end of the string, else the pointer behind
the character `c`. -/
def scanFor (c : UInt8) : (fuel : Nat) → (s : Logged UInt8) → (index : Nat) →
    Option (Option Nat × Logged UInt8)
  | 0, _, _ => none
  | fuel + 1, s, index =>
    let (sc, s) := s.load index
    if sc = 0 then some (none, s)
    else if sc ≠ c then scanFor c fuel s (index + 1)
    else some (some (index + 1), s)

/-- The outer `do` loop from `s + index` on, with `find` behind its first character `c`. The pointer
that is returned, and both strings afterwards. -/
def strstrFrom (c : UInt8) (len : Nat) : (fuel : Nat) → (s find : Logged UInt8) → (index : Nat) →
    Option (Option Nat × Logged UInt8 × Logged UInt8)
  | 0, _, _, _ => none
  | fuel + 1, s, find, index =>
    (scanFor c (fuel + 1) s index).bind fun (scanned, s) =>
      match scanned with
      | none => some (none, s, find)
      | some index =>
        let (result, a, b) := strncmpFrom (s.behind index) (find.behind 1) 0 len
        let s := s.resume index a
        let find := find.resume 1 b
        if result ≠ 0 then strstrFrom c len fuel s find index
        else some (some (index - 1), s, find)

def strstr (fuel : Nat) (s find : Logged UInt8) :
    Option (Option Nat × Logged UInt8 × Logged UInt8) :=
  let (c, find) := find.load 0
  if c ≠ 0 then
    (strlen fuel (find.behind 1)).bind fun (len, part) =>
      strstrFrom c len fuel s (find.resume 1 part) 0
  else some (some 0, s, find)

/-- What the inner loop does to the rest of a string. -/
inductive Scanned (c : UInt8) (index : Nat) : List UInt8 → Option Nat → Prop where
  | absent {rest : List UInt8} (habsent : c ∉ rest) : Scanned c index rest none
  | reached {before rest : List UInt8} (hbefore : c ∉ before) :
    Scanned c index (before ++ c :: rest) (some (index + before.length + 1))

theorem Scanned.cons {c letter : UInt8} {index : Nat} {rest : List UInt8} {scanned : Option Nat}
    (h : Scanned c (index + 1) rest scanned) (hother : letter ≠ c) :
    Scanned c index (letter :: rest) scanned := by
  cases h with
  | absent habsent =>
    apply Scanned.absent
    intro hmem
    exact habsent ((List.mem_cons.mp hmem).resolve_left hother.symm)
  | @reached before rest hbefore =>
    have hskipped : c ∉ letter :: before := by
      intro hmem
      exact hbefore ((List.mem_cons.mp hmem).resolve_left hother.symm)
    have hall := @Scanned.reached c index (letter :: before) rest hskipped
    rw [List.length_cons, ← Nat.add_assoc, Nat.add_right_comm index] at hall
    exact hall

theorem scanFor_succ (c : UInt8) (fuel : Nat) (s : Logged UInt8) (index : Nat) :
    scanFor c (fuel + 1) s index =
      if s.cells index = 0 then some (none, (s.load index).2)
      else if s.cells index ≠ c then scanFor c fuel (s.load index).2 (index + 1)
      else some (some (index + 1), (s.load index).2) := rfl

theorem scanFor_spec {c : UInt8} {rest : List UInt8} {fuel index last : Nat} {s : Logged UInt8}
    (hs : StringAt s.cells index rest) (hlast : index + rest.length = last)
    (hfuel : rest.length < fuel) (hwithin : s.Within (· ≤ last)) :
    ∃ scanned after, scanFor c fuel s index = some (scanned, after) ∧
      Scanned c index rest scanned ∧ after.cells = s.cells ∧ after.Within (· ≤ last) := by
  induction fuel generalizing rest s index with
  | zero => omega
  | succ fuel ih =>
    have hloaded : (s.load index).2.Within (· ≤ last) := hwithin.load (by omega)
    rw [scanFor_succ]
    cases rest with
    | nil =>
      rw [StringAt.nil_iff] at hs
      rw [if_pos hs]
      exact ⟨none, _, rfl, .absent List.not_mem_nil, rfl, hloaded⟩
    | cons letter rest =>
      rw [List.length_cons] at hlast hfuel
      obtain ⟨hletter, hnonzero, hrest⟩ := StringAt.cons_iff.mp hs
      rw [hletter, if_neg hnonzero]
      by_cases hother : letter ≠ c
      · rw [if_pos hother]
        obtain ⟨scanned, after, hscan, hscanned, hcells, hafter⟩ :=
          @ih rest (index + 1) (s.load index).2 hrest (by omega) (by omega) hloaded
        exact ⟨scanned, after, hscan, hscanned.cons hother, hcells, hafter⟩
      · rw [if_neg hother]
        obtain rfl := not_not.mp hother
        exact ⟨_, _, rfl, @Scanned.reached letter index [] rest List.not_mem_nil, rfl, hloaded⟩

section rounds

variable {c : UInt8} {len fuel index : Nat} {s find after : Logged UInt8}

theorem strstrFrom_absent (hscan : scanFor c (fuel + 1) s index = some (none, after)) :
    strstrFrom c len (fuel + 1) s find index = some (none, after, find) := by
  rw [strstrFrom, hscan]
  rfl

theorem strstrFrom_reached {next : Nat}
    (hscan : scanFor c (fuel + 1) s index = some (some next, after)) :
    strstrFrom c len (fuel + 1) s find index =
      let compared := strncmpFrom (after.behind next) (find.behind 1) 0 len
      if compared.1 ≠ 0 then
        strstrFrom c len fuel (after.resume next compared.2.1) (find.resume 1 compared.2.2) next
      else
        some (some (next - 1), after.resume next compared.2.1, find.resume 1 compared.2.2) := by
  rw [strstrFrom, hscan]
  rfl

/-- The rest of the needle is compared at the place that was reached, within both strings. -/
theorem compared_iff {needle rest : List UInt8} {next last : Nat}
    (hs : StringAt s.cells next rest) (hfind : StringAt find.cells 1 needle)
    (hlast : next + rest.length = last) (hwithin : s.Within (· ≤ last))
    (hfindWithin : find.Within (· ≤ needle.length + 1)) :
    let compared := strncmpFrom (s.behind next) (find.behind 1) 0 needle.length
    (compared.1 = 0 ↔ needle <+: rest) ∧
      (s.resume next compared.2.1).Within (· ≤ last) ∧
      (find.resume 1 compared.2.2).Within (· ≤ needle.length + 1) := by
  intro compared
  have ha : StringAt (s.behind next).cells 0 rest := StringAt.behind.mpr hs
  have hb : StringAt (find.behind 1).cells 0 needle := StringAt.behind.mpr hfind
  have hresult : compared.1 = comparison (rest.take needle.length) (needle.take needle.length) :=
    (strncmpFrom_spec ha hb (Nat.zero_add _) (s.within_behind next) (find.within_behind 1)).1
  obtain ⟨hread, hwanted⟩ := strncmpFrom_within (n := needle.length) ha hb (Nat.zero_add _)
    (Nat.zero_add _) (s.within_behind next) (find.within_behind 1)
  refine ⟨?_, hwithin.resume fun index hindex => ?_, hfindWithin.resume fun index hindex => ?_⟩
  · rw [hresult, comparison_eq_zero, List.take_length, List.prefix_iff_eq_take]
    exact eq_comm
  · have := hread index hindex
    omega
  · have := hwanted index hindex
    omega

/-- The rounds of the outer loop find the first place in the rest of the string. -/
theorem strstrFrom_spec {needle rest : List UInt8} {last : Nat}
    (hs : StringAt s.cells index rest) (hfind : StringAt find.cells 1 needle)
    (hlast : index + rest.length = last) (hfuel : rest.length < fuel)
    (hwithin : s.Within (· ≤ last)) (hfindWithin : find.Within (· ≤ needle.length + 1)) :
    ∃ found s' find',
      strstrFrom c needle.length fuel s find index = some (found.map (index + ·), s', find') ∧
      Finds (c :: needle) rest found ∧ s'.Within (· ≤ last) ∧
      find'.Within (· ≤ needle.length + 1) := by
  induction fuel generalizing rest s find index with
  | zero => omega
  | succ fuel ih =>
    obtain ⟨scanned, after, hscan, hscanned, hcells, hafter⟩ := scanFor_spec hs hlast hfuel hwithin
    cases hscanned with
    | absent habsent =>
      have hnone := (finds_nil (List.cons_ne_nil c needle)).skip_all habsent
      rw [List.append_nil] at hnone
      rw [strstrFrom_absent hscan]
      exact ⟨none, after, find, rfl, hnone, hafter, hfindWithin⟩
    | @reached before behind hbefore =>
      rw [List.length_append, List.length_cons] at hlast hfuel
      have hbehind := (StringAt.cons_iff.mp hs.back).2.2
      rw [← hcells] at hbehind
      generalize hnext : index + before.length + 1 = next at hbehind hscan
      obtain ⟨hcompared, hs', hfind'⟩ := compared_iff hbehind hfind (by omega) hafter hfindWithin
      rw [strstrFrom_reached hscan]
      generalize strncmpFrom (after.behind next) (find.behind 1) 0 needle.length = compared at *
      dsimp only
      by_cases hsame : needle <+: behind
      · rw [if_neg (not_not.mpr (hcompared.mpr hsame))]
        have hstarts : c :: needle <+: c :: behind := List.cons_prefix_cons.mpr ⟨rfl, hsame⟩
        have hplace := (Finds.here hstarts).skip_all hbefore
        refine ⟨_, _, _, ?_, hplace, hs', hfind'⟩
        rw [← hnext, Option.map_some, Option.map_some, Nat.zero_add, Nat.add_sub_cancel]
      · rw [if_pos (mt hcompared.mp hsame)]
        have hnot : ¬ c :: needle <+: c :: behind := by
          intro hstarts
          exact hsame (List.cons_prefix_cons.mp hstarts).2
        obtain ⟨found, s', find', hrun, hfound, hdone⟩ :=
          @ih next (after.resume next compared.2.1) (find.resume 1 compared.2.2) behind hbehind
            hfind (by omega) (by omega) hs' hfind'
        refine ⟨_, s', find', ?_, (hfound.skip hnot).skip_all hbefore, hdone⟩
        have hposition : (next + ·) = ((index + ·) ∘ (· + before.length)) ∘ (· + 1) := by
          funext position
          simp only [Function.comp_apply]
          omega
        rw [hrun, Option.map_map, Option.map_map, hposition]

end rounds

theorem strstr_eq (fuel : Nat) (s find : Logged UInt8) :
    strstr fuel s find =
      if find.cells 0 ≠ 0 then
        (strlen fuel ((find.load 0).2.behind 1)).bind fun (len, part) =>
          strstrFrom (find.cells 0) len fuel s ((find.load 0).2.resume 1 part) 0
      else some (some 0, s, (find.load 0).2) := rfl

/-- `strstr` returns the first place where the needle occurs, null if there is none, and reads
neither string behind its terminator. -/
theorem strstr_finds {haystack needle : List UInt8} {s find : Memory UInt8} {fuel : Nat}
    (hs : StringAt s 0 haystack) (hfind : StringAt find 0 needle)
    (hfuel : haystack.length < fuel) (hfindFuel : needle.length < fuel) :
    ∃ found s' find', strstr fuel ⟨s, []⟩ ⟨find, []⟩ = some (found, s', find') ∧
      Finds needle haystack found ∧ s'.Within (· ≤ haystack.length) ∧
      find'.Within (· ≤ needle.length) := by
  have hfresh : Logged.Within ⟨s, []⟩ (· ≤ haystack.length) := Logged.within_fresh s
  have hread : (Logged.load ⟨find, []⟩ 0).2.Within (· ≤ needle.length) :=
    (Logged.within_fresh find).load (Nat.zero_le _)
  cases needle with
  | nil =>
    rw [StringAt.nil_iff] at hfind
    refine ⟨some 0, ⟨s, []⟩, _, ?_, Finds.here List.nil_prefix, hfresh, hread⟩
    rw [strstr_eq, if_neg (not_not.mpr hfind)]
  | cons c needle =>
    obtain ⟨hfirst, hnonzero, hrest⟩ := StringAt.cons_iff.mp hfind
    rw [List.length_cons] at hfindFuel hread
    obtain ⟨part, hlen, hpart⟩ := @strlen_spec needle fuel
      ((Logged.load ⟨find, []⟩ 0).2.behind 1) (StringAt.behind.mpr hrest) (by omega)
      (Logged.within_fresh _)
    have hfindWithin := hread.resume fun i hi =>
      (show 1 + i ≤ needle.length + 1 by have := hpart i hi; omega)
    obtain ⟨found, s', find', hrun, hfound, hdone⟩ := @strstrFrom_spec c fuel 0 ⟨s, []⟩
      ((Logged.load ⟨find, []⟩ 0).2.resume 1 part) needle haystack haystack.length hs hrest
      (Nat.zero_add _) hfuel hfresh hfindWithin
    refine ⟨found, s', find', ?_, hfound, hdone⟩
    have hcharacter : (Logged.mk find []).cells 0 = c := hfirst
    rw [strstr_eq, hcharacter, if_pos hnonzero, hlen, Option.bind_some]
    exact hrun.trans (by simp)

/-- `"ab"` in `"aab"`, where the first `'a'` begins no occurrence. -/
theorem strstr_finds_overlap :
    ∃ found s' find',
      strstr 4 ⟨Memory.ofText [0x61, 0x61, 0x62], []⟩ ⟨Memory.ofText [0x61, 0x62], []⟩ =
        some (found, s', find') ∧
      @Finds UInt8 [0x61, 0x62] [0x61, 0x61, 0x62] found ∧ s'.Within (· ≤ 3) ∧
      find'.Within (· ≤ 2) :=
  @strstr_finds [0x61, 0x61, 0x62] [0x61, 0x62] _ _ 4 (stringAt_ofText (by decide))
    (stringAt_ofText (by decide)) (by decide) (by decide)

example :
    (strstr 4 ⟨Memory.ofText [0x61, 0x61, 0x62], []⟩ ⟨Memory.ofText [0x61, 0x62], []⟩).map (·.1) =
      some (some 1) := by decide

end Rodos.Support
