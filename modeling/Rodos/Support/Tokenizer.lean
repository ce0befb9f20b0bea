import Rodos.Library.Segments

/-! The `Tokenizer` of `scanf-substitue.h`. The buffer is the array of the string with its
terminator as the last byte; an access beside it is `none`. -/
namespace Rodos.Support
open Library

structure Tokenizer where
  ptr : Option Nat := none
  separators : List UInt8 := [0x20, 0x2C, 0x3B, 0x0A] -- " ,;\n"

/-- The loop over `separators`, which ends at the terminator of that string. -/
def isSeparator (c : UInt8) : List UInt8 → Bool
  | [] => false
  | separator :: separators =>
    if separator = 0 then false
    else if c = separator then true
    else isSeparator c separators

/-- `while(isSeparator(*ptr)) ptr++;` -/
def skipSeparators (separators buffer : List UInt8) (ptr : Nat) : Option Nat :=
  if h : ptr < buffer.length then
    if isSeparator buffer[ptr] separators then skipSeparators separators buffer (ptr + 1)
    else some ptr
  else none
termination_by buffer.length - ptr

/-- `while(*ptr != 0 && !isSeparator(*ptr)) ptr++;` -/
def skipToken (separators buffer : List UInt8) (ptr : Nat) : Option Nat :=
  if h : ptr < buffer.length then
    if buffer[ptr] ≠ 0 ∧ isSeparator buffer[ptr] separators = false then
      skipToken separators buffer (ptr + 1)
    else some ptr
  else none
termination_by buffer.length - ptr

def storeByte (buffer : List UInt8) (ptr : Nat) (value : UInt8) : Option (List UInt8) :=
  if ptr < buffer.length then some (buffer.set ptr value) else none

namespace Tokenizer

def init (self : Tokenizer) (s : Nat) : Tokenizer := { self with ptr := some s }

def setSeparators (self : Tokenizer) (separators : List UInt8) : Tokenizer :=
  { self with separators := separators }

def isValid (buffer : List UInt8) (self : Tokenizer) : Option Bool :=
  match self.ptr with
  | none => some false
  | some ptr => buffer[ptr]?.map (· != 0)

/-- The part of `next` behind the test of `isValid`: the returned pointer, the buffer and the
tokenizer. -/
def takeToken (buffer : List UInt8) (self : Tokenizer) (ptr : Nat) :
    Option (Option Nat × List UInt8 × Tokenizer) := do
  let ptr ← skipSeparators self.separators buffer ptr
  let c ← buffer[ptr]?
  if c = 0 then
    some (none, buffer, { self with ptr := some ptr })
  else
    let retVal := ptr
    let ptr ← skipToken self.separators buffer ptr
    let c ← buffer[ptr]?
    if c ≠ 0 then
      let buffer ← storeByte buffer ptr 0
      some (some retVal, buffer, { self with ptr := some (ptr + 1) })
    else
      some (some retVal, buffer, { self with ptr := some ptr })

def next (buffer : List UInt8) (self : Tokenizer) :
    Option (Option Nat × List UInt8 × Tokenizer) := do
  if ← self.isValid buffer then
    let ptr ← self.ptr
    self.takeToken buffer ptr
  else some (none, buffer, self)

/-- What a number of calls return, and what they leave behind. -/
def calls : Nat → List UInt8 → Tokenizer → Option (List (Option Nat) × List UInt8 × Tokenizer)
  | 0, buffer, self => some ([], buffer, self)
  | count + 1, buffer, self => do
    let (result, buffer, self) ← self.next buffer
    let (results, buffer, self) ← self.calls count buffer
    some (result :: results, buffer, self)

end Tokenizer

@[simp] theorem isSeparator_zero (separators : List UInt8) : isSeparator 0 separators = false := by
  induction separators with
  | nil => rfl
  | cons separator separators ih =>
    rw [isSeparator]
    split
    · rfl
    · next hseparator => rw [if_neg (Ne.symm hseparator), ih]

/-- From `start` on the buffer is still what the string was. -/
structure Untouched (buffer text : List UInt8) (start : Nat) : Prop where
  length : buffer.length = text.length + 1
  rest : ∀ index, start ≤ index → index < text.length → buffer[index]? = text[index]?
  terminated : buffer[text.length]? = some 0

section walk

variable {buffer text separators : List UInt8} {start : Nat}

theorem Untouched.mono (h : Untouched buffer text start) {later : Nat} (hlater : start ≤ later) :
    Untouched buffer text later :=
  ⟨h.length, fun index hindex => h.rest index (by omega), h.terminated⟩

theorem Untouched.getElem_eq (h : Untouched buffer text start) (hstart : start < text.length)
    (hbuffer : start < buffer.length) : buffer[start] = text[start] := by
  have hrest := h.rest start (Nat.le_refl _) hstart
  rw [List.getElem?_eq_getElem hbuffer, List.getElem?_eq_getElem hstart] at hrest
  exact Option.some.inj hrest

theorem Untouched.getElem_end (h : Untouched buffer text start)
    (hbuffer : text.length < buffer.length) : buffer[text.length] = 0 := by
  have hterminated := h.terminated
  rw [List.getElem?_eq_getElem hbuffer] at hterminated
  exact Option.some.inj hterminated

theorem Untouched.cell (h : Untouched buffer text start) {index : Nat} (hlow : start ≤ index)
    (hindex : index < text.length) : buffer[index]? = some text[index] := by
  rw [h.rest index hlow hindex, List.getElem?_eq_getElem hindex]

theorem getElem_ne_zero (hnonzero : 0 ∉ text) {index : Nat} (hindex : index < text.length) :
    text[index] ≠ 0 := by
  intro hzero
  apply hnonzero
  rw [← hzero]
  exact List.getElem_mem hindex

theorem skipSeparators_eq (h : Untouched buffer text start) (hstart : start ≤ text.length) :
    skipSeparators separators buffer start =
      some (firstFrom (fun c => !isSeparator c separators) text start) := by
  induction hleft : text.length - start generalizing start with
  | zero =>
    obtain rfl : start = text.length := by omega
    have hbuffer : text.length < buffer.length := by rw [h.length]; omega
    rw [skipSeparators, dif_pos hbuffer, firstFrom, dif_neg (Nat.lt_irrefl _),
      h.getElem_end hbuffer]
    simp
  | succ left ih =>
    have hinside : start < text.length := by omega
    have hbuffer : start < buffer.length := by rw [h.length]; omega
    rw [skipSeparators, dif_pos hbuffer, firstFrom, dif_pos hinside,
      h.getElem_eq hinside hbuffer]
    cases hseparator : isSeparator text[start] separators with
    | true => simpa using ih (h.mono (Nat.le_succ start)) hinside (by omega)
    | false => simp

theorem skipToken_eq (h : Untouched buffer text start) (hnonzero : 0 ∉ text)
    (hstart : start ≤ text.length) :
    skipToken separators buffer start =
      some (firstFrom (fun c => isSeparator c separators) text start) := by
  induction hleft : text.length - start generalizing start with
  | zero =>
    obtain rfl : start = text.length := by omega
    have hbuffer : text.length < buffer.length := by rw [h.length]; omega
    rw [skipToken, dif_pos hbuffer, firstFrom, dif_neg (Nat.lt_irrefl _),
      h.getElem_end hbuffer]
    simp
  | succ left ih =>
    have hinside : start < text.length := by omega
    have hbuffer : start < buffer.length := by rw [h.length]; omega
    have hcharacter := getElem_ne_zero hnonzero hinside
    rw [skipToken, dif_pos hbuffer, firstFrom, dif_pos hinside, h.getElem_eq hinside hbuffer]
    cases hseparator : isSeparator text[start] separators with
    | true => simp
    | false => simpa [hcharacter] using ih (h.mono (Nat.le_succ start)) hinside (by omega)

end walk

/-- At this place of the buffer lies a string. -/
structure HoldsString (buffer : List UInt8) (start : Nat) (token : List UInt8) : Prop where
  characters : ∀ index < token.length, buffer[start + index]? = token[index]?
  terminated : buffer[start + token.length]? = some 0
  nonzero : 0 ∉ token

/-- The characters of the text that lie in a segment. -/
def characters (text : List UInt8) (segment : Nat × Nat) : List UInt8 :=
  (text.drop segment.1).take (segment.2 - segment.1)

theorem HoldsString.congr {buffer other : List UInt8} {start : Nat} {token : List UInt8}
    (h : HoldsString buffer start token)
    (hsame : ∀ index, start ≤ index → index ≤ start + token.length →
      other[index]? = buffer[index]?) : HoldsString other start token := by
  refine ⟨fun index hindex => ?_, ?_, h.nonzero⟩
  · rw [hsame _ (by omega) (by omega), h.characters index hindex]
  · rw [hsame _ (by omega) (by omega), h.terminated]

section next

variable {buffer text : List UInt8} {start : Nat} {self : Tokenizer}

/-- The separators of this tokenizer as a predicate. -/
def Tokenizer.separates (self : Tokenizer) (c : UInt8) : Bool := isSeparator c self.separators

theorem length_characters {segment : Nat × Nat}
    (h : IsSegment self.separates text segment.1 segment.2) :
    (characters text segment).length = segment.2 - segment.1 := by
  have hinside := h.inside
  rw [characters, List.length_take, List.length_drop]
  omega

/-- The place of a segment, with a zero behind it. -/
theorem holdsString_of_segment (h : IsSegment self.separates text first last)
    (hnonzero : 0 ∉ text) (hsame : ∀ index, first ≤ index → index < last →
      buffer[index]? = text[index]?) (hend : buffer[last]? = some 0) :
    HoldsString buffer first (characters text (first, last)) := by
  have hlength : (characters text (first, last)).length = last - first := length_characters h
  have hpositive := h.nonempty
  refine ⟨fun index hindex => ?_, ?_, fun hzero => hnonzero ?_⟩
  · rw [hsame _ (by omega) (by omega), characters, List.getElem?_take, if_pos (by omega),
      List.getElem?_drop]
  · rw [hlength, Nat.add_sub_of_le (by omega), hend]
  · exact List.mem_of_mem_drop (List.mem_of_mem_take hzero)

theorem segmentsFrom_end {isSeparator : UInt8 → Bool} (hstart : text.length ≤ start) :
    segmentsFrom isSeparator text start = [] := by
  have hfirst := @le_firstFrom _ text (fun c => !isSeparator c) start
  rw [segmentsFrom, if_neg (by omega)]

/-- What a call that returns a token does. Only the byte behind the token is written, and only if
it is a separator. -/
structure Taken (buffer text : List UInt8) (tokenizer : Tokenizer) (start : Nat)
    (segment : Nat × Nat) (rest : List (Nat × Nat)) (after : List UInt8) (ptr : Nat) :
    Prop where
  ptr_le : ptr ≤ text.length
  untouched : Untouched after text ptr
  segments : segmentsFrom tokenizer.separates text ptr = rest
  holds : HoldsString after segment.1 (characters text segment)
  kept : ∀ index, index < start ∨ index = text.length → after[index]? = buffer[index]?
  first_ge : start ≤ segment.1
  behind : ∀ index ≤ segment.2, index < ptr ∨ index = text.length

theorem next_eq_takeToken (h : Untouched buffer text start) (hnonzero : 0 ∉ text)
    (hstart : start < text.length) (hptr : self.ptr = some start) :
    self.next buffer = self.takeToken buffer start := by
  have hcell := h.cell (Nat.le_refl _) hstart
  have hcharacter := getElem_ne_zero hnonzero hstart
  simp [Tokenizer.next, Tokenizer.isValid, hptr, hcell, hcharacter]

/-- At the terminator a tokenizer is not valid any more. -/
theorem next_end (h : Untouched buffer text text.length) (hptr : self.ptr = some text.length) :
    self.next buffer = some (none, buffer, self) := by
  simp [Tokenizer.next, Tokenizer.isValid, hptr, h.terminated]

/-- Without a segment left the call returns null and stands at the terminator. -/
theorem next_none (h : Untouched buffer text start) (hnonzero : 0 ∉ text)
    (hstart : start ≤ text.length) (hptr : self.ptr = some start)
    (hsegments : segmentsFrom self.separates text start = []) :
    self.next buffer = some (none, buffer, { self with ptr := some text.length }) := by
  obtain rfl | hinside := Nat.eq_or_lt_of_le hstart
  · rw [next_end h hptr, ← hptr]
  · have hfirst : firstFrom (fun c => !isSeparator c self.separators) text start =
        text.length := by
      rw [segmentsFrom] at hsegments
      split at hsegments
      · cases hsegments
      · next hnext => exact Nat.le_antisymm (firstFrom_le hstart) (Nat.not_lt.mp hnext)
    rw [next_eq_takeToken h hnonzero hinside hptr, Tokenizer.takeToken, skipSeparators_eq h hstart,
      hfirst]
    simp [h.terminated]

/-- A token that the terminator ends: nothing is written. -/
theorem taken_at_end {first : Nat} (h : Untouched buffer text start) (hnonzero : 0 ∉ text)
    (hlow : start ≤ first) (hsegment : IsSegment self.separates text first text.length) :
    Taken buffer text self start (first, text.length)
      (segmentsFrom self.separates text (text.length + 1)) buffer text.length := by
  have hstart : start ≤ text.length := Nat.le_of_lt (Nat.lt_of_le_of_lt hlow hsegment.nonempty)
  refine ⟨Nat.le_refl _, h.mono hstart, ?_, ?_, fun index _ => rfl, hlow, ?_⟩
  · rw [segmentsFrom_end (Nat.le_refl _), segmentsFrom_end (Nat.le_succ _)]
  · exact holdsString_of_segment hsegment hnonzero
      (fun index hindex => h.rest index (by omega)) h.terminated
  · intro index hindex
    exact Nat.lt_or_eq_of_le hindex

/-- A token with a separator behind it, which becomes the terminator of the token. -/
theorem taken_before_separator {first last : Nat} (h : Untouched buffer text start)
    (hnonzero : 0 ∉ text) (hlow : start ≤ first)
    (hsegment : IsSegment self.separates text first last) (hbefore : last < text.length) :
    Taken buffer text self start (first, last) (segmentsFrom self.separates text (last + 1))
      (buffer.set last 0) (last + 1) := by
  have hpositive := hsegment.nonempty
  have hroom : last < buffer.length := by rw [h.length]; omega
  have hother {index : Nat} (hne : last ≠ index) :
      (buffer.set last 0)[index]? = buffer[index]? := List.getElem?_set_ne hne
  refine ⟨hbefore, ⟨?_, ?_, ?_⟩, rfl, ?_, ?_, hlow, ?_⟩
  · rw [List.length_set, h.length]
  · intro index hindex hlength
    rw [hother (by omega), h.rest index (by omega) hlength]
  · rw [hother (by omega), h.terminated]
  · apply holdsString_of_segment hsegment hnonzero
    · intro index hindex hstopped
      rw [hother (by omega), h.rest index (by omega) (by omega)]
    · rw [List.getElem?_set_self hroom]
  · intro index hindex
    exact hother (by omega)
  · intro index hindex
    exact .inl (Nat.lt_succ_of_le hindex)

theorem next_some (h : Untouched buffer text start) (hnonzero : 0 ∉ text)
    (hstart : start ≤ text.length) (hptr : self.ptr = some start) {segment : Nat × Nat}
    {rest : List (Nat × Nat)}
    (hsegments : segmentsFrom self.separates text start = segment :: rest)
    (hsegment : IsSegment self.separates text segment.1 segment.2) :
    ∃ after ptr, self.next buffer = some (some segment.1, after, { self with ptr := some ptr }) ∧
      Taken buffer text self start segment rest after ptr := by
  obtain ⟨first, last⟩ := segment
  rw [segmentsFrom] at hsegments
  split at hsegments
  case isFalse hnext => cases hsegments
  case isTrue hnext =>
    obtain ⟨hpair, hrest⟩ := List.cons.inj hsegments
    obtain ⟨hfirst, hlast⟩ := Prod.mk.inj hpair
    rw [hfirst] at hlast hnext hrest
    rw [hlast] at hrest
    have hlow : start ≤ first := hfirst ▸ le_firstFrom start
    have hpositive : first < last := hsegment.nonempty
    have hinside : last ≤ text.length := hsegment.inside
    have hfound : skipSeparators self.separators buffer start = some first := by
      rw [skipSeparators_eq h hstart]
      exact congrArg some hfirst
    have hstop : skipToken self.separators buffer first = some last := by
      rw [skipToken_eq (h.mono hlow) hnonzero (by omega)]
      exact congrArg some hlast
    have hcell := h.cell hlow hnext
    have hcharacter := getElem_ne_zero hnonzero hnext
    rw [next_eq_takeToken h hnonzero (by omega) hptr, ← hrest]
    by_cases hend : last = text.length
    · subst hend
      refine ⟨buffer, text.length, ?_, taken_at_end h hnonzero hlow hsegment⟩
      simp [Tokenizer.takeToken, hfound, hcell, hcharacter, hstop, h.terminated]
    · have hbefore : last < text.length := by omega
      have hseparator := h.cell (show start ≤ last by omega) hbefore
      have hvisible := getElem_ne_zero hnonzero hbefore
      have hstored : storeByte buffer last 0 = some (buffer.set last 0) :=
        if_pos (by rw [h.length]; omega)
      refine ⟨buffer.set last 0, last + 1, ?_,
        taken_before_separator h hnonzero hlow hsegment hbefore⟩
      simp [Tokenizer.takeToken, hfound, hcell, hcharacter, hstop, hseparator, hvisible, hstored]

end next

section calls

variable {buffer text : List UInt8} {start : Nat} {self : Tokenizer}

/-- What a run of calls returns, and what stays of the tokens in the buffer. -/
structure Results (text : List UInt8) (buffer : List UInt8) (start count : Nat)
    (segments : List (Nat × Nat)) (results : List (Option Nat)) (after : List UInt8) : Prop where
  returned : ∀ call < count, results[call]? = some (segments[call]?.map Prod.fst)
  tokens : ∀ call < count, ∀ segment ∈ segments[call]?,
    HoldsString after segment.1 (characters text segment)
  kept : ∀ index, index < start ∨ index = text.length → after[index]? = buffer[index]?

theorem results_none (buffer text : List UInt8) (start : Nat) (segments : List (Nat × Nat)) :
    Results text buffer start 0 segments [] buffer := by
  refine ⟨?_, ?_, fun index _ => rfl⟩
  · intro call hcall
    exact absurd hcall (Nat.not_lt_zero call)
  · intro call hcall
    exact absurd hcall (Nat.not_lt_zero call)

/-- A call that returns null, in front of others that do. -/
theorem Results.null {count : Nat} {results : List (Option Nat)} {after : List UInt8}
    (h : Results text buffer text.length count [] results after) (hstart : start ≤ text.length) :
    Results text buffer start (count + 1) [] (none :: results) after := by
  refine ⟨?_, ?_, ?_⟩
  · intro call hcall
    cases call with
    | zero => rfl
    | succ call => simpa using h.returned call (by omega)
  · intro call _ segment hsegment
    simp at hsegment
  · intro index hindex
    exact h.kept index (by omega)

/-- A call that returns a token, in front of the calls for the later ones. -/
theorem Results.token {segment : Nat × Nat} {rest : List (Nat × Nat)} {written after : List UInt8}
    {ptr count : Nat} {results : List (Option Nat)}
    (h : Results text written ptr count rest results after)
    (htaken : Taken buffer text self start segment rest written ptr)
    (hsegment : IsSegment self.separates text segment.1 segment.2) :
    Results text buffer start (count + 1) (segment :: rest) (some segment.1 :: results) after := by
  have hnonempty := hsegment.nonempty
  have hfirst := htaken.first_ge
  refine ⟨?_, ?_, ?_⟩
  · intro call hcall
    cases call with
    | zero => rfl
    | succ call => simpa using h.returned call (by omega)
  · intro call hcall later hlater
    cases call with
    | zero =>
      obtain rfl : segment = later := by simpa using hlater
      have hlength := length_characters hsegment
      apply htaken.holds.congr
      intro index hlow hhigh
      apply h.kept
      exact htaken.behind index (by omega)
    | succ call => exact h.tokens call (by omega) later (by simpa using hlater)
  · intro index hindex
    have hbefore : index < ptr ∨ index = text.length := by
      obtain hlow | hend := hindex
      · exact htaken.behind index (by omega)
      · exact .inr hend
    rw [h.kept index hbefore, htaken.kept index hindex]

theorem calls_spec (h : Untouched buffer text start) (hnonzero : 0 ∉ text)
    (hstart : start ≤ text.length) (hptr : self.ptr = some start) {segments : List (Nat × Nat)}
    (hlist : segmentsFrom self.separates text start = segments)
    (hsegments : ∀ segment ∈ segments, IsSegment self.separates text segment.1 segment.2)
    (count : Nat) :
    ∃ results after final, self.calls count buffer = some (results, after, final) ∧
      Results text buffer start count segments results after := by
  induction count generalizing buffer start self segments with
  | zero => exact ⟨[], buffer, self, rfl, results_none buffer text start segments⟩
  | succ count ih =>
    cases segments with
    | nil =>
      have hnext := next_none h hnonzero hstart hptr hlist
      have hend : segmentsFrom self.separates text text.length = [] :=
        segmentsFrom_end (Nat.le_refl _)
      obtain ⟨results, after, final, hcalls, hresults⟩ :=
        @ih buffer text.length { self with ptr := some text.length } (h.mono hstart)
          (Nat.le_refl _) rfl [] hend hsegments
      refine ⟨none :: results, after, final, ?_, hresults.null hstart⟩
      simp [Tokenizer.calls, hnext, hcalls]
    | cons segment rest =>
      have hsegment := hsegments segment List.mem_cons_self
      obtain ⟨written, ptr, hnext, htaken⟩ := next_some h hnonzero hstart hptr hlist hsegment
      obtain ⟨results, after, final, hcalls, hresults⟩ :=
        @ih written ptr { self with ptr := some ptr } htaken.untouched htaken.ptr_le rfl rest
          htaken.segments fun later hlater => hsegments later (List.mem_cons_of_mem segment hlater)
      refine ⟨some segment.1 :: results, after, final, ?_, hresults.token htaken hsegment⟩
      simp [Tokenizer.calls, hnext, hcalls]

end calls

/-- Called again and again, `next` returns the places of the tokens in order and then null. Every
token returned is a string of its own and stays one, and no access leaves the string. -/
theorem next_yields_tokens {text : List UInt8} (hnonzero : 0 ∉ text) (tokenizer : Tokenizer) :
    ∃ segments : List (Nat × Nat),
      (segments.Pairwise fun segment later => segment.2 < later.1) ∧
      (∀ first last, (first, last) ∈ segments ↔
        IsSegment (fun c => isSeparator c tokenizer.separators) text first last) ∧
      ∀ count, ∃ results buffer final,
        (tokenizer.init 0).calls count (text ++ [0]) = some (results, buffer, final) ∧
        (∀ call < count, results[call]? = some (segments[call]?.map Prod.fst)) ∧
        ∀ call < count, ∀ segment ∈ segments[call]?,
          HoldsString buffer segment.1 (characters text segment) := by
  have hboundary : Boundary (tokenizer.init 0).separates text 0 := .inl rfl
  have hmem := mem_segmentsFrom hboundary
  have huntouched : Untouched (text ++ [0]) text 0 := by
    refine ⟨by simp, fun index _ hindex => List.getElem?_append_left hindex, ?_⟩
    rw [List.getElem?_append_right (Nat.le_refl _)]
    simp
  refine ⟨segmentsFrom (tokenizer.init 0).separates text 0, pairwise_segmentsFrom hboundary,
    fun first last => ?_, fun count => ?_⟩
  · rw [hmem first last]
    exact and_iff_left (Nat.zero_le first)
  · obtain ⟨results, buffer, final, hcalls, hresults⟩ := calls_spec huntouched hnonzero
      (Nat.zero_le _) rfl rfl (fun segment hsegment => ((hmem _ _).mp hsegment).1) count
    exact ⟨results, buffer, final, hcalls, hresults.returned, hresults.tokens⟩

/-- Four calls on a string with separators before, between and behind two tokens. -/
theorem next_yields_tokens_twice :
    ∃ results buffer final, (({} : Tokenizer).init 0).calls 4
        ([0x20, 0x61, 0x62, 0x2C, 0x2C, 0x63, 0x20] ++ [0]) = some (results, buffer, final) ∧
      ∃ result, results[3]? = some result := by
  obtain ⟨segments, -, -, hruns⟩ := next_yields_tokens
    (by decide : (0 : UInt8) ∉ [0x20, 0x61, 0x62, 0x2C, 0x2C, 0x63, 0x20]) {}
  obtain ⟨results, buffer, final, hcalls, hreturned, -⟩ := hruns 4
  exact ⟨results, buffer, final, hcalls, _, hreturned 3 (by decide)⟩

end Rodos.Support
