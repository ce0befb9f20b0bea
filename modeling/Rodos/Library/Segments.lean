import Mathlib.Tactic.Common

/-! The maximal stretches of a list without separators, found by one pass from its start. -/
namespace Rodos.Library

variable {α : Type} (isSeparator : α → Bool) (text : List α)

/-- The first index from `start` on whose element satisfies the predicate, or the length. -/
def firstFrom (predicate : α → Bool) (text : List α) (start : Nat) : Nat :=
  if h : start < text.length then
    if predicate text[start] then start else firstFrom predicate text (start + 1)
  else start
termination_by text.length - start

/-- The elements from `first` on and before `last` are no separators, and there is no longer stretch
around them. -/
structure IsSegment (first last : Nat) : Prop where
  nonempty : first < last
  inside : last ≤ text.length
  clean : ∀ index a, first ≤ index → index < last → text[index]? = some a → isSeparator a = false
  left : first = 0 ∨ ∃ a, text[first - 1]? = some a ∧ isSeparator a = true
  right : last = text.length ∨ ∃ a, text[last]? = some a ∧ isSeparator a = true

section firstFrom

variable {predicate : α → Bool} {text}

theorem le_firstFrom (start : Nat) : start ≤ firstFrom predicate text start := by
  fun_induction firstFrom predicate text start with
  | case1 start h hpredicate => exact Nat.le_refl start
  | case2 start h hpredicate ih => omega
  | case3 start h => exact Nat.le_refl start

theorem firstFrom_le {start : Nat} (hstart : start ≤ text.length) :
    firstFrom predicate text start ≤ text.length := by
  fun_induction firstFrom predicate text start with
  | case1 start h hpredicate => exact hstart
  | case2 start h hpredicate ih => exact ih h
  | case3 start h => exact hstart

theorem firstFrom_passed {start index : Nat} {a : α} (hlow : start ≤ index)
    (hhigh : index < firstFrom predicate text start) (ha : text[index]? = some a) :
    predicate a = false := by
  fun_induction firstFrom predicate text start with
  | case1 start h hpredicate => omega
  | case2 start h hpredicate ih =>
    obtain rfl | hlater := Nat.eq_or_lt_of_le hlow
    · rw [List.getElem?_eq_getElem h, Option.some.injEq] at ha
      rw [← ha]
      exact Bool.not_eq_true _ ▸ hpredicate
    · exact ih hlater hhigh
  | case3 start h => omega

theorem firstFrom_found {start : Nat} (hfound : firstFrom predicate text start < text.length) :
    ∃ a, text[firstFrom predicate text start]? = some a ∧ predicate a = true := by
  fun_induction firstFrom predicate text start with
  | case1 start h hpredicate => exact ⟨text[start], List.getElem?_eq_getElem h, hpredicate⟩
  | case2 start h hpredicate ih => exact ih hfound
  | case3 start h => exact absurd hfound h

end firstFrom

/-- The segments from `start` on, in order. -/
def segmentsFrom (start : Nat) : List (Nat × Nat) :=
  let first := firstFrom (fun a => !isSeparator a) text start
  if first < text.length then
    let last := firstFrom isSeparator text first
    (first, last) :: segmentsFrom (last + 1)
  else []
termination_by text.length - start
decreasing_by
  have hfirst := @le_firstFrom _ text (fun a => !isSeparator a) start
  have hlast := @le_firstFrom _ text isSeparator
    (firstFrom (fun a => !isSeparator a) text start)
  omega

variable {isSeparator text}

/-- No segment can go on beyond `start`. -/
def Boundary (isSeparator : α → Bool) (text : List α) (start : Nat) : Prop :=
  start = 0 ∨ text.length < start ∨ ∃ a, text[start - 1]? = some a ∧ isSeparator a = true

/-- What the pass finds next is a segment, and none begins before it. -/
theorem isSegment_first {start : Nat} (hboundary : Boundary isSeparator text start)
    (hfirst : firstFrom (fun a => !isSeparator a) text start < text.length) :
    IsSegment isSeparator text (firstFrom (fun a => !isSeparator a) text start)
      (firstFrom isSeparator text (firstFrom (fun a => !isSeparator a) text start)) := by
  set first := firstFrom (fun a => !isSeparator a) text start with hdef
  have hstart : start ≤ first := le_firstFrom start
  obtain ⟨a, ha, hclean⟩ := firstFrom_found hfirst
  have hnext : first ≤ firstFrom isSeparator text first := le_firstFrom first
  have hne : firstFrom isSeparator text first ≠ first := by
    intro heq
    obtain ⟨b, hb, hseparator⟩ := @firstFrom_found _ text isSeparator first (by omega)
    rw [heq, ha, Option.some.injEq] at hb
    rw [← hb] at hseparator
    rw [hseparator] at hclean
    exact absurd hclean Bool.false_ne_true
  refine ⟨by omega, firstFrom_le (by omega), fun index b hlow hhigh hb => ?_, ?_, ?_⟩
  · exact firstFrom_passed hlow hhigh hb
  · obtain hsame | hlater := Nat.eq_or_lt_of_le hstart
    · obtain hzero | hbehind | hseparator := hboundary
      · exact .inl (by omega)
      · omega
      · exact .inr (hsame ▸ hseparator)
    · have hinside : first - 1 < text.length := by omega
      have hpassed := firstFrom_passed (by omega : start ≤ first - 1)
        (by omega : first - 1 < firstFrom (fun a => !isSeparator a) text start)
        (List.getElem?_eq_getElem hinside)
      exact .inr ⟨_, List.getElem?_eq_getElem hinside, by simpa using hpassed⟩
  · by_cases hlast : firstFrom isSeparator text first < text.length
    · exact .inr (firstFrom_found hlast)
    · have hle : firstFrom isSeparator text first ≤ text.length := firstFrom_le (by omega)
      exact .inl (by omega)

theorem boundary_last (first : Nat) :
    Boundary isSeparator text (firstFrom isSeparator text first + 1) := by
  by_cases hlast : firstFrom isSeparator text first < text.length
  · exact .inr (.inr (firstFrom_found hlast))
  · exact .inr (.inl (by omega))

namespace IsSegment

variable {first last first' last' : Nat}

theorem getElem?_first (h : IsSegment isSeparator text first last) :
    ∃ a, text[first]? = some a ∧ isSeparator a = false := by
  have hlow := h.nonempty
  have hinside : first < text.length := by
    have := h.inside
    omega
  exact ⟨_, List.getElem?_eq_getElem hinside,
    h.clean first _ (Nat.le_refl _) hlow (List.getElem?_eq_getElem hinside)⟩

/-- A segment ends at the first separator behind its start. -/
theorem last_eq (h : IsSegment isSeparator text first last) :
    last = firstFrom isSeparator text first := by
  have hlow := h.nonempty
  have hinside := h.inside
  have hle : firstFrom isSeparator text first ≤ text.length := firstFrom_le (by omega)
  apply Nat.le_antisymm
  · by_contra hbeyond
    obtain ⟨a, ha, hseparator⟩ := @firstFrom_found _ text isSeparator first (by omega)
    rw [h.clean _ a (le_firstFrom first) (by omega) ha] at hseparator
    exact absurd hseparator Bool.false_ne_true
  · by_contra hbeyond
    obtain hend | ⟨a, ha, hseparator⟩ := h.right
    · omega
    · have hpassed : isSeparator a = false :=
        firstFrom_passed (by omega) (Nat.not_le.mp hbeyond) ha
      rw [hpassed] at hseparator
      exact absurd hseparator Bool.false_ne_true

/-- Between a place and the first element behind it that is no separator, no segment begins. -/
theorem first_ge (h : IsSegment isSeparator text first last) {start : Nat}
    (hstart : start ≤ first) :
    firstFrom (fun a => !isSeparator a) text start ≤ first := by
  by_contra hbefore
  obtain ⟨a, ha, hclean⟩ := h.getElem?_first
  have hpassed := firstFrom_passed hstart (Nat.not_le.mp hbefore) ha
  rw [hclean] at hpassed
  exact absurd hpassed (by decide)

/-- Behind a segment the next one begins at least one element later. -/
theorem next_ge (h : IsSegment isSeparator text first last)
    (h' : IsSegment isSeparator text first' last') (hlater : first < first') : last < first' := by
  by_contra hinside
  obtain hzero | ⟨a, ha, hseparator⟩ := h'.left
  · omega
  · rw [h.clean _ a (by omega) (by omega) ha] at hseparator
    exact absurd hseparator Bool.false_ne_true

end IsSegment

/-- The pass finds all segments. -/
theorem mem_segmentsFrom {start : Nat} (hboundary : Boundary isSeparator text start)
    (first last : Nat) :
    (first, last) ∈ segmentsFrom isSeparator text start ↔
      IsSegment isSeparator text first last ∧ start ≤ first := by
  fun_induction segmentsFrom isSeparator text start with
  | case1 start next hnext stop ih =>
    have hsegment : IsSegment isSeparator text next stop := isSegment_first hboundary hnext
    have hstart : start ≤ next := le_firstFrom start
    have hpositive := hsegment.nonempty
    rw [List.mem_cons, ih (boundary_last _)]
    constructor
    · rintro (hsame | ⟨hother, hlater⟩)
      · obtain ⟨rfl, rfl⟩ := Prod.mk.inj hsame
        exact ⟨hsegment, hstart⟩
      · exact ⟨hother, by omega⟩
    · rintro ⟨hother, hlow⟩
      obtain hsame | hlater := Nat.eq_or_lt_of_le (hother.first_ge hlow)
      · refine .inl ?_
        rw [hother.last_eq, ← hsame]
      · exact .inr ⟨hother, hsegment.next_ge hother hlater⟩
  | case2 start next hnext =>
    constructor
    · intro hmem
      exact absurd hmem List.not_mem_nil
    · rintro ⟨hother, hlow⟩
      have hfirst := hother.first_ge hlow
      have hnonempty := hother.nonempty
      have hinside := hother.inside
      omega

theorem pairwise_segmentsFrom {start : Nat} (hboundary : Boundary isSeparator text start) :
    (segmentsFrom isSeparator text start).Pairwise fun span later => span.2 < later.1 := by
  fun_induction segmentsFrom isSeparator text start with
  | case1 start next hnext stop ih =>
    have hbehind : Boundary isSeparator text (stop + 1) := boundary_last _
    rw [List.pairwise_cons]
    refine ⟨fun later hlater => ?_, ih hbehind⟩
    exact ((mem_segmentsFrom hbehind later.1 later.2).mp hlater).2
  | case2 start next hnext => exact List.Pairwise.nil

end Rodos.Library
