import Rodos.Api.Fifo
import Mathlib.Logic.Function.Iterate

/-! The accesses of `put` and `get` one by one. What each side knows between two of its accesses
stays true whatever the other side does meanwhile. -/
namespace Rodos.Api
open Library Library.Slots

/-- How far a call of `put` has come, with its locals; the next access gives each its name. -/
inductive PutAt (Value : Type) where
  | called (val : Value)
  | comparing (val : Value) (index : Nat)
  | rejecting
  | addressing (val : Value) (index : Nat)
  | storing (val : Value) (index slot : Nat)
  | publishing (val : Value) (index : Nat)
  | returning (ok : Bool)
deriving DecidableEq

/-- How far a call of `get` has come, with its locals; the next access gives each its name. -/
inductive GetAt (Value : Type) where
  | called
  | comparing (index : Nat)
  | rejecting
  | addressing
  | fetching (slot : Nat)
  | advancing (val : Value)
  | releasing (val : Value) (index : Nat)
  | returning (val : Option Value)
deriving DecidableEq

namespace PutAt

variable {Value : Type} (len : Nat)

/-- The next access of `put`. -/
def step (fifo : Fifo Value) : PutAt Value → Fifo Value × PutAt Value
  | .called val => (fifo, .comparing val (Fifo.advanceIndex len fifo.writeX))
  | .comparing val index =>
    (fifo, if index = fifo.readX then .rejecting else .addressing val index)
  | .rejecting => ({ fifo with putErrors := fifo.putErrors + 1 }, .returning false)
  | .addressing val index => (fifo, .storing val index fifo.writeX)
  | .storing val index slot =>
    ({ fifo with buffer := fifo.buffer.store slot val }, .publishing val index)
  | .publishing _ index => ({ fifo with writeX := index }, .returning true)
  | .returning ok => (fifo, .returning ok)

/-- Uninterrupted, the accesses make up a call. -/
theorem iterate_step (fifo : Fifo Value) (val : Value) :
    (fun call : Fifo Value × PutAt Value => call.2.step len call.1)^[5] (fifo, .called val) =
      ((fifo.put len val).2, .returning (fifo.put len val).1) := by
  simp only [Function.iterate_succ, Function.iterate_zero, Function.comp_apply, id_eq, step,
    Fifo.put]
  by_cases hfull : Fifo.advanceIndex len fifo.writeX = fifo.readX
  · simp only [if_pos hfull]
  · simp only [if_neg hfull]

/-- The value that the next access makes visible to the reader. -/
def publishes : PutAt Value → List Value
  | .publishing val _ => [val]
  | .called _ | .comparing _ _ | .rejecting | .addressing _ _ | .storing _ _ _ | .returning _ => []

/-- What the writer knows. -/
def Knows (fifo : Fifo Value) (passed gotten : List Value) : PutAt Value → Prop
  | .called _ | .rejecting | .returning _ => True
  | .comparing _ index => index = (passed.length + 1) % len
  | .addressing _ index =>
    index = (passed.length + 1) % len ∧ passed.length + 1 < gotten.length + len
  | .storing _ index slot =>
    index = (passed.length + 1) % len ∧ passed.length + 1 < gotten.length + len ∧
      slot = passed.length % len
  | .publishing val index =>
    index = (passed.length + 1) % len ∧ passed.length + 1 < gotten.length + len ∧
      fifo.buffer (passed.length % len) = val

variable {len} {fifo : Fifo Value} {passed gotten : List Value} {place : PutAt Value}

theorem Knows.stable (h : place.Knows len fifo passed gotten) {other : Fifo Value}
    {more : List Value} (hbuffer : other.buffer = fifo.buffer)
    (hmore : gotten.length ≤ more.length) : place.Knows len other passed more := by
  cases place with
  | called | rejecting | returning => trivial
  | comparing => exact h
  | addressing => exact ⟨h.1, by have := h.2; omega⟩
  | storing => exact ⟨h.1, by have := h.2.1; omega, h.2.2⟩
  | publishing => exact ⟨h.1, by have := h.2.1; omega, hbuffer ▸ h.2.2⟩

theorem Knows.step (h : place.Knows len fifo passed gotten)
    (hcarries : fifo.Carries len passed gotten) :
    (place.step len fifo).1.Carries len (passed ++ place.publishes) gotten ∧
      (place.step len fifo).2.Knows len (place.step len fifo).1 (passed ++ place.publishes)
        gotten := by
  cases place with
  | called val =>
    rw [publishes, List.append_nil]
    exact ⟨hcarries, hcarries.next_writeX⟩
  | comparing val index =>
    rw [publishes, List.append_nil]
    refine ⟨hcarries, ?_⟩
    have hindex : index = (passed.length + 1) % len := h
    have hroom := hcarries.room
    have hfull := hcarries.full_iff
    rw [← hindex] at hfull
    rw [PutAt.step]
    by_cases heq : index = fifo.readX
    · rw [if_pos heq]
      trivial
    · rw [if_neg heq]
      exact ⟨hindex, by have := mt hfull.mpr heq; omega⟩
  | rejecting =>
    rw [publishes, List.append_nil]
    exact ⟨hcarries.of_eq rfl rfl rfl, trivial⟩
  | addressing val index =>
    rw [publishes, List.append_nil]
    exact ⟨hcarries, h.1, h.2, hcarries.writeX_eq⟩
  | storing val index slot =>
    rw [publishes, List.append_nil]
    obtain ⟨hindex, hroom, rfl⟩ := h
    exact ⟨hcarries.store val, hindex, hroom, Memory.store_same _ _ _⟩
  | publishing val index =>
    obtain ⟨rfl, hroom, hstored⟩ := h
    exact ⟨hcarries.publish hroom hstored, trivial⟩
  | returning ok =>
    rw [publishes, List.append_nil]
    exact ⟨hcarries, trivial⟩

/-- A call is rejected only when the fifo is full at the comparison. -/
theorem Knows.isFull_of_rejecting (h : place.Knows len fifo passed gotten)
    (hcarries : fifo.Carries len passed gotten)
    (hrejecting : (place.step len fifo).2 = .rejecting) :
    (place.step len fifo).1.isFull len = true := by
  cases place with
  | comparing val index =>
    have hindex : index = (passed.length + 1) % len := h
    rw [PutAt.step] at hrejecting ⊢
    by_cases heq : index = fifo.readX
    · rw [hcarries.isFull_iff, ← hcarries.full_iff, ← hindex]
      exact heq
    · rw [if_neg heq] at hrejecting
      cases hrejecting
  | called | rejecting | addressing | storing | publishing | returning => cases hrejecting

theorem rejecting_of_step (hfailed : (place.step len fifo).2 = .returning false) :
    place = .rejecting ∨ place = .returning false := by
  cases place with
  | rejecting => exact Or.inl rfl
  | returning ok => exact Or.inr hfailed
  | comparing val index =>
    rw [step] at hfailed
    split at hfailed <;> cases hfailed
  | called | addressing | storing | publishing => cases hfailed

end PutAt

namespace GetAt

variable {Value : Type} (len : Nat)

/-- The next access of `get`. -/
def step (fifo : Fifo Value) : GetAt Value → Fifo Value × GetAt Value
  | .called => (fifo, .comparing fifo.readX)
  | .comparing index => (fifo, if index = fifo.writeX then .rejecting else .addressing)
  | .rejecting => ({ fifo with getErrors := fifo.getErrors + 1 }, .returning none)
  | .addressing => (fifo, .fetching fifo.readX)
  | .fetching slot => (fifo, .advancing (fifo.buffer slot))
  | .advancing val => (fifo, .releasing val (Fifo.advanceIndex len fifo.readX))
  | .releasing val index => ({ fifo with readX := index }, .returning (some val))
  | .returning val => (fifo, .returning val)

/-- Uninterrupted, the accesses make up a call. -/
theorem iterate_step (fifo : Fifo Value) :
    (fun call : Fifo Value × GetAt Value => call.2.step len call.1)^[6] (fifo, .called) =
      ((fifo.get len).2, .returning (fifo.get len).1) := by
  simp only [Function.iterate_succ, Function.iterate_zero, Function.comp_apply, id_eq, step,
    Fifo.get]
  by_cases hempty : fifo.readX = fifo.writeX
  · simp only [if_pos hempty]
  · simp only [if_neg hempty]

/-- The value whose cell the next access gives back to the writer. -/
def releases : GetAt Value → List Value
  | .releasing val _ => [val]
  | .called | .comparing _ | .rejecting | .addressing | .fetching _ | .advancing _
  | .returning _ => []

/-- What the reader knows. -/
def Knows (passed gotten : List Value) : GetAt Value → Prop
  | .called | .rejecting | .returning _ => True
  | .comparing index => index = gotten.length % len
  | .addressing => gotten.length < passed.length
  | .fetching slot => gotten.length < passed.length ∧ slot = gotten.length % len
  | .advancing val => passed[gotten.length]? = some val
  | .releasing val index =>
    passed[gotten.length]? = some val ∧ index = (gotten.length + 1) % len

variable {len} {fifo : Fifo Value} {passed gotten : List Value} {place : GetAt Value}

theorem Knows.stable (h : place.Knows len passed gotten) {more : List Value}
    (hmore : passed <+: more) : place.Knows len more gotten := by
  obtain ⟨added, rfl⟩ := hmore
  have hlength : passed.length ≤ (passed ++ added).length := by simp
  have hfound : ∀ val, passed[gotten.length]? = some val →
      (passed ++ added)[gotten.length]? = some val := fun val hval => by
    rw [List.getElem?_append_left (List.getElem?_eq_some_iff.mp hval).1, hval]
  cases place with
  | called | rejecting | returning => trivial
  | comparing => exact h
  | addressing => exact Nat.lt_of_lt_of_le h hlength
  | fetching => exact ⟨Nat.lt_of_lt_of_le h.1 hlength, h.2⟩
  | advancing val => exact hfound val h
  | releasing val index => exact ⟨hfound val h.1, h.2⟩

theorem Knows.step (h : place.Knows len passed gotten)
    (hcarries : fifo.Carries len passed gotten) :
    (place.step len fifo).1.Carries len passed (gotten ++ place.releases) ∧
      (place.step len fifo).2.Knows len passed (gotten ++ place.releases) := by
  cases place with
  | called =>
    rw [releases, List.append_nil]
    exact ⟨hcarries, hcarries.readX_eq⟩
  | comparing index =>
    rw [releases, List.append_nil]
    refine ⟨hcarries, ?_⟩
    have hindex : index = fifo.readX := Eq.trans h hcarries.readX_eq.symm
    have hle := hcarries.length_le
    have hempty := hcarries.empty_iff
    rw [← hindex] at hempty
    rw [GetAt.step]
    by_cases heq : index = fifo.writeX
    · rw [if_pos heq]
      trivial
    · rw [if_neg heq]
      exact Nat.lt_of_le_of_ne hle (mt hempty.mpr heq)
  | rejecting =>
    rw [releases, List.append_nil]
    exact ⟨hcarries.of_eq rfl rfl rfl, trivial⟩
  | addressing =>
    rw [releases, List.append_nil]
    exact ⟨hcarries, h, hcarries.readX_eq⟩
  | fetching slot =>
    rw [releases, List.append_nil]
    obtain ⟨hsome, rfl⟩ := h
    exact ⟨hcarries, hcarries.fetch hsome⟩
  | advancing val =>
    rw [releases, List.append_nil]
    exact ⟨hcarries, h, hcarries.next_readX⟩
  | releasing val index =>
    obtain ⟨hval, rfl⟩ := h
    exact ⟨hcarries.release hval, trivial⟩
  | returning val =>
    rw [releases, List.append_nil]
    exact ⟨hcarries, trivial⟩

/-- A call is rejected only when the fifo is empty at the comparison. -/
theorem Knows.isEmpty_of_rejecting (h : place.Knows len passed gotten)
    (hcarries : fifo.Carries len passed gotten)
    (hrejecting : (place.step len fifo).2 = .rejecting) :
    (place.step len fifo).1.isEmpty = true := by
  cases place with
  | comparing index =>
    have hindex : index = fifo.readX := Eq.trans h hcarries.readX_eq.symm
    rw [GetAt.step] at hrejecting ⊢
    by_cases heq : index = fifo.writeX
    · rw [hcarries.isEmpty_iff, ← hcarries.empty_iff, ← hindex]
      exact heq
    · rw [if_neg heq] at hrejecting
      cases hrejecting
  | called | rejecting | addressing | fetching | advancing | releasing | returning =>
    cases hrejecting

theorem rejecting_of_step (hfailed : (place.step len fifo).2 = .returning none) :
    place = .rejecting ∨ place = .returning none := by
  cases place with
  | rejecting => exact Or.inl rfl
  | returning val => exact Or.inr hfailed
  | comparing index =>
    rw [step] at hfailed
    split at hfailed <;> cases hfailed
  | called | addressing | fetching | advancing | releasing => cases hfailed

theorem releases_of_step {val : Value} (hgot : (place.step len fifo).2 = .returning (some val)) :
    place.releases = [val] ∨ place = .returning (some val) := by
  cases place with
  | releasing got index =>
    cases hgot
    exact Or.inl rfl
  | returning got => exact Or.inr hgot
  | comparing index =>
    rw [step] at hgot
    split at hgot <;> cases hgot
  | called | rejecting | addressing | fetching | advancing => cases hgot

/-- The reader leaves the cells alone. -/
@[simp] theorem step_buffer : (place.step len fifo).1.buffer = fifo.buffer := by
  cases place <;> rfl

/-- The cell that the reader is about to read is not the one that the writer is about to store. -/
theorem Knows.slot_ne {slot cell index : Nat} {val : Value}
    (h : (GetAt.fetching slot : GetAt Value).Knows len passed gotten)
    (hwriter : (PutAt.storing val index cell).Knows len fifo passed gotten) : slot ≠ cell := by
  obtain ⟨hsome, rfl⟩ := h
  obtain ⟨_, hroom, rfl⟩ := hwriter
  exact Slots.slot_ne hsome (by omega)

end GetAt

end Rodos.Api
