import Rodos.Library.Runs
import Rodos.Api.FifoAccess

/-! One writer and one reader that share a fifo without a lock: their accesses come in any order. -/
namespace Rodos.Api
open Library

inductive SharedAction (Value : Type) where
  /-- The writer calls `put`. -/
  | put (val : Value)
  /-- The reader calls `get`. -/
  | get
  /-- The writer makes the next access of its call, or returns from it. -/
  | writer
  /-- The reader makes the next access of its call, or returns from it. -/
  | reader

structure SharedFifo (Value : Type) where
  fifo : Fifo Value
  writer : Option (PutAt Value) := none
  reader : Option (GetAt Value) := none
  /-- The values put so far, those of calls that fail left out. -/
  passed : List Value := []
  gotten : List Value := []
  /-- Whether the fifo was full at some moment of the call of `put`. -/
  wasFull : Bool := false
  /-- Whether the fifo was empty at some moment of the call of `get`. -/
  wasEmpty : Bool := false

namespace SharedFifo

variable {Value : Type} (len : Nat)

/-- Another moment of both calls. -/
def observe (shared : SharedFifo Value) : SharedFifo Value :=
  { shared with
    wasFull := shared.wasFull || shared.fifo.isFull len
    wasEmpty := shared.wasEmpty || shared.fifo.isEmpty }

def step (shared : SharedFifo Value) : SharedAction Value → Option (SharedFifo Value)
  | .put val =>
    match shared.writer with
    | none => some (observe len { shared with writer := some (.called val), wasFull := false })
    | some _ => none
  | .get =>
    match shared.reader with
    | none => some (observe len { shared with reader := some .called, wasEmpty := false })
    | some _ => none
  | .writer =>
    match shared.writer with
    | none => none
    | some (.returning _) => some { shared with writer := none }
    | some place =>
      let (fifo, next) := place.step len shared.fifo
      some (observe len { shared with
        fifo := fifo
        writer := some next
        passed := shared.passed ++ place.publishes })
  | .reader =>
    match shared.reader with
    | none => none
    | some (.returning _) => some { shared with reader := none }
    | some place =>
      let (fifo, next) := place.step len shared.fifo
      some (observe len { shared with
        fifo := fifo
        reader := some next
        gotten := shared.gotten ++ place.releases })

/-- What both sides rely on. -/
structure Safe (shared : SharedFifo Value) : Prop where
  gotten_prefix : shared.gotten <+: shared.passed
  got : ∀ val, shared.reader = some (.returning (some val)) → shared.gotten.getLast? = some val
  no_overlap : ∀ val index cell slot, shared.writer = some (.storing val index cell) →
    shared.reader = some (.fetching slot) → slot ≠ cell
  put_fails : shared.writer = some (.returning false) → shared.wasFull = true
  get_fails : shared.reader = some (.returning none) → shared.wasEmpty = true

/-- A call that is on its way to fail has seen the fifo full. -/
def WriterJustified (shared : SharedFifo Value) : Prop :=
  shared.writer = some .rejecting ∨ shared.writer = some (.returning false) →
    shared.wasFull = true

/-- A call that is on its way to fail has seen the fifo empty. -/
def ReaderJustified (shared : SharedFifo Value) : Prop :=
  shared.reader = some .rejecting ∨ shared.reader = some (.returning none) →
    shared.wasEmpty = true

structure Invariant (shared : SharedFifo Value) : Prop where
  carries : shared.fifo.Carries len shared.passed shared.gotten
  writer : ∀ place, shared.writer = some place →
    place.Knows len shared.fifo shared.passed shared.gotten
  reader : ∀ place, shared.reader = some place → place.Knows len shared.passed shared.gotten
  got : ∀ val, shared.reader = some (.returning (some val)) → shared.gotten.getLast? = some val
  writer_justified : shared.WriterJustified
  reader_justified : shared.ReaderJustified

variable {len} {shared next : SharedFifo Value}

theorem Invariant.safe (h : Invariant len shared) : shared.Safe where
  gotten_prefix := h.carries.gotten_prefix
  got := h.got
  no_overlap _ _ _ _ hwriter hreader :=
    (h.reader _ hreader).slot_ne (h.writer _ hwriter)
  put_fails hfails := h.writer_justified (Or.inr hfails)
  get_fails hfails := h.reader_justified (Or.inr hfails)

theorem initial_invariant (hlen : 0 < len) (buffer : Memory Value) :
    Invariant len { fifo := { buffer := buffer } } := by
  constructor
  case carries => exact Fifo.carries_initial hlen buffer
  case writer_justified => rintro (hnone | hnone) <;> cases hnone
  case reader_justified => rintro (hnone | hnone) <;> cases hnone
  all_goals
    intro _ hnone
    cases hnone

/-! ### Every step keeps the invariant -/

theorem step_writer {place : PutAt Value} (hwriter : shared.writer = some place)
    (hinside : ∀ ok, place ≠ .returning ok) :
    step len shared .writer = some (observe len { shared with
      fifo := (place.step len shared.fifo).1
      writer := some (place.step len shared.fifo).2
      passed := shared.passed ++ place.publishes }) := by
  simp only [step, hwriter]

theorem step_reader {place : GetAt Value} (hreader : shared.reader = some place)
    (hinside : ∀ val, place ≠ .returning val) :
    step len shared .reader = some (observe len { shared with
      fifo := (place.step len shared.fifo).1
      reader := some (place.step len shared.fifo).2
      gotten := shared.gotten ++ place.releases }) := by
  simp only [step, hreader]

theorem Invariant.put (h : Invariant len shared) {val : Value}
    (hstep : step len shared (.put val) = some next) : Invariant len next := by
  rw [step] at hstep
  split at hstep
  · cases hstep
    constructor
    case carries => exact h.carries
    case writer =>
      intro place hplace
      cases hplace
      trivial
    case reader => exact h.reader
    case got => exact h.got
    case writer_justified => rintro (hfails | hfails) <;> cases hfails
    case reader_justified =>
      intro hfails
      exact Bool.or_eq_true_iff.mpr (Or.inl (h.reader_justified hfails))
  · cases hstep

theorem Invariant.get (h : Invariant len shared) (hstep : step len shared .get = some next) :
    Invariant len next := by
  rw [step] at hstep
  split at hstep
  · cases hstep
    constructor
    case carries => exact h.carries
    case writer => exact h.writer
    case reader =>
      intro place hplace
      cases hplace
      trivial
    case got => intro val hgot; cases hgot
    case writer_justified =>
      intro hfails
      exact Bool.or_eq_true_iff.mpr (Or.inl (h.writer_justified hfails))
    case reader_justified => rintro (hfails | hfails) <;> cases hfails
  · cases hstep

theorem Invariant.writer_step (h : Invariant len shared) {place : PutAt Value}
    (hwriter : shared.writer = some place) (hinside : ∀ ok, place ≠ .returning ok)
    (hstep : step len shared .writer = some next) : Invariant len next := by
  rw [step_writer hwriter hinside] at hstep
  cases hstep
  have hknows := h.writer place hwriter
  obtain ⟨hcarries, hnext⟩ := hknows.step h.carries
  constructor
  case carries => exact hcarries
  case writer =>
    intro later hlater
    cases hlater
    exact hnext
  case reader => exact fun later hlater => (h.reader later hlater).stable (List.prefix_append _ _)
  case got => exact h.got
  case writer_justified =>
    rintro (hfails | hfails)
    · exact Bool.or_eq_true_iff.mpr (Or.inr
        (hknows.isFull_of_rejecting h.carries (Option.some.inj hfails)))
    · rcases PutAt.rejecting_of_step (Option.some.inj hfails) with rfl | rfl
      · exact Bool.or_eq_true_iff.mpr (Or.inl (h.writer_justified (Or.inl hwriter)))
      · exact absurd rfl (hinside false)
  case reader_justified =>
    intro hfails
    exact Bool.or_eq_true_iff.mpr (Or.inl (h.reader_justified hfails))

theorem Invariant.reader_step (h : Invariant len shared) {place : GetAt Value}
    (hreader : shared.reader = some place) (hinside : ∀ val, place ≠ .returning val)
    (hstep : step len shared .reader = some next) : Invariant len next := by
  rw [step_reader hreader hinside] at hstep
  cases hstep
  have hknows := h.reader place hreader
  obtain ⟨hcarries, hnext⟩ := hknows.step h.carries
  constructor
  case carries => exact hcarries
  case writer =>
    intro later hlater
    exact (h.writer later hlater).stable GetAt.step_buffer
      (List.prefix_append _ _).length_le
  case reader =>
    intro later hlater
    cases hlater
    exact hnext
  case got =>
    intro val hgot
    rcases GetAt.releases_of_step (Option.some.inj hgot) with hreleases | rfl
    · exact hreleases ▸ List.getLast?_concat
    · exact absurd rfl (hinside (some val))
  case writer_justified =>
    intro hfails
    exact Bool.or_eq_true_iff.mpr (Or.inl (h.writer_justified hfails))
  case reader_justified =>
    rintro (hfails | hfails)
    · exact Bool.or_eq_true_iff.mpr (Or.inr
        (hknows.isEmpty_of_rejecting h.carries (Option.some.inj hfails)))
    · rcases GetAt.rejecting_of_step (Option.some.inj hfails) with rfl | rfl
      · exact Bool.or_eq_true_iff.mpr (Or.inl (h.reader_justified (Or.inl hreader)))
      · exact absurd rfl (hinside none)

theorem Invariant.step (h : Invariant len shared) {action : SharedAction Value}
    (hstep : step len shared action = some next) : Invariant len next := by
  cases action with
  | put val => exact h.put hstep
  | get => exact h.get hstep
  | writer =>
    cases hwriter : shared.writer with
    | none =>
      rw [SharedFifo.step, hwriter] at hstep
      cases hstep
    | some place =>
      by_cases hreturning : ∃ ok, place = .returning ok
      · obtain ⟨ok, rfl⟩ := hreturning
        rw [SharedFifo.step, hwriter] at hstep
        cases hstep
        refine ⟨h.carries, ?_, h.reader, h.got, ?_, h.reader_justified⟩
        · intro later hlater
          cases hlater
        · rintro (hfails | hfails) <;> cases hfails
      · exact h.writer_step hwriter (fun ok heq => hreturning ⟨ok, heq⟩) hstep
  | reader =>
    cases hreader : shared.reader with
    | none =>
      rw [SharedFifo.step, hreader] at hstep
      cases hstep
    | some place =>
      by_cases hreturning : ∃ val, place = .returning val
      · obtain ⟨val, rfl⟩ := hreturning
        rw [SharedFifo.step, hreader] at hstep
        cases hstep
        refine ⟨h.carries, h.writer, ?_, ?_, h.writer_justified, ?_⟩
        · intro later hlater
          cases hlater
        · intro later hlater
          cases hlater
        · rintro (hfails | hfails) <;> cases hfails
      · exact h.reader_step hreader (fun val heq => hreturning ⟨val, heq⟩) hstep

/-- However the accesses of any number of calls interleave, in every state that is reached. -/
theorem interleaved_safe (hlen : 2 ≤ len) (buffer : Memory Value)
    {actions : List (SharedAction Value)} {final : SharedFifo Value}
    (hrun : run (SharedFifo.step len) { fifo := { buffer := buffer } } actions = some final) :
    final.Safe := by
  have hinitial := initial_invariant (show 0 < len by omega) buffer
  exact (run_invariant (fun _ _ _ hnow hstep => hnow.step hstep) hinitial hrun).safe

/-- One `put` fails in spite of a `get` that is under way, the next one compares when the cell is
given back. -/
def overtaking : List (SharedAction Nat) :=
  List.flatten [.put 1 :: List.replicate 6 .writer,
    [.put 2, .get, .writer, .reader, .reader, .reader, .writer, .writer, .writer],
    [.put 3, .writer, .reader, .reader, .reader], List.replicate 5 .writer,
    .reader :: .get :: List.replicate 7 .reader]

theorem interleaved_safe_overtaking :
    ∃ final, run (SharedFifo.step 2) { fifo := { buffer := fun _ => 0 } } overtaking =
      some final ∧ final.Safe := by
  have hpossible : (run (SharedFifo.step 2) { fifo := { buffer := fun _ => 0 } }
      overtaking).isSome := by decide
  obtain ⟨final, hrun⟩ := Option.isSome_iff_exists.mp hpossible
  exact ⟨final, hrun, interleaved_safe (by decide) _ hrun⟩

end SharedFifo

end Rodos.Api
