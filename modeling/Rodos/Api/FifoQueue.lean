import Rodos.Library.BoundedQueue
import Rodos.Api.BlockFifo

/-! A fifo with single and block access is a queue that holds one value less than its buffer. -/
namespace Rodos.Api
open Library

inductive FifoAction (Value : Type) where
  | put (val : Value)
  | get
  | clear
  | getBufferToWrite
  /-- The user has copied `written` values into the region that he was offered last. -/
  | writeConcluded (source : Memory Value) (written numOfWrittenElements : Nat)
  | getBufferToRead
  | readConcluded (sizeRed : Nat)

/-- A fifo, the regions that are given out, and what its users have seen. -/
structure FifoUsage (Value : Type) where
  fifo : BlockFifo Value
  toWrite : Option BlockFifo.Offer := none
  toRead : Option BlockFifo.Offer := none
  events : List (BoundedQueue.Event Value) := []

namespace FifoUsage

variable {Value : Type} (len : Nat)

/-- An offer ends with the next call from its own side other than the one that concludes it; the
other side may go on meanwhile. -/
def step (usage : FifoUsage Value) : FifoAction Value → Option (FifoUsage Value)
  | .put val =>
    let (ok, fifo) := usage.fifo.put len val
    some { usage with
      fifo := fifo
      toWrite := none
      events := usage.events ++ [if ok then .entered [val] else .refused] }
  | .get =>
    let (val, fifo) := usage.fifo.get len
    some { usage with
      fifo := fifo
      toRead := none
      events := usage.events ++ [match val with
        | some val => .left [val]
        | none => .missed] }
  | .clear =>
    some { fifo := usage.fifo.clear, events := usage.events ++ [.cleared] }
  | .getBufferToWrite =>
    let offer := BlockFifo.getBufferToWrite len usage.fifo
    some { usage with toWrite := some offer, events := usage.events ++ [.room offer.maxLen] }
  | .writeConcluded source written numOfWrittenElements =>
    match usage.toWrite with
    | none => none
    | some offer =>
      if written ≤ offer.maxLen ∧ numOfWrittenElements ≤ written then
        let fifo := BlockFifo.fill usage.fifo offer source written
        some { usage with
          fifo := BlockFifo.writeConcluded len fifo numOfWrittenElements
          toWrite := none
          events := usage.events ++ [.entered (source.front numOfWrittenElements)] }
      else none
  | .getBufferToRead =>
    let offer := BlockFifo.getBufferToRead len usage.fifo
    some { usage with toRead := some offer, events := usage.events ++ [.available offer.maxLen] }
  | .readConcluded sizeRed =>
    match usage.toRead with
    | none => none
    | some offer =>
      if sizeRed ≤ offer.maxLen then
        some { usage with
          fifo := BlockFifo.readConcluded len usage.fifo sizeRed
          toRead := none
          events := usage.events ++ [.left (BlockFifo.contents usage.fifo offer sizeRed)] }
      else none

/-- The cells of the values that are still to be read. -/
def IsUnread (fifo : Fifo Value) (slot : Nat) : Prop :=
  ∃ i < fifo.getElementCount len, slot = (fifo.readX + i) % len

/-- The state of the fifo as far as its users see it. -/
structure Represents (usage : FifoUsage Value) (queue : List Value) : Prop where
  elementCount_eq : usage.fifo.getElementCount len = queue.length
  freeSpaceCount_eq : usage.fifo.getFreeSpaceCount len = len - 1 - queue.length
  isFull_iff : usage.fifo.isFull len = true ↔ queue.length = len - 1
  isEmpty_iff : usage.fifo.isEmpty = true ↔ queue = []
  cells_eq : ∀ i < queue.length, queue[i]? = some (usage.fifo.buffer ((usage.fifo.readX + i) % len))
  to_write : ∀ offer, usage.toWrite = some offer → ∀ slot, offer.Covers slot →
    slot < len ∧ ¬ IsUnread len usage.fifo slot
  to_read : ∀ offer, usage.toRead = some offer → ∀ slot, offer.Covers slot →
    slot < len ∧ IsUnread len usage.fifo slot

/-- The fifo carries the values between those passed and those gotten, and each offer still fits
behind its index. -/
structure Invariant (usage : FifoUsage Value) (passed gotten : List Value) : Prop where
  carries : Fifo.Carries len usage.fifo passed gotten
  history : BoundedQueue.History (len - 1) usage.events (passed.drop gotten.length)
  to_write : ∀ offer, usage.toWrite = some offer →
    offer.Fits len usage.fifo.writeX (gotten.length + len - 1 - passed.length)
  to_read : ∀ offer, usage.toRead = some offer →
    offer.Fits len usage.fifo.readX (passed.length - gotten.length)

variable {len} {usage : FifoUsage Value} {passed gotten : List Value}

theorem Invariant.represents (h : Invariant len usage passed gotten) :
    Represents len usage (passed.drop gotten.length) := by
  have hcarries := h.carries
  have hroom := hcarries.room
  have hle := hcarries.length_le
  have hslot : ∀ i, (usage.fifo.readX + i) % len = (gotten.length + i) % len := fun i => by
    rw [hcarries.readX_eq, Nat.mod_add_mod]
  have hcount := hcarries.getElementCount_eq
  constructor
  case elementCount_eq => rw [hcount, List.length_drop]
  case freeSpaceCount_eq => rw [hcarries.getFreeSpaceCount_eq, List.length_drop]
  case isFull_iff =>
    rw [hcarries.isFull_iff, List.length_drop]
    omega
  case isEmpty_iff =>
    rw [hcarries.isEmpty_iff, List.drop_eq_nil_iff]
    omega
  case cells_eq =>
    intro i hi
    rw [List.length_drop] at hi
    rw [List.getElem?_drop, hcarries.holds.getElem (Nat.le_add_right _ _) (by omega), hslot]
  case to_write =>
    intro offer hoffer slot hcovers
    obtain ⟨j, hj, rfl, hend⟩ := (h.to_write offer hoffer).covers hcovers
    refine ⟨hend, ?_⟩
    rintro ⟨i, hi, heq⟩
    rw [hcount] at hi
    have hne : (gotten.length + i) % len ≠ (passed.length + j) % len :=
      Slots.slot_ne (by omega) (by omega)
    rw [← hslot, ← heq, ← Nat.mod_add_mod passed.length, ← hcarries.writeX_eq] at hne
    exact hne (Nat.mod_eq_of_lt hend).symm
  case to_read =>
    intro offer hoffer slot hcovers
    obtain ⟨i, hi, rfl, hend⟩ := (h.to_read offer hoffer).covers hcovers
    exact ⟨hend, i, by rw [hcount]; exact hi, (Nat.mod_eq_of_lt hend).symm⟩

theorem initial_invariant (hlen : 0 < len) (buffer : Memory Value) :
    Invariant len { fifo := { buffer := buffer } } [] [] where
  carries := Fifo.carries_initial hlen buffer
  history := .nil
  to_write _ hoffer := by cases hoffer
  to_read _ hoffer := by cases hoffer

/-! ### What the users see of a step -/

theorem Invariant.entered (h : Invariant len usage passed gotten) {values : List Value}
    (hroom : passed.length + values.length < gotten.length + len) :
    BoundedQueue.History (len - 1) (usage.events ++ [.entered values])
      ((passed ++ values).drop gotten.length) := by
  have hle := h.carries.length_le
  rw [List.drop_append_of_le_length hle]
  refine h.history.snoc (.entered ?_)
  rw [List.length_drop]
  omega

theorem Invariant.left (h : Invariant len usage passed gotten) (count : Nat) :
    BoundedQueue.History (len - 1)
      (usage.events ++ [.left ((passed.drop gotten.length).take count)])
      (passed.drop (gotten ++ (passed.drop gotten.length).take count).length) := by
  have hrest : passed.drop (gotten ++ (passed.drop gotten.length).take count).length =
      (passed.drop gotten.length).drop count := by
    rw [List.length_append, ← List.drop_drop, List.length_take, ← List.drop_eq_drop_min]
  rw [hrest]
  have hwhole := h.history
  nth_rewrite 1 [← List.take_append_drop count (passed.drop gotten.length)] at hwhole
  exact hwhole.snoc .left

/-! ### Every step keeps the invariant -/

theorem Invariant.put (h : Invariant len usage passed gotten) {val : Value}
    {next : FifoUsage Value} (hstep : step len usage (.put val) = some next) :
    ∃ passed', Invariant len next passed' gotten := by
  have hle := h.carries.length_le
  have hcases := h.carries.put_cases val
  rw [step] at hstep
  generalize usage.fifo.put len val = result at hstep hcases
  obtain ⟨ok, fifo⟩ := result
  rcases hcases with ⟨hfull, hput⟩ | ⟨hroom, hok, hcarries⟩
  · cases hput
    cases hstep
    have hrefused : (passed.drop gotten.length).length = len - 1 := by
      rw [List.length_drop]
      omega
    exact ⟨passed, h.carries.of_eq rfl rfl rfl, h.history.snoc (.refused hrefused),
      by simp, h.to_read⟩
  · dsimp only at hok hcarries
    subst hok
    cases hstep
    refine ⟨passed ++ [val], hcarries, h.entered hroom, by simp, ?_⟩
    intro offer hoffer
    have hreadX : fifo.readX = usage.fifo.readX := by
      rw [hcarries.readX_eq, h.carries.readX_eq]
    dsimp only
    rw [hreadX]
    exact (h.to_read offer hoffer).mono
      (by simp only [List.length_append, List.length_singleton]; omega)

theorem Invariant.get (h : Invariant len usage passed gotten)
    {next : FifoUsage Value} (hstep : step len usage .get = some next) :
    ∃ gotten', Invariant len next passed gotten' := by
  have hle := h.carries.length_le
  have hcases := h.carries.get_cases
  rw [step] at hstep
  generalize usage.fifo.get len = result at hstep hcases
  obtain ⟨got, fifo⟩ := result
  rcases hcases with ⟨hempty, hget⟩ | ⟨hsome, val, hval, hgot, hcarries⟩
  · cases hget
    cases hstep
    have hmissed : passed.drop gotten.length = [] := List.drop_of_length_le (by omega)
    have hhistory := h.history
    rw [hmissed] at hhistory
    refine ⟨gotten, h.carries.of_eq rfl rfl rfl, ?_, h.to_write,
      by simp⟩
    rw [hmissed]
    exact hhistory.snoc .missed
  · dsimp only at hgot hcarries
    subst hgot
    cases hstep
    have hfirst : (passed.drop gotten.length).take 1 = [val] := by
      rw [List.take_one, List.head?_drop, hval]
      rfl
    have hhistory := h.left 1
    rw [hfirst] at hhistory
    refine ⟨gotten ++ [val], hcarries, hhistory, ?_, by simp⟩
    intro offer hoffer
    have hwriteX : fifo.writeX = usage.fifo.writeX := by
      rw [hcarries.writeX_eq, h.carries.writeX_eq]
    dsimp only
    rw [hwriteX]
    exact (h.to_write offer hoffer).mono
      (by simp only [List.length_append, List.length_singleton]; omega)

theorem Invariant.clear (h : Invariant len usage passed gotten)
    {next : FifoUsage Value} (hstep : step len usage .clear = some next) :
    Invariant len next [] [] := by
  cases hstep
  exact ⟨h.carries.clear, h.history.snoc .cleared, by simp,
    by simp⟩

theorem Invariant.getBufferToWrite (h : Invariant len usage passed gotten)
    {next : FifoUsage Value} (hstep : step len usage .getBufferToWrite = some next) :
    Invariant len next passed gotten := by
  have hroom := h.carries.room
  have hle := h.carries.length_le
  obtain ⟨hfits, hpos⟩ := h.carries.getBufferToWrite_fits
  cases hstep
  refine ⟨h.carries, h.history.snoc (.room ?_ ?_), fun _ hoffer => ?_, h.to_read⟩
  · rw [List.length_drop]
    rcases Nat.eq_zero_or_pos (BlockFifo.getBufferToWrite len usage.fifo).maxLen with
      hnone | hsome
    · omega
    · have hfree := (hfits.of_pos hsome).2.2
      omega
  · rw [List.length_drop, hpos]
    omega
  · cases hoffer
    exact hfits

theorem Invariant.writeConcluded (h : Invariant len usage passed gotten)
    {source : Memory Value} {written count : Nat} {next : FifoUsage Value}
    (hstep : step len usage (.writeConcluded source written count) = some next) :
    ∃ passed', Invariant len next passed' gotten := by
  have hroom := h.carries.room
  have hle := h.carries.length_le
  rw [step] at hstep
  split at hstep
  · cases hstep
  · next offer hoffer =>
    split at hstep
    · next hallowed =>
      cases hstep
      have hfits := h.to_write offer hoffer
      have hcarries := h.carries.writeConcluded hfits source hallowed.1 hallowed.2
      have hentered : passed.length + (source.front count).length < gotten.length + len := by
        have hlength := hcarries.room
        rwa [List.length_append] at hlength
      refine ⟨_, hcarries, h.entered hentered, by simp, ?_⟩
      intro later hlater
      have hreadX : (BlockFifo.fill usage.fifo offer source written).readX =
          usage.fifo.readX := by
        rw [(h.carries.fill hfits source hallowed.1).readX_eq, h.carries.readX_eq]
      dsimp only [BlockFifo.writeConcluded]
      rw [hreadX]
      exact (h.to_read later hlater).mono (by rw [List.length_append]; omega)
    · cases hstep

theorem Invariant.getBufferToRead (h : Invariant len usage passed gotten)
    {next : FifoUsage Value} (hstep : step len usage .getBufferToRead = some next) :
    Invariant len next passed gotten := by
  have hle := h.carries.length_le
  obtain ⟨hfits, hpos⟩ := h.carries.getBufferToRead_fits
  cases hstep
  refine ⟨h.carries, h.history.snoc (.available ?_ ?_), h.to_write, fun _ hoffer => ?_⟩
  · rw [List.length_drop]
    rcases Nat.eq_zero_or_pos (BlockFifo.getBufferToRead len usage.fifo).maxLen with
      hnone | hsome
    · omega
    · exact (hfits.of_pos hsome).2.2
  · rw [List.length_drop, hpos]
    omega
  · cases hoffer
    exact hfits

theorem Invariant.readConcluded (h : Invariant len usage passed gotten)
    {sizeRed : Nat} {next : FifoUsage Value}
    (hstep : step len usage (.readConcluded sizeRed) = some next) :
    ∃ gotten', Invariant len next passed gotten' := by
  have hle := h.carries.length_le
  rw [step] at hstep
  split at hstep
  · cases hstep
  · next offer hoffer =>
    split at hstep
    · next hallowed =>
      cases hstep
      have hfits := h.to_read offer hoffer
      have hcount : gotten.length + sizeRed ≤ passed.length := by
        rcases Nat.eq_zero_or_pos offer.maxLen with hnone | hsome
        · omega
        · have hsize := (hfits.of_pos hsome).2.2
          omega
      have hcarries := h.carries.readConcluded hcount
      have hleft := h.left sizeRed
      rw [← h.carries.contents hfits hallowed] at hleft
      rw [← h.carries.contents hfits hallowed] at hcarries
      refine ⟨_, hcarries, hleft, ?_, by simp⟩
      intro later hlater
      exact (h.to_write later hlater).mono (by rw [List.length_append]; omega)
    · cases hstep

theorem Invariant.step (h : Invariant len usage passed gotten) {action : FifoAction Value}
    {next : FifoUsage Value} (hstep : step len usage action = some next) :
    ∃ passed' gotten', Invariant len next passed' gotten' := by
  cases action with
  | put val =>
    obtain ⟨passed', hnext⟩ := h.put hstep
    exact ⟨passed', gotten, hnext⟩
  | get =>
    obtain ⟨gotten', hnext⟩ := h.get hstep
    exact ⟨passed, gotten', hnext⟩
  | clear => exact ⟨[], [], h.clear hstep⟩
  | getBufferToWrite => exact ⟨passed, gotten, h.getBufferToWrite hstep⟩
  | writeConcluded source written numOfWrittenElements =>
    obtain ⟨passed', hnext⟩ := h.writeConcluded hstep
    exact ⟨passed', gotten, hnext⟩
  | getBufferToRead => exact ⟨passed, gotten, h.getBufferToRead hstep⟩
  | readConcluded sizeRed =>
    obtain ⟨gotten', hnext⟩ := h.readConcluded hstep
    exact ⟨passed, gotten', hnext⟩

/-- Whatever mix of single values and blocks its users pass, they see a queue of one value less
than the buffer has cells, and are offered free cells to write and unread ones to read. -/
theorem refines_queue (hlen : 2 ≤ len) (buffer : Memory Value)
    {actions : List (FifoAction Value)} {final : FifoUsage Value}
    (hrun : run (FifoUsage.step len) { fifo := { buffer := buffer } } actions = some final) :
    ∃ queue, BoundedQueue.History (len - 1) final.events queue ∧
      (BoundedQueue.ledger final.events).2 ++ queue = (BoundedQueue.ledger final.events).1 ∧
      Represents len final queue := by
  have hinitial := initial_invariant (show 0 < len by omega) buffer
  have hkeeps : ∀ (now : FifoUsage Value) action next,
      (∃ passed gotten, Invariant len now passed gotten) →
      FifoUsage.step len now action = some next →
      ∃ passed gotten, Invariant len next passed gotten := by
    rintro now action next ⟨passed, gotten, hnow⟩ hstep
    exact hnow.step hstep
  obtain ⟨passed, gotten, hfinal⟩ := run_invariant hkeeps ⟨[], [], hinitial⟩ hrun
  exact ⟨_, hfinal.history, hfinal.history.ledger_eq, hfinal.represents⟩

/-- A block is written at the end of the buffer while the other side reads, and what is then read
as a block ends there too. -/
def wrappedBlocks : List (FifoAction Nat) :=
  [.put 1, .put 2, .getBufferToWrite, .get, .writeConcluded (fun i => i + 3) 1 1, .get,
    .getBufferToWrite, .writeConcluded (fun i => i + 4) 1 1, .put 5, .put 6,
    .getBufferToRead, .readConcluded 2, .get]

theorem refines_queue_wrappedBlocks :
    ∃ final, run (FifoUsage.step 4) { fifo := { buffer := fun _ => 0 } } wrappedBlocks =
        some final ∧
      ∃ queue, BoundedQueue.History 3 final.events queue ∧
        (BoundedQueue.ledger final.events).2 ++ queue = (BoundedQueue.ledger final.events).1 ∧
        Represents 4 final queue := by
  have hpossible : (run (FifoUsage.step 4) { fifo := { buffer := fun _ => 0 } }
      wrappedBlocks).isSome := by decide
  obtain ⟨final, hrun⟩ := Option.isSome_iff_exists.mp hpossible
  exact ⟨final, hrun, refines_queue (by decide) _ hrun⟩

end FifoUsage

end Rodos.Api
