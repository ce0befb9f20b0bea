import Rodos.BareMetal.Semaphore

/-! What holds between one thread and one semaphore, and the ways in which a step of some thread
can change either of them. -/
namespace Rodos.BareMetal

/-- `id` has this record and this position, and has entered the semaphore `nesting` times. -/
structure Pairing (id : ThreadId) (sema : Address) (thread : Thread) (position : Position)
    (nesting : Nat) (semaphore : Semaphore) : Prop where
  waiting_high : position.waitsFor = some sema → CEILING_PRIORITY ≤ thread.priority
  waitingFor : thread.waitingFor = some sema →
    position.waitsFor = some sema ∧ semaphore.owner ≠ none ∧ semaphore.owner ≠ some id
  woken : position.waitsFor = some sema → thread.waitingFor = some sema ∨
    thread.waitingFor = none ∧ (thread.suspendedUntil = 0 ∨ thread.beyondStack = true)
  inside_owns : 0 < nesting ∨ position = .leaving sema → semaphore.owner = some id
  owner_known : semaphore.owner = some id →
    (0 < nesting ∨ position = .leaving sema) ∨ position.waitsFor = some sema
  waiting_outside : position.waitsFor = some sema → nesting = 0
  leaving_outside : position = .leaving sema → nesting = 0
  count_eq : 0 < nesting ∨ position = .leaving sema → semaphore.ownerEnterCnt = nesting

namespace Pairing

variable {id : ThreadId} {sema : Address} {thread next : Thread} {position after : Position}
  {nesting : Nat} {semaphore other : Semaphore}

/-- The thread does something that has to do with other semaphores only. -/
theorem elsewhere (h : Pairing id sema thread position nesting semaphore)
    (hbefore : position.waitsFor ≠ some sema) (hleaving : position ≠ .leaving sema)
    (hafter : after.waitsFor ≠ some sema) (hleft : after ≠ .leaving sema)
    (hwaitingFor : next.waitingFor ≠ some sema) :
    Pairing id sema next after nesting semaphore where
  waiting_high hwaiting := absurd hwaiting hafter
  waitingFor hwaits := absurd hwaits hwaitingFor
  woken hwaiting := absurd hwaiting hafter
  inside_owns hinside := h.inside_owns (hinside.imp_right fun hleave => absurd hleave hleft)
  owner_known howner := by
    cases h.owner_known howner with
    | inl hinside => exact Or.inl (hinside.imp_right fun hleave => absurd hleave hleaving)
    | inr hwaiting => exact absurd hwaiting hbefore
  waiting_outside hwaiting := absurd hwaiting hafter
  leaving_outside hleave := absurd hleave hleft
  count_eq hinside := h.count_eq (hinside.imp_right fun hleave => absurd hleave hleft)

/-- The thread owns the semaphore and is inside. -/
theorem inside (howner : semaphore.owner = some id)
    (hcount : semaphore.ownerEnterCnt = nesting) (hinside : 0 < nesting ∨ position = .leaving sema)
    (hzero : position = .leaving sema → nesting = 0) (hwaiting : position.waitsFor ≠ some sema)
    (hwaitingFor : thread.waitingFor ≠ some sema) :
    Pairing id sema thread position nesting semaphore where
  waiting_high hwaits := absurd hwaits hwaiting
  waitingFor hwaits := absurd hwaits hwaitingFor
  woken hwaits := absurd hwaits hwaiting
  inside_owns _ := howner
  owner_known _ := Or.inl hinside
  waiting_outside hwaits := absurd hwaits hwaiting
  leaving_outside := hzero
  count_eq _ := hcount

/-- The semaphore has been and remains another thread's, or becomes it. -/
theorem passedOn (h : Pairing id sema thread position nesting semaphore)
    (hbefore : semaphore.owner ≠ some id) (hafter : other.owner ≠ some id)
    (howned : thread.waitingFor = some sema → other.owner ≠ none) :
    Pairing id sema thread position nesting other where
  waiting_high := h.waiting_high
  waitingFor hwaits := ⟨(h.waitingFor hwaits).1, howned hwaits, hafter⟩
  woken := h.woken
  inside_owns hinside := absurd (h.inside_owns hinside) hbefore
  owner_known howner := absurd howner hafter
  waiting_outside := h.waiting_outside
  leaving_outside := h.leaving_outside
  count_eq hinside := absurd (h.inside_owns hinside) hbefore

/-- The thread inherits a priority. -/
theorem raised (h : Pairing id sema thread position nesting semaphore) {priority : Int}
    (hmore : thread.priority ≤ priority) :
    Pairing id sema { thread with priority := priority } position nesting semaphore where
  waiting_high hwaiting := Int.le_trans (h.waiting_high hwaiting) hmore
  waitingFor := h.waitingFor
  woken := h.woken
  inside_owns := h.inside_owns
  owner_known := h.owner_known
  waiting_outside := h.waiting_outside
  leaving_outside := h.leaving_outside
  count_eq := h.count_eq

theorem not_inside (h : Pairing id sema thread position nesting semaphore)
    (hother : semaphore.owner ≠ some id) : nesting = 0 := by
  by_contra hinside
  exact hother (h.inside_owns (Or.inl (Nat.pos_of_ne_zero hinside)))

/-- The thread is suspended until another one leaves the semaphore. -/
theorem suspended (hposition : position.waitsFor = some sema)
    (hhigh : CEILING_PRIORITY ≤ thread.priority) (hwaitingFor : thread.waitingFor = some sema)
    (howned : semaphore.owner ≠ none) (hother : semaphore.owner ≠ some id) :
    Pairing id sema thread position 0 semaphore := by
  have hleaving : position ≠ .leaving sema := by
    rintro rfl
    cases hposition
  have houtside : ¬ (0 < 0 ∨ position = .leaving sema) := by
    rintro (hzero | hleave)
    · exact absurd hzero (Nat.lt_irrefl 0)
    · exact hleaving hleave
  constructor
  case waiting_high => exact fun _ => hhigh
  case waitingFor => exact fun _ => ⟨hposition, howned, hother⟩
  case woken => exact fun _ => Or.inl hwaitingFor
  case inside_owns => exact fun hinside => absurd hinside houtside
  case owner_known => exact fun howner => absurd howner hother
  case waiting_outside => exact fun _ => rfl
  case leaving_outside => exact fun _ => rfl
  case count_eq => exact fun hinside => absurd hinside houtside

/-- The semaphore is handed to the thread that has waited for it. -/
theorem handed (h : Pairing id sema thread position nesting semaphore)
    (hwaitingFor : thread.waitingFor = some sema) (howner : other.owner = some id) :
    Pairing id sema { thread with waitingFor := none, suspendedUntil := 0 } position nesting
      other := by
  obtain ⟨hwaiting, _, hother⟩ := h.waitingFor hwaitingFor
  have houtside : ¬ (0 < nesting ∨ position = .leaving sema) :=
    fun hinside => hother (h.inside_owns hinside)
  constructor
  case waiting_high => exact h.waiting_high
  case waitingFor => exact fun hwaits => nomatch hwaits
  case woken => exact fun _ => Or.inr ⟨rfl, Or.inl rfl⟩
  case inside_owns => exact fun _ => howner
  case owner_known => exact fun _ => Or.inr hwaiting
  case waiting_outside => exact h.waiting_outside
  case leaving_outside => exact h.leaving_outside
  case count_eq => exact fun hinside => absurd hinside houtside

/-- The thread has left the semaphore for good. -/
theorem outside (hwaiting : position.waitsFor ≠ some sema) (hleaving : position ≠ .leaving sema)
    (hwaitingFor : thread.waitingFor ≠ some sema) (hother : semaphore.owner ≠ some id) :
    Pairing id sema thread position 0 semaphore := by
  have houtside : ¬ (0 < 0 ∨ position = .leaving sema) := by
    rintro (hzero | hleave)
    · exact absurd hzero (Nat.lt_irrefl 0)
    · exact hleaving hleave
  constructor
  case waiting_high => exact fun hwaits => absurd hwaits hwaiting
  case waitingFor => exact fun hwaits => absurd hwaits hwaitingFor
  case woken => exact fun hwaits => absurd hwaits hwaiting
  case inside_owns => exact fun hinside => absurd hinside houtside
  case owner_known => exact fun howner => absurd howner hother
  case waiting_outside => exact fun _ => rfl
  case leaving_outside => exact fun _ => rfl
  case count_eq => exact fun hinside => absurd hinside houtside

end Pairing

end Rodos.BareMetal
