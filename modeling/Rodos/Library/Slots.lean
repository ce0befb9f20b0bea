import Mathlib.Data.List.Infix
import Mathlib.Data.Nat.ModEq
import Rodos.Library.Memory

/-! A stream of values that is laid into the cells of an array round and round: value `k` lies in
cell `k % len` until it has been taken out. -/
namespace Rodos.Library.Slots

/-- The cells hold the values of the stream from number `first` on. -/
def Holds (memory : Memory α) (len : Nat) (stream : List α) (first : Nat) : Prop :=
  ∀ k (hk : k < stream.length), first ≤ k → memory (k % len) = stream[k]

variable {memory : Memory α} {len first : Nat} {stream : List α}

/-- Values less than one round apart lie in different cells. -/
theorem slot_ne {i j : Nat} (hij : i < j) (hround : j < i + len) : i % len ≠ j % len := by
  intro heq
  have hdvd : len ∣ j - i := (Nat.modEq_iff_dvd' (Nat.le_of_lt hij)).mp heq
  have hle := Nat.le_of_dvd (by omega) hdvd
  omega

theorem slot_eq_iff {i j : Nat} (hij : i ≤ j) (hround : j < i + len) :
    i % len = j % len ↔ i = j := by
  constructor
  · intro heq
    by_contra hne
    exact slot_ne (Nat.lt_of_le_of_ne hij hne) hround heq
  · exact fun heq => congrArg (· % len) heq

theorem slot_succ {k : Nat} (hlen : 0 < len) :
    (k + 1) % len = if k % len < len - 1 then k % len + 1 else 0 := by
  have hlt := Nat.mod_lt k hlen
  rw [Nat.add_mod_eq_ite]
  by_cases hone : len = 1
  · subst hone
    simp [Nat.mod_one]
  · rw [Nat.mod_eq_of_lt (show 1 < len by omega)]
    split <;> split <;> omega

@[simp] theorem holds_nil : Holds memory len [] first := by
  intro k hk
  cases hk

theorem Holds.advance (h : Holds memory len stream first) {later : Nat} (hle : first ≤ later) :
    Holds memory len stream later :=
  fun k hk hlater => h k hk (Nat.le_trans hle hlater)

theorem Holds.getElem (h : Holds memory len stream first) {k : Nat} (hfirst : first ≤ k)
    (hk : k < stream.length) : stream[k]? = some (memory (k % len)) := by
  rw [List.getElem?_eq_getElem hk, h k hk hfirst]

/-- The cell of the next value can be stored while fewer than `len` values are held. -/
theorem Holds.store_next (h : Holds memory len stream first)
    (hroom : stream.length < first + len) (value : α) :
    Holds (memory.store (stream.length % len) value) len stream first := by
  intro k hk hfirst
  rw [Memory.store_other memory value (slot_ne hk (by omega))]
  exact h k hk hfirst

theorem Holds.append (h : Holds memory len stream first) {value : α}
    (hstored : memory (stream.length % len) = value) :
    Holds memory len (stream ++ [value]) first := by
  intro k hk hfirst
  rw [List.length_append, List.length_singleton] at hk
  by_cases hlast : k = stream.length
  · subst hlast
    rw [hstored, List.getElem_concat_length rfl]
  · rw [List.getElem_append_left (by omega)]
    exact h k (by omega) hfirst

end Rodos.Library.Slots
