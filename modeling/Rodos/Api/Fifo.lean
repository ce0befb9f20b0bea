import Rodos.Library.Slots

/-! The fifo as a ring of `len` cells, and the values that lie between its two indices. -/
namespace Rodos.Api
open Library Library.Slots

structure Fifo (Value : Type) where
  buffer : Memory Value
  writeX : Nat := 0
  readX : Nat := 0
  putErrors : UInt32 := 0
  getErrors : UInt32 := 0

namespace Fifo

variable {Value : Type} (len : Nat)

def advanceIndex (index : Nat) : Nat := if index < len - 1 then index + 1 else 0

def put (fifo : Fifo Value) (val : Value) : Bool × Fifo Value :=
  let index := advanceIndex len fifo.writeX
  if index = fifo.readX then (false, { fifo with putErrors := fifo.putErrors + 1 })
  else (true, { fifo with buffer := fifo.buffer.store fifo.writeX val, writeX := index })

/-- Nothing when the call returns false and leaves its argument untouched. -/
def get (fifo : Fifo Value) : Option Value × Fifo Value :=
  if fifo.readX = fifo.writeX then (none, { fifo with getErrors := fifo.getErrors + 1 })
  else (some (fifo.buffer fifo.readX), { fifo with readX := advanceIndex len fifo.readX })

def getElementCount (fifo : Fifo Value) : Nat :=
  let r := fifo.readX
  let w := fifo.writeX
  if r ≤ w then w - r else len - r + w

def getFreeSpaceCount (fifo : Fifo Value) : Nat := len - fifo.getElementCount len - 1

/-- The values between the two indices, oldest first. -/
def unread (fifo : Fifo Value) : List Value :=
  (List.range (fifo.getElementCount len)).map fun k => fifo.buffer ((fifo.readX + k) % len)

def isFull (fifo : Fifo Value) : Bool := advanceIndex len fifo.writeX == fifo.readX

def isEmpty (fifo : Fifo Value) : Bool := fifo.readX == fifo.writeX

def clear (fifo : Fifo Value) : Fifo Value := { fifo with readX := 0, writeX := 0 }

/-- Of the values passed so far, the fifo holds those that have not been gotten yet. -/
structure Carries (fifo : Fifo Value) (passed gotten : List Value) : Prop where
  gotten_prefix : gotten <+: passed
  room : passed.length < gotten.length + len
  writeX_eq : fifo.writeX = passed.length % len
  readX_eq : fifo.readX = gotten.length % len
  holds : Holds fifo.buffer len passed gotten.length

variable {len} {fifo : Fifo Value} {passed gotten : List Value}

theorem advanceIndex_mod {k : Nat} (hlen : 0 < len) :
    advanceIndex len (k % len) = (k + 1) % len := (slot_succ hlen).symm

/-- The reader leaves the cells alone. -/
theorem get_buffer (len : Nat) (fifo : Fifo Value) : (fifo.get len).2.buffer = fifo.buffer := by
  rw [get]
  split <;> rfl

theorem carries_initial (hlen : 0 < len) (buffer : Memory Value) :
    Carries len { buffer := buffer } [] [] :=
  ⟨List.prefix_rfl, by simpa using hlen, (Nat.zero_mod len).symm, (Nat.zero_mod len).symm,
    holds_nil⟩

namespace Carries

theorem len_pos (h : Carries len fifo passed gotten) : 0 < len := by
  have hle := h.gotten_prefix.length_le
  have hroom := h.room
  omega

theorem length_le (h : Carries len fifo passed gotten) : gotten.length ≤ passed.length :=
  h.gotten_prefix.length_le

theorem gotten_eq_take (h : Carries len fifo passed gotten) :
    gotten = passed.take gotten.length := List.prefix_iff_eq_take.mp h.gotten_prefix

/-- The error counters do not matter. -/
theorem of_eq {other : Fifo Value} (h : Carries len fifo passed gotten)
    (hbuffer : other.buffer = fifo.buffer) (hwriteX : other.writeX = fifo.writeX)
    (hreadX : other.readX = fifo.readX) : Carries len other passed gotten :=
  ⟨h.gotten_prefix, h.room, hwriteX.trans h.writeX_eq, hreadX.trans h.readX_eq,
    hbuffer ▸ h.holds⟩

theorem empty_iff (h : Carries len fifo passed gotten) :
    fifo.readX = fifo.writeX ↔ gotten.length = passed.length := by
  rw [h.readX_eq, h.writeX_eq]
  exact slot_eq_iff h.length_le h.room

theorem isEmpty_iff (h : Carries len fifo passed gotten) :
    fifo.isEmpty = true ↔ gotten.length = passed.length := by
  rw [isEmpty, beq_iff_eq]
  exact h.empty_iff

theorem next_writeX (h : Carries len fifo passed gotten) :
    advanceIndex len fifo.writeX = (passed.length + 1) % len := by
  rw [h.writeX_eq, advanceIndex_mod h.len_pos]

theorem next_readX (h : Carries len fifo passed gotten) :
    advanceIndex len fifo.readX = (gotten.length + 1) % len := by
  rw [h.readX_eq, advanceIndex_mod h.len_pos]

/-- One cell stays free, so that a full fifo differs from an empty one. -/
theorem full_iff (h : Carries len fifo passed gotten) :
    (passed.length + 1) % len = fifo.readX ↔ passed.length + 1 = gotten.length + len := by
  have hle := h.length_le
  have hroom := h.room
  rw [h.readX_eq]
  constructor
  · intro heq
    by_contra hne
    exact slot_ne (by omega) (by omega) heq.symm
  · intro heq
    rw [heq, Nat.add_mod_right]

theorem isFull_iff (h : Carries len fifo passed gotten) :
    fifo.isFull len = true ↔ passed.length + 1 = gotten.length + len := by
  rw [isFull, beq_iff_eq, h.next_writeX]
  exact h.full_iff

theorem readX_lt (h : Carries len fifo passed gotten) : fifo.readX < len :=
  h.readX_eq ▸ Nat.mod_lt _ h.len_pos

/-- `writeX` is ahead of `readX` by the number of values, at most once around. -/
theorem writeX_cases (h : Carries len fifo passed gotten) :
    (fifo.readX + (passed.length - gotten.length) < len ∧
        fifo.writeX = fifo.readX + (passed.length - gotten.length)) ∨
      len ≤ fifo.readX + (passed.length - gotten.length) ∧
        fifo.writeX + len = fifo.readX + (passed.length - gotten.length) := by
  have hroom := h.room
  obtain ⟨count, hcount⟩ := Nat.exists_eq_add_of_le h.length_le
  have hlt : count < len := by omega
  rw [h.writeX_eq, h.readX_eq, hcount, Nat.add_sub_cancel_left, Nat.add_mod_eq_ite,
    Nat.mod_eq_of_lt hlt]
  split <;> omega

theorem getElementCount_eq (h : Carries len fifo passed gotten) :
    fifo.getElementCount len = passed.length - gotten.length := by
  have hroom := h.room
  have hlt := h.readX_lt
  unfold getElementCount
  rcases h.writeX_cases with ⟨hend, hwriteX⟩ | ⟨hend, hwriteX⟩
  · rw [if_pos (by omega)]
    omega
  · rw [if_neg (by omega)]
    omega

theorem unread_eq (h : Carries len fifo passed gotten) :
    fifo.unread len = passed.drop gotten.length := by
  rw [unread, h.getElementCount_eq]
  apply List.ext_getElem?
  intro k
  by_cases hk : k < passed.length - gotten.length
  · have hcell := h.holds.getElem (Nat.le_add_right gotten.length k) (by omega)
    rw [List.getElem?_drop, hcell, List.getElem?_map, List.getElem?_range hk, h.readX_eq,
      Option.map_some, Nat.mod_add_mod]
  · rw [List.getElem?_eq_none (by simpa using hk), List.getElem?_eq_none (by simpa using hk)]

theorem getFreeSpaceCount_eq (h : Carries len fifo passed gotten) :
    fifo.getFreeSpaceCount len = len - 1 - (passed.length - gotten.length) := by
  rw [getFreeSpaceCount, h.getElementCount_eq]
  omega

/-- The cell behind the passed values may be stored into unless the fifo is full. -/
theorem store (h : Carries len fifo passed gotten) (val : Value) :
    Carries len { fifo with buffer := fifo.buffer.store (passed.length % len) val }
      passed gotten :=
  ⟨h.gotten_prefix, h.room, h.writeX_eq, h.readX_eq, h.holds.store_next h.room val⟩

/-- The store to `writeX` makes the value visible. -/
theorem publish (h : Carries len fifo passed gotten)
    (hroom : passed.length + 1 < gotten.length + len) {val : Value}
    (hstored : fifo.buffer (passed.length % len) = val) :
    Carries len { fifo with writeX := (passed.length + 1) % len } (passed ++ [val]) gotten := by
  refine ⟨h.gotten_prefix.trans (List.prefix_append _ _), ?_, ?_, h.readX_eq,
    h.holds.append hstored⟩
  · simpa using hroom
  · simp

/-- The value that the reader finds. -/
theorem fetch (h : Carries len fifo passed gotten) (hsome : gotten.length < passed.length) :
    passed[gotten.length]? = some (fifo.buffer (gotten.length % len)) :=
  h.holds.getElem (Nat.le_refl _) hsome

/-- The store to `readX` gives the cell of the value back. -/
theorem release (h : Carries len fifo passed gotten) {val : Value}
    (hval : passed[gotten.length]? = some val) :
    Carries len { fifo with readX := (gotten.length + 1) % len } passed (gotten ++ [val]) := by
  have hroom := h.room
  refine ⟨?_, ?_, h.writeX_eq, ?_, ?_⟩
  · obtain ⟨rest, rfl⟩ := h.gotten_prefix
    rw [List.getElem?_append_right (Nat.le_refl _), Nat.sub_self] at hval
    cases rest with
    | nil => cases hval
    | cons first rest =>
      cases hval
      exact ⟨rest, by simp⟩
  · simp only [List.length_append, List.length_singleton]
    omega
  · simp
  · exact h.holds.advance (by simp)

theorem clear (h : Carries len fifo passed gotten) : Carries len fifo.clear [] [] :=
  ⟨List.prefix_rfl, by simpa using h.len_pos, (Nat.zero_mod len).symm, (Nat.zero_mod len).symm,
    holds_nil⟩

/-- A call of `put` fails exactly when the fifo is full. -/
theorem put_cases (h : Carries len fifo passed gotten) (val : Value) :
    (passed.length + 1 = gotten.length + len ∧
        fifo.put len val = (false, { fifo with putErrors := fifo.putErrors + 1 })) ∨
      (passed.length + 1 < gotten.length + len ∧ (fifo.put len val).1 = true ∧
        Carries len (fifo.put len val).2 (passed ++ [val]) gotten) := by
  have hroom := h.room
  by_cases hfull : passed.length + 1 = gotten.length + len
  · refine Or.inl ⟨hfull, ?_⟩
    rw [put]
    rw [h.next_writeX, if_pos (h.full_iff.mpr hfull)]
  · have hput : fifo.put len val = (true, { fifo with
        buffer := fifo.buffer.store (passed.length % len) val
        writeX := (passed.length + 1) % len }) := by
      rw [put]
      rw [h.next_writeX, if_neg fun heq => hfull (h.full_iff.mp heq), h.writeX_eq]
    refine Or.inr ⟨by omega, by rw [hput], ?_⟩
    rw [hput]
    exact (h.store val).publish (by omega) (Memory.store_same _ _ _)

/-- A call of `get` fails exactly when the fifo is empty. -/
theorem get_cases (h : Carries len fifo passed gotten) :
    (gotten.length = passed.length ∧
        fifo.get len = (none, { fifo with getErrors := fifo.getErrors + 1 })) ∨
      (gotten.length < passed.length ∧
        ∃ val, passed[gotten.length]? = some val ∧ (fifo.get len).1 = some val ∧
          Carries len (fifo.get len).2 passed (gotten ++ [val])) := by
  have hle := h.length_le
  by_cases hempty : gotten.length = passed.length
  · refine Or.inl ⟨hempty, ?_⟩
    rw [get, if_pos (h.empty_iff.mpr hempty)]
  · have hval := h.fetch (by omega)
    have hget : fifo.get len = (some (fifo.buffer (gotten.length % len)),
        { fifo with readX := (gotten.length + 1) % len }) := by
      rw [get, if_neg fun heq => hempty (h.empty_iff.mp heq), h.next_readX, h.readX_eq]
    refine Or.inr ⟨by omega, _, hval, by rw [hget], ?_⟩
    rw [hget]
    exact h.release hval

end Carries

end Fifo

end Rodos.Api
