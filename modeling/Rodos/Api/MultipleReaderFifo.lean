import Rodos.Api.Fifo
import Rodos.Library.DropOldest

/-! The fifo with several readers. It takes every value: readers that are too slow for it lose
their oldest one. -/
namespace Rodos.Api
open Library Library.Slots

structure MultipleReaderFifo (Value : Type) where
  buffer : Memory Value
  writeX : Nat := 0
  readX : Nat → Nat := fun _ => 0
  overflowCnt : Nat → UInt32 := fun _ => 0

namespace MultipleReaderFifo

open Fifo (advanceIndex)

variable {Value : Type} (len numOfreaders : Nat)

/-- The round of the loop in `put` for the reader `i`: one reader is too slow, shift him. -/
def shift (nextIndex : Nat) (fifo : MultipleReaderFifo Value) (i : Nat) :
    MultipleReaderFifo Value :=
  if nextIndex = fifo.readX i then
    { fifo with
      readX := Function.update fifo.readX i (advanceIndex len (fifo.readX i))
      overflowCnt := Function.update fifo.overflowCnt i (fifo.overflowCnt i + 1) }
  else fifo

/-- Always puts, even if it overwrites. The index where the value was written is returned. -/
def put (fifo : MultipleReaderFifo Value) (val : Value) : Nat × MultipleReaderFifo Value :=
  let writtenPos := fifo.writeX
  let nextIndex := advanceIndex len fifo.writeX
  let shifted := (List.range numOfreaders).foldl (shift len nextIndex) fifo
  (writtenPos, { shifted with
    buffer := shifted.buffer.store shifted.writeX val
    writeX := nextIndex })

/-- Nothing when the call returns false and leaves its argument untouched. -/
def get (fifo : MultipleReaderFifo Value) (readerId : Nat) :
    Option Value × MultipleReaderFifo Value :=
  if readerId ≥ numOfreaders then (none, fifo)
  else if fifo.readX readerId = fifo.writeX then (none, fifo)
  else (some (fifo.buffer (fifo.readX readerId)), { fifo with
    readX := Function.update fifo.readX readerId (advanceIndex len (fifo.readX readerId)) })

/-- The fifo as one of its readers sees it. -/
def view (fifo : MultipleReaderFifo Value) (i : Nat) : Fifo Value where
  buffer := fifo.buffer
  writeX := fifo.writeX
  readX := fifo.readX i

section shift

variable (nextIndex : Nat) (fifo : MultipleReaderFifo Value) (i : Nat)

theorem shift_other {other : Nat} (hother : other ≠ i) :
    (shift len nextIndex fifo i).readX other = fifo.readX other ∧
      (shift len nextIndex fifo i).overflowCnt other = fifo.overflowCnt other := by
  unfold shift
  split
  · exact ⟨Function.update_of_ne hother _ _, Function.update_of_ne hother _ _⟩
  · exact ⟨rfl, rfl⟩

theorem shift_self :
    (shift len nextIndex fifo i).readX i =
        (if nextIndex = fifo.readX i then advanceIndex len (fifo.readX i) else fifo.readX i) ∧
      (shift len nextIndex fifo i).overflowCnt i =
        (if nextIndex = fifo.readX i then fifo.overflowCnt i + 1 else fifo.overflowCnt i) := by
  unfold shift
  split
  · exact ⟨Function.update_self _ _ _, Function.update_self _ _ _⟩
  · exact ⟨rfl, rfl⟩

theorem shift_buffer :
    (shift len nextIndex fifo i).buffer = fifo.buffer ∧
      (shift len nextIndex fifo i).writeX = fifo.writeX := by
  unfold shift
  split <;> exact ⟨rfl, rfl⟩

/-- The loop has shifted the readers below its bound that are too slow, and no others. -/
theorem foldl_shift (count : Nat) :
    let shifted := (List.range count).foldl (shift len nextIndex) fifo
    shifted.buffer = fifo.buffer ∧ shifted.writeX = fifo.writeX ∧
      (∀ i, shifted.readX i =
        if i < count ∧ nextIndex = fifo.readX i then advanceIndex len (fifo.readX i)
        else fifo.readX i) ∧
      ∀ i, shifted.overflowCnt i =
        if i < count ∧ nextIndex = fifo.readX i then fifo.overflowCnt i + 1
        else fifo.overflowCnt i := by
  induction count with
  | zero => simp
  | succ count ih =>
    obtain ⟨hbuffer, hwriteX, hreadX, hoverflowCnt⟩ := ih
    rw [List.range_succ, List.foldl_append, List.foldl_cons, List.foldl_nil]
    generalize (List.range count).foldl (shift len nextIndex) fifo = shifted at *
    obtain ⟨hbuffer', hwriteX'⟩ := shift_buffer len nextIndex shifted count
    refine ⟨hbuffer'.trans hbuffer, hwriteX'.trans hwriteX, fun i => ?_, fun i => ?_⟩
    · by_cases hi : i = count
      · subst hi
        rw [(shift_self len nextIndex shifted i).1, hreadX i]
        simp
      · rw [(shift_other len nextIndex shifted count hi).1, hreadX i]
        have hlt : i < count + 1 ↔ i < count := by omega
        simp only [hlt]
    · by_cases hi : i = count
      · subst hi
        rw [(shift_self len nextIndex shifted i).2, hreadX i, hoverflowCnt i]
        simp
      · rw [(shift_other len nextIndex shifted count hi).2, hoverflowCnt i]
        have hlt : i < count + 1 ↔ i < count := by omega
        simp only [hlt]

end shift

section accounting

variable {len numOfreaders} {fifo : MultipleReaderFifo Value} {i : Nat}

theorem view_put (val : Value) (hi : i < numOfreaders) :
    (fifo.put len numOfreaders val).2.view i =
      { (fifo.view i) with
        buffer := fifo.buffer.store fifo.writeX val
        writeX := advanceIndex len fifo.writeX
        readX := if advanceIndex len fifo.writeX = fifo.readX i then
          advanceIndex len (fifo.readX i) else fifo.readX i } := by
  obtain ⟨hbuffer, hwriteX, hreadX, -⟩ :=
    foldl_shift len (advanceIndex len fifo.writeX) fifo numOfreaders
  simp only [put, view, hbuffer, hwriteX, hreadX, hi, true_and]

theorem overflowCnt_put (val : Value) (hi : i < numOfreaders) :
    (fifo.put len numOfreaders val).2.overflowCnt i =
      if advanceIndex len fifo.writeX = fifo.readX i then fifo.overflowCnt i + 1
      else fifo.overflowCnt i := by
  obtain ⟨-, -, -, hoverflowCnt⟩ :=
    foldl_shift len (advanceIndex len fifo.writeX) fifo numOfreaders
  simp only [put, hoverflowCnt, hi, true_and]

/-- A call of `get` leaves the other readers alone. -/
theorem get_other {readerId : Nat} (hi : i ≠ readerId) :
    (fifo.get len numOfreaders readerId).2.view i = fifo.view i ∧
      (fifo.get len numOfreaders readerId).2.overflowCnt i = fifo.overflowCnt i := by
  rw [get]
  split
  · exact ⟨rfl, rfl⟩
  · split
    · exact ⟨rfl, rfl⟩
    · simp [view, Function.update_of_ne hi]

theorem get_of_empty (hi : i < numOfreaders) (hempty : fifo.readX i = fifo.writeX) :
    fifo.get len numOfreaders i = (none, fifo) := by
  rw [get, if_neg (Nat.not_le_of_lt hi), if_pos hempty]

theorem get_of_some (hi : i < numOfreaders) (hsome : fifo.readX i ≠ fifo.writeX) :
    fifo.get len numOfreaders i = (some (fifo.buffer (fifo.readX i)), { fifo with
      readX := Function.update fifo.readX i (advanceIndex len (fifo.readX i)) }) := by
  rw [get, if_neg (Nat.not_le_of_lt hi), if_neg hsome]

theorem cut_iff {passed gone : List Value} (h : Fifo.Carries len (fifo.view i) passed gone) :
    advanceIndex len fifo.writeX = fifo.readX i ↔ passed.length + 1 = gone.length + len := by
  rw [← h.full_iff, ← h.next_writeX]
  rfl

/-- A put passes the value to the reader and, when no cell is free for it, moves the reader on. -/
theorem put_cases {passed gone : List Value} (h : Fifo.Carries len (fifo.view i) passed gone)
    (hlen : 2 ≤ len) (hi : i < numOfreaders) (val : Value) :
    (passed.length + 1 = gone.length + len ∧
        (∃ oldest, passed[gone.length]? = some oldest ∧
          Fifo.Carries len ((fifo.put len numOfreaders val).2.view i) (passed ++ [val])
            (gone ++ [oldest])) ∧
        (fifo.put len numOfreaders val).2.overflowCnt i = fifo.overflowCnt i + 1) ∨
      (passed.length + 1 < gone.length + len ∧
        Fifo.Carries len ((fifo.put len numOfreaders val).2.view i) (passed ++ [val]) gone ∧
        (fifo.put len numOfreaders val).2.overflowCnt i = fifo.overflowCnt i) := by
  have hstore {view : Fifo Value} {gone : List Value} (hcarries : Fifo.Carries len view passed gone)
      (hroom : passed.length + 1 < gone.length + len) (hwriteX : view.writeX = fifo.writeX) :
      Fifo.Carries len { view with
        buffer := view.buffer.store fifo.writeX val
        writeX := advanceIndex len fifo.writeX } (passed ++ [val]) gone := by
    rw [← hwriteX, hcarries.next_writeX, hcarries.writeX_eq]
    exact (hcarries.store val).publish hroom (Memory.store_same _ _ _)
  have hroom := h.room
  by_cases hcut : advanceIndex len fifo.writeX = fifo.readX i
  · have hlength := (cut_iff h).mp hcut
    have hfetch := h.fetch (by omega)
    have hreleased := h.release hfetch
    rw [← h.next_readX] at hreleased
    refine Or.inl ⟨hlength, ⟨_, hfetch, ?_⟩, ?_⟩
    · refine (hstore hreleased ?_ rfl).of_eq ?_ ?_ ?_
      · rw [List.length_append, List.length_singleton]
        omega
      all_goals rw [view_put val hi]
      · rfl
      · exact if_pos hcut
    · rw [overflowCnt_put val hi, if_pos hcut]
  · have hlength := mt (cut_iff h).mpr hcut
    refine Or.inr ⟨by omega, ?_, ?_⟩
    · refine (hstore h (by omega) rfl).of_eq ?_ ?_ ?_
      all_goals rw [view_put val hi]
      · rfl
      · exact if_neg hcut
    · rw [overflowCnt_put val hi, if_neg hcut]

/-- The reader `i` is where its account says. -/
structure Follows (len : Nat) (fifo : MultipleReaderFifo Value) (i : Nat)
    (account : Account Value) : Prop where
  carries : Fifo.Carries len (fifo.view i) account.values (account.settled.map Prod.snd)
  overflowCnt_eq : fifo.overflowCnt i = UInt32.ofNat (account.withFate .dropped).length

namespace Follows

variable {account : Account Value}

theorem initial (hlen : 0 < len) (buffer : Memory Value) (i : Nat) :
    Follows len { buffer := buffer } i {} :=
  ⟨Fifo.carries_initial hlen buffer, rfl⟩

theorem length_settled (account : Account Value) :
    (account.settled.map Prod.snd).length = account.settled.length := List.length_map Prod.snd

theorem empty_iff (h : Follows len fifo i account) :
    fifo.readX i = fifo.writeX ↔ account.pending = [] := by
  have hempty := h.carries.empty_iff
  rw [length_settled, account.length_values] at hempty
  rw [← List.length_eq_zero_iff]
  exact hempty.trans (by omega)

/-- The reader is given the oldest pending value. -/
theorem head?_pending (h : Follows len fifo i account) (hi : i < numOfreaders) :
    (fifo.get len numOfreaders i).1 = account.pending.head? := by
  by_cases hempty : fifo.readX i = fifo.writeX
  · rw [get_of_empty hi hempty, h.empty_iff.mp hempty]
    rfl
  · have hpending : account.pending ≠ [] := mt h.empty_iff.mpr hempty
    have hfetch := h.carries.fetch (by
      have hlength := List.length_pos_of_ne_nil hpending
      rw [length_settled, account.length_values]
      omega)
    rw [get_of_some hi hempty, ← account.getElem?_values, ← length_settled, hfetch]
    rw [← h.carries.readX_eq]
    rfl

theorem pending_eq (h : Follows len fifo i account) :
    account.pending = (fifo.view i).unread len := by
  rw [h.carries.unread_eq, Account.values, List.drop_left]

/-- Moving the read index settles the oldest pending value, whatever its fate. -/
theorem settle (h : Follows len fifo i account) (fate : Fate) {oldest : Value}
    {pending : List Value} (hpending : account.pending = oldest :: pending) :
    Fifo.Carries len { fifo.view i with readX := advanceIndex len (fifo.readX i) }
      (account.settle fate).values ((account.settle fate).settled.map Prod.snd) := by
  have hval : account.values[(account.settled.map Prod.snd).length]? = some oldest := by
    rw [length_settled, account.getElem?_values, hpending]
    rfl
  have hreleased := h.carries.release hval
  rw [← h.carries.next_readX] at hreleased
  rw [account.values_settle, account.settle_of_cons fate hpending, List.map_append]
  exact hreleased

theorem get (h : Follows len fifo i account) (hi : i < numOfreaders) :
    Follows len (fifo.get len numOfreaders i).2 i account.get := by
  cases hpending : account.pending with
  | nil =>
    rw [get_of_empty hi (h.empty_iff.mpr hpending), Account.get, Account.settle_of_nil _ hpending]
    exact h
  | cons oldest pending =>
    have hsome : fifo.readX i ≠ fifo.writeX := by
      rw [Ne, h.empty_iff, hpending]
      exact List.cons_ne_nil _ _
    rw [get_of_some hi hsome]
    constructor
    · refine (h.settle .delivered hpending).of_eq rfl rfl ?_
      exact Function.update_self _ _ _
    · rw [Account.get, Account.withFate_settle _ _ hpending]
      simpa using h.overflowCnt_eq

theorem get_other (h : Follows len fifo i account) {readerId : Nat} (hi : i ≠ readerId) :
    Follows len (fifo.get len numOfreaders readerId).2 i account := by
  obtain ⟨hview, hoverflowCnt⟩ :=
    @MultipleReaderFifo.get_other Value len numOfreaders fifo i readerId hi
  exact ⟨hview ▸ h.carries, hoverflowCnt.trans h.overflowCnt_eq⟩

theorem put (h : Follows len fifo i account) (hlen : 2 ≤ len) (hi : i < numOfreaders)
    (val : Value) :
    Follows len (fifo.put len numOfreaders val).2 i (account.put (len - 1) val) := by
  have hlength : account.values.length + 1 = (account.settled.map Prod.snd).length + len ↔
      account.pending.length = len - 1 := by
    rw [length_settled, account.length_values]
    omega
  obtain ⟨hfull, ⟨oldest, holdest, hcarries⟩, hoverflowCnt⟩ | ⟨hroom, hcarries, hoverflowCnt⟩ :=
    put_cases h.carries hlen hi val
  · obtain ⟨first, pending, hpending⟩ : ∃ first pending, account.pending = first :: pending :=
      List.exists_cons_of_length_pos (by rw [hlength.mp hfull]; omega)
    have hfirst : oldest = first := by
      rw [length_settled, account.getElem?_values, hpending] at holdest
      exact (Option.some.inj holdest).symm
    subst hfirst
    have hput : account.put (len - 1) val = (account.settle .dropped).push val := by
      rw [Account.put, if_pos (hlength.mp hfull)]
    constructor
    · rw [account.values_put, hput, account.settle_of_cons .dropped hpending, Account.push,
        List.map_append]
      exact hcarries
    · rw [hoverflowCnt, h.overflowCnt_eq, hput, Account.withFate_push,
        Account.withFate_settle _ _ hpending, if_pos rfl, List.length_append, UInt32.ofNat_add]
      rfl
  · have hput : account.put (len - 1) val = account.push val := by
      rw [Account.put, if_neg (mt hlength.mpr (Nat.ne_of_lt hroom))]
    constructor
    · rw [account.values_put, hput]
      exact hcarries
    · rw [hoverflowCnt, h.overflowCnt_eq, hput, Account.withFate_push]

end Follows

end accounting

inductive Call (Value : Type) where
  | put (val : Value)
  | get (readerId : Nat)

/-- The fifo and what its users have seen: the values put so far and those that each reader has
gotten. -/
structure Usage (Value : Type) where
  fifo : MultipleReaderFifo Value
  passed : List Value := []
  gotten : Nat → List Value := fun _ => []

def Usage.call (usage : Usage Value) : Call Value → Usage Value
  | .put val =>
    { usage with fifo := (usage.fifo.put len numOfreaders val).2, passed := usage.passed ++ [val] }
  | .get readerId =>
    let (val, fifo) := usage.fifo.get len numOfreaders readerId
    { usage with
      fifo := fifo
      gotten := Function.update usage.gotten readerId (usage.gotten readerId ++ val.toList) }

/-- What a call means for the values of the reader `i`. -/
def accountFor (i : Nat) (account : Account Value) : Call Value → Account Value
  | .put val => account.put (len - 1) val
  | .get readerId => if i = readerId then account.get else account

section usage

variable {len numOfreaders} {usage : Usage Value} {account : Account Value} {i : Nat}

/-- The account of a reader agrees with what has been seen. -/
structure Accounts (len : Nat) (usage : Usage Value) (i : Nat) (account : Account Value) :
    Prop where
  follows : Follows len usage.fifo i account
  passed_eq : account.values = usage.passed
  gotten_eq : account.withFate .delivered = usage.gotten i

theorem Accounts.call (h : Accounts len usage i account) (hlen : 2 ≤ len) (hi : i < numOfreaders)
    (call : Call Value) :
    Accounts len (usage.call len numOfreaders call) i (accountFor len i account call) := by
  cases call with
  | put val =>
    refine ⟨h.follows.put hlen hi val, ?_, ?_⟩
    · change (account.put (len - 1) val).values = usage.passed ++ [val]
      rw [account.values_put, h.passed_eq]
    · exact (account.withFate_put_delivered _ _).trans h.gotten_eq
  | get readerId =>
    by_cases hreader : i = readerId
    · subst hreader
      rw [accountFor, if_pos rfl]
      refine ⟨h.follows.get hi, ?_, ?_⟩
      · exact account.values_get.trans h.passed_eq
      · simp only [Usage.call, Function.update_self]
        rw [h.follows.head?_pending hi, ← h.gotten_eq]
        exact account.withFate_get
    · rw [accountFor, if_neg hreader]
      refine ⟨h.follows.get_other hreader, h.passed_eq, ?_⟩
      simp only [Usage.call, Function.update_of_ne hreader]
      exact h.gotten_eq

theorem Accounts.calls (h : Accounts len usage i account) (hlen : 2 ≤ len) (hi : i < numOfreaders)
    (calls : List (Call Value)) :
    Accounts len (calls.foldl (Usage.call len numOfreaders) usage) i
      (calls.foldl (accountFor len i) account) := by
  induction calls generalizing usage account with
  | nil => exact h
  | cons call calls ih => exact ih (h.call hlen hi call)

/-- Every value that was put is, for each reader, delivered, pending or counted as dropped. -/
theorem accounting (hlen : 2 ≤ len) (buffer : Memory Value) (calls : List (Call Value)) :
    let usage := calls.foldl (Usage.call len numOfreaders) { fifo := { buffer := buffer } }
    ∀ i < numOfreaders,
      let account := calls.foldl (accountFor len i) {}
      account.settled.map Prod.snd ++ account.pending = usage.passed ∧
        account.withFate .delivered = usage.gotten i ∧
        (usage.gotten i).Sublist usage.passed ∧
        account.pending = (usage.fifo.view i).unread len ∧
        usage.fifo.overflowCnt i = UInt32.ofNat (account.withFate .dropped).length ∧
        (usage.fifo.get len numOfreaders i).1 = account.pending.head? ∧
        ∀ readerId, i ≠ readerId →
          (usage.fifo.get len numOfreaders readerId).2.view i = usage.fifo.view i ∧
            (usage.fifo.get len numOfreaders readerId).2.overflowCnt i =
              usage.fifo.overflowCnt i := by
  intro usage i hi account
  have hstart : Accounts len { fifo := { buffer := buffer } } i ({} : Account Value) :=
    ⟨.initial (by omega) buffer i, rfl, rfl⟩
  have h := hstart.calls hlen hi calls
  refine ⟨h.passed_eq, h.gotten_eq, ?_, h.follows.pending_eq, h.follows.overflowCnt_eq,
    h.follows.head?_pending hi, fun readerId hreader => get_other hreader⟩
  rw [← h.gotten_eq, ← h.passed_eq]
  exact account.withFate_sublist .delivered

theorem accounting_two_readers :
    let calls : List (Call Nat) := [.put 1, .put 2, .get 0, .put 3, .get 0, .put 4]
    let usage := calls.foldl (Usage.call 3 2) { fifo := { buffer := fun _ => 0 } }
    usage.gotten 0 = [1, 2] ∧ usage.gotten 1 = [] ∧ usage.fifo.overflowCnt 1 = 2 ∧
      ∀ i < 2, (usage.gotten i).Sublist usage.passed :=
  ⟨by decide, by decide, by decide, fun i hi => (accounting (by decide) (fun _ => 0)
    [.put 1, .put 2, .get 0, .put 3, .get 0, .put 4] i hi).2.2.1⟩

end usage

end MultipleReaderFifo

end Rodos.Api
