import Mathlib.Data.List.Forall2
import Mathlib.Data.List.Perm.Basic
import Rodos.Gateway.LinkinterfaceCAN

/-! The telegram buffers of `LinkinterfaceCAN`: every buffer is either free, in the linked list or
in use by the running call, and each operation moves one of them. -/
namespace Rodos.Gateway
open Library

namespace LinkinterfaceCAN

def next (self : LinkinterfaceCAN) (msg : Nat) : Option Nat :=
  (self.bufferedCANMessageMemory msg).next

/-- The buffers on the stack of free ones. -/
def free (self : LinkinterfaceCAN) : List Nat :=
  Memory.front self.emptyBufferedCANMessages (self.emptyBufferedCANMessagesPos + 1).toNat

/-- `slots` are the buffers in the linked list and `inHand` those the running call holds. -/
structure Pool (link : LinkinterfaceCAN) (slots inHand : List Nat) : Prop where
  linked : Linked link.next none link.bufferedCANMsgsStart slots
  last : link.bufferedCANMsgsEnd = slots.getLast?
  pos_ge : -1 ≤ link.emptyBufferedCANMessagesPos
  partition : (link.free ++ slots ++ inHand).Perm (List.range CAN_MSG_BUFFER_SIZE)
  isBroadcastLink : link.isBroadcastLink = true

/-- Between two calls each buffer is once on the stack of free ones or once in the linked list,
which runs through `slots` and ends there. -/
structure Partitioned (link : LinkinterfaceCAN) (slots : List Nat) : Prop where
  linked : Linked link.next none link.bufferedCANMsgsStart slots
  acyclic : slots.Nodup
  last : link.bufferedCANMsgsEnd = slots.getLast?
  pos_ge : -1 ≤ link.emptyBufferedCANMessagesPos
  pos_le : link.emptyBufferedCANMessagesPos ≤ CAN_MSG_BUFFER_SIZE - 1
  inside : ∀ slot ∈ link.free ++ slots, slot < CAN_MSG_BUFFER_SIZE
  once : ∀ slot < CAN_MSG_BUFFER_SIZE, (link.free ++ slots).count slot = 1

/-- The buffers hold these telegrams. -/
def Holds (link : LinkinterfaceCAN) (slots : List Nat) (telegrams : List Telegram) : Prop :=
  List.Forall₂ (fun msg telegram =>
    (link.bufferedCANMessageMemory msg).telegram = some telegram) slots telegrams

/-- Nothing but the telegram buffers differs. -/
structure SameMessage (before after : LinkinterfaceCAN) : Prop where
  reassembly : after.reassembly = before.reassembly
  currentMsgSet : after.currentMsgSet = before.currentMsgSet

theorem SameMessage.trans {first second third : LinkinterfaceCAN} (h : SameMessage first second)
    (h' : SameMessage second third) : SameMessage first third :=
  ⟨h'.reassembly.trans h.reassembly, h'.currentMsgSet.trans h.currentMsgSet⟩

section

variable {link : LinkinterfaceCAN} {slots inHand : List Nat} {msg : Nat}

@[simp] theorem length_free (link : LinkinterfaceCAN) :
    link.free.length = (link.emptyBufferedCANMessagesPos + 1).toNat :=
  Memory.length_front _ _

theorem Pool.nodup (h : link.Pool slots inHand) : (link.free ++ slots ++ inHand).Nodup :=
  h.partition.nodup_iff.mpr List.nodup_range

theorem Pool.nodup_slots (h : link.Pool slots inHand) : slots.Nodup :=
  (List.nodup_append.mp (List.nodup_append.mp h.nodup).1).2.1

theorem Pool.not_mem_slots (h : link.Pool slots [msg]) : msg ∉ slots := by
  intro hmem
  exact (List.nodup_append.mp h.nodup).2.2 msg (List.mem_append_right _ hmem) msg
    List.mem_cons_self rfl

theorem Pool.length (h : link.Pool slots inHand) :
    (link.emptyBufferedCANMessagesPos + 1).toNat + slots.length + inHand.length =
      CAN_MSG_BUFFER_SIZE := by
  have hlength := h.partition.length_eq
  rwa [List.length_append, List.length_append, length_free, List.length_range] at hlength

theorem Pool.partitioned (h : link.Pool slots []) : link.Partitioned slots := by
  have hlength := h.length
  have hpos := h.pos_ge
  have hall := h.partition
  rw [List.append_nil] at hall
  refine ⟨h.linked, h.nodup_slots, h.last, hpos, by omega, fun slot hslot => ?_,
    fun slot hslot => ?_⟩
  · exact List.mem_range.mp (hall.mem_iff.mp hslot)
  · rw [hall.count_eq]
    exact List.count_eq_one_of_mem List.nodup_range (List.mem_range.mpr hslot)

theorem Holds.congr {other : LinkinterfaceCAN} {telegrams : List Telegram}
    (h : link.Holds slots telegrams)
    (hsame : ∀ slot ∈ slots, (other.bufferedCANMessageMemory slot).telegram =
      (link.bufferedCANMessageMemory slot).telegram) : other.Holds slots telegrams := by
  unfold Holds at h ⊢
  induction h with
  | nil => exact List.Forall₂.nil
  | cons hfirst _ ih =>
    refine List.Forall₂.cons ((hsame _ List.mem_cons_self).trans hfirst) ?_
    exact ih fun slot hslot => hsame slot (List.mem_cons_of_mem _ hslot)

@[simp] theorem next_setNext (link : LinkinterfaceCAN) (msg : Nat) (target : Option Nat) :
    (link.setNext msg target).next = Function.update link.next msg target := by
  funext slot
  by_cases hslot : slot = msg
  · subst hslot
    simp [next, setNext]
  · simp [next, setNext, Memory.store_other _ _ hslot, hslot]

@[simp] theorem telegram_setNext (link : LinkinterfaceCAN) (msg slot : Nat)
    (target : Option Nat) :
    ((link.setNext msg target).bufferedCANMessageMemory slot).telegram =
      (link.bufferedCANMessageMemory slot).telegram := by
  by_cases hslot : slot = msg
  · subst hslot
    simp [setNext]
  · simp [setNext, Memory.store_other _ _ hslot]

@[simp] theorem next_read (link : LinkinterfaceCAN) (msg : Nat) :
    (link.read msg).next = link.next := by
  funext slot
  by_cases hslot : slot = msg
  · subst hslot
    simp [next, read]
  · simp [next, read, Memory.store_other _ _ hslot]

theorem telegram_read (link : LinkinterfaceCAN) (msg : Nat) :
    ((link.read msg).bufferedCANMessageMemory msg).telegram = link.can.head? := by
  simp [read]

theorem telegram_read_other (link : LinkinterfaceCAN) {msg slot : Nat} (hslot : slot ≠ msg) :
    (link.read msg).bufferedCANMessageMemory slot = link.bufferedCANMessageMemory slot := by
  simp [read, Memory.store_other _ _ hslot]

theorem Pool.read (h : link.Pool slots inHand) (msg : Nat) : (link.read msg).Pool slots inHand :=
  ⟨by rw [next_read]; exact h.linked, h.last, h.pos_ge, h.partition, h.isBroadcastLink⟩

/-- A buffer the call holds goes back to the free ones. -/
theorem Pool.release (h : link.Pool slots [msg]) :
    ∃ after, link.release msg = some after ∧ after.Pool slots [] ∧ SameMessage link after ∧
      after.bufferedCANMessageMemory = link.bufferedCANMessageMemory ∧ after.can = link.can ∧
      after.mostBuffered = link.mostBuffered := by
  have hlength := h.length
  have hpos := h.pos_ge
  rw [List.length_singleton] at hlength
  have hinside : ¬ (link.emptyBufferedCANMessagesPos + 1 < 0 ∨
      link.emptyBufferedCANMessagesPos + 1 ≥ CAN_MSG_BUFFER_SIZE) := by omega
  rw [LinkinterfaceCAN.release, if_neg hinside]
  refine ⟨_, rfl, ⟨h.linked, h.last, ?_, ?_, h.isBroadcastLink⟩, ⟨rfl, rfl⟩, rfl, rfl, rfl⟩
  · show -1 ≤ link.emptyBufferedCANMessagesPos + 1
    omega
  · have hcount : (link.emptyBufferedCANMessagesPos + 1 + 1).toNat =
        (link.emptyBufferedCANMessagesPos + 1).toNat + 1 := by omega
    rw [List.append_nil, free, hcount, Memory.front_store_end]
    refine List.Perm.trans ?_ h.partition
    rw [List.append_assoc, List.append_assoc]
    exact List.Perm.append_left _ List.perm_append_comm

/-- The walk ends at the last two buffers of the linked list. -/
theorem findLast_eq {link : LinkinterfaceCAN} {front : List Nat} {start before last fuel : Nat}
    {previous : Option Nat} (h : Linked link.next none (some start) (front ++ [before, last]))
    (hfuel : front.length + 2 ≤ fuel) :
    findLast link.bufferedCANMessageMemory fuel previous start = some (some before, last) := by
  induction front generalizing start previous fuel with
  | nil =>
    obtain ⟨fuel, rfl⟩ := Nat.exists_eq_add_of_le' hfuel
    have hstart : start = before := Option.some.inj h.start_eq_head
    have hnext : (link.bufferedCANMessageMemory before).next = some last := h.tail.start_eq_head
    have hend : (link.bufferedCANMessageMemory last).next = none := h.tail.tail
    simp [findLast, hstart, hnext, hend]
  | cons node front ih =>
    rw [List.cons_append] at h
    obtain ⟨less, rfl⟩ := Nat.exists_eq_succ_of_ne_zero (show fuel ≠ 0 by omega)
    obtain ⟨second, others, hcons⟩ := List.exists_cons_of_ne_nil
      (show front ++ [before, last] ≠ [] by simp)
    have hstart : start = node := Option.some.inj h.start_eq_head
    have hrest := h.tail
    have hsecond : link.next node = some second := by
      rw [hcons] at hrest
      exact hrest.start_eq_head
    rw [hsecond] at hrest
    rw [List.length_cons] at hfuel
    have hlink : (link.bufferedCANMessageMemory node).next = some second := hsecond
    simp only [findLast, hstart, hlink]
    exact ih hrest (by omega)

/-- Without a free buffer the last one of the linked list is taken. -/
theorem Pool.stealLast (h : link.Pool slots [])
    (hfull : link.emptyBufferedCANMessagesPos < 0) :
    ∃ msg after, link.stealLast = some (msg, after) ∧ after.Pool slots.dropLast [msg] ∧
      SameMessage link after ∧ after.can = link.can ∧ after.mostBuffered = link.mostBuffered ∧
      (∀ slot, (after.bufferedCANMessageMemory slot).telegram =
        (link.bufferedCANMessageMemory slot).telegram) ∧
      after.emptyBufferedCANMessagesPos = link.emptyBufferedCANMessagesPos := by
  have hlength := h.length
  have hnone : (link.emptyBufferedCANMessagesPos + 1).toNat = 0 := by omega
  rw [hnone, List.length_nil, Nat.zero_add, Nat.add_zero] at hlength
  obtain ⟨front, before, last, hslots⟩ : ∃ front before last, slots = front ++ [before, last] := by
    cases slots using List.reverseRecOn with
    | nil => simp [CAN_MSG_BUFFER_SIZE] at hlength
    | append_singleton shorter last =>
      cases shorter using List.reverseRecOn with
      | nil => simp [CAN_MSG_BUFFER_SIZE] at hlength
      | append_singleton front before => exact ⟨front, before, last, by simp⟩
  subst hslots
  obtain ⟨start, hstart⟩ : ∃ start, link.bufferedCANMsgsStart = some start := by
    obtain ⟨start, others, hcons⟩ := List.exists_cons_of_ne_nil
      (show front ++ [before, last] ≠ [] by simp)
    have hlinked := h.linked
    rw [hcons] at hlinked
    exact ⟨start, hlinked.start_eq_head⟩
  have hwalk : findLast link.bufferedCANMessageMemory CAN_MSG_BUFFER_SIZE none start =
      some (some before, last) := by
    have hlinked := h.linked
    rw [hstart] at hlinked
    rw [List.length_append, List.length_cons, List.length_singleton] at hlength
    exact findLast_eq hlinked (by omega)
  have hsplit : front ++ [before, last] = front ++ [before] ++ [last] := by simp
  have hdrop : (front ++ [before, last]).dropLast = front ++ [before] := by
    rw [hsplit, List.dropLast_concat]
  simp only [LinkinterfaceCAN.stealLast, hstart, hwalk, hdrop]
  refine ⟨last, _, rfl, ⟨?_, ?_, h.pos_ge, ?_, h.isBroadcastLink⟩, ⟨rfl, rfl⟩, rfl, rfl,
    fun slot => telegram_setNext link before slot none, rfl⟩
  · have hlinked := h.linked
    have hnodup := h.nodup_slots
    rw [hsplit] at hlinked hnodup
    have hshort := hlinked.dropLast hnodup
    rw [← next_setNext] at hshort
    exact hshort
  · rw [List.getLast?_concat]
  · have hpartition := h.partition
    rw [hsplit, List.append_nil, ← List.append_assoc] at hpartition
    exact hpartition

/-- The free buffer that was given back last is in use. -/
theorem Pool.takeFree (h : link.Pool slots []) (hfree : 0 ≤ link.emptyBufferedCANMessagesPos) :
    Pool { link with emptyBufferedCANMessagesPos := link.emptyBufferedCANMessagesPos - 1 } slots
      [link.emptyBufferedCANMessages link.emptyBufferedCANMessagesPos.toNat] := by
  refine ⟨h.linked, h.last, ?_, ?_, h.isBroadcastLink⟩
  · show -1 ≤ link.emptyBufferedCANMessagesPos - 1
    omega
  · have hcount : (link.emptyBufferedCANMessagesPos + 1).toNat =
        (link.emptyBufferedCANMessagesPos - 1 + 1).toNat + 1 := by omega
    have hindex : (link.emptyBufferedCANMessagesPos - 1 + 1).toNat =
        link.emptyBufferedCANMessagesPos.toNat := by omega
    have hpartition := h.partition
    rw [free, hcount, Memory.front_succ, List.append_nil, List.append_assoc, hindex]
      at hpartition
    rw [free, List.append_assoc]
    refine List.Perm.trans ?_ hpartition
    dsimp only
    rw [hindex]
    exact List.Perm.append_left _ List.perm_append_comm

/-- A free buffer, or else the last one of the linked list, takes the next telegram. -/
theorem Pool.receive {telegram : Telegram} {can : List Telegram} (h : link.Pool slots [])
    (hcan : link.can = telegram :: can) :
    ∃ msg after, link.receiveCANMessage = some (some msg, after) ∧
      after.Pool (if slots.length < CAN_MSG_BUFFER_SIZE then slots else slots.dropLast) [msg] ∧
      SameMessage link after ∧ after.can = can ∧ after.mostBuffered = link.mostBuffered ∧
      (after.bufferedCANMessageMemory msg).telegram = some telegram ∧
      (∀ slot, slot ≠ msg → (after.bufferedCANMessageMemory slot).telegram =
        (link.bufferedCANMessageMemory slot).telegram) := by
  have hlength := h.length
  have hpos := h.pos_ge
  rw [List.length_nil] at hlength
  have hreceived : link.can ≠ [] := by simp [hcan]
  by_cases hfull : link.emptyBufferedCANMessagesPos < 0
  · obtain ⟨msg, taken, hsteal, hpool, hsame, htakenCan, hmost, htelegrams, htakenPos⟩ :=
      h.stealLast hfull
    have hslots : ¬ slots.length < CAN_MSG_BUFFER_SIZE := by omega
    have htaken : taken.can ≠ [] := by rw [htakenCan]; exact hreceived
    have htakenFull : (taken.read msg).emptyBufferedCANMessagesPos < 0 := by
      show taken.emptyBufferedCANMessagesPos < 0
      rw [htakenPos]
      exact hfull
    refine ⟨msg, taken.read msg, ?_, ?_, ⟨hsame.reassembly, hsame.currentMsgSet⟩, ?_, hmost, ?_, ?_⟩
    · simp only [receiveCANMessage, h.isBroadcastLink, Bool.not_true, Bool.false_eq_true, if_false,
        if_pos hfull, hsteal, Option.bind_some, if_pos htaken, if_pos htakenFull]
    · rw [if_neg hslots]
      exact hpool.read msg
    · show taken.can.tail = can
      rw [htakenCan, hcan, List.tail_cons]
    · rw [telegram_read, htakenCan, hcan, List.head?_cons]
    · intro slot hslot
      rw [telegram_read_other taken hslot]
      exact htelegrams slot
  · have hslots : slots.length < CAN_MSG_BUFFER_SIZE := by omega
    let msg := link.emptyBufferedCANMessages link.emptyBufferedCANMessagesPos.toNat
    have htakenFull : ¬ (link.read msg).emptyBufferedCANMessagesPos < 0 := hfull
    refine ⟨msg, { link.read msg with
      emptyBufferedCANMessagesPos := link.emptyBufferedCANMessagesPos - 1 }, ?_, ?_, ⟨rfl, rfl⟩,
      ?_, rfl, ?_, ?_⟩
    · simp only [receiveCANMessage, h.isBroadcastLink, Bool.not_true, Bool.false_eq_true, if_false,
        if_neg hfull, Option.bind_some, if_pos hreceived]
      exact if_neg htakenFull
    · rw [if_pos hslots]
      exact (h.takeFree (by omega)).read msg
    · show link.can.tail = can
      rw [hcan, List.tail_cons]
    · exact (telegram_read link msg).trans (by rw [hcan, List.head?_cons])
    · intro slot hslot
      exact congrArg BufferedCANMessage.telegram (telegram_read_other link hslot)

/-- When nothing was received, the buffer that was taken is a free one afterwards. -/
theorem Pool.receive_nothing (h : link.Pool slots []) (hcan : link.can = []) :
    ∃ after, link.receiveCANMessage = some (none, after) ∧
      after.Pool (if slots.length < CAN_MSG_BUFFER_SIZE then slots else slots.dropLast) [] ∧
      SameMessage link after ∧ after.can = [] ∧ after.mostBuffered = link.mostBuffered ∧
      (∀ slot ∈ (if slots.length < CAN_MSG_BUFFER_SIZE then slots else slots.dropLast),
        (after.bufferedCANMessageMemory slot).telegram =
          (link.bufferedCANMessageMemory slot).telegram) := by
  have hlength := h.length
  have hpos := h.pos_ge
  rw [List.length_nil] at hlength
  have hreceived : ¬ link.can ≠ [] := by simp [hcan]
  by_cases hfull : link.emptyBufferedCANMessagesPos < 0
  · obtain ⟨msg, taken, hsteal, hpool, hsame, htakenCan, hmost, htelegrams, htakenPos⟩ :=
      h.stealLast hfull
    have hslots : ¬ slots.length < CAN_MSG_BUFFER_SIZE := by omega
    have htaken : ¬ taken.can ≠ [] := by rw [htakenCan]; exact hreceived
    have htakenFull : (taken.read msg).emptyBufferedCANMessagesPos < 0 := by
      show taken.emptyBufferedCANMessagesPos < 0
      rw [htakenPos]
      exact hfull
    obtain ⟨after, hrelease, hafter, hkept, hmemory, hafterCan, hafterMost⟩ :=
      (hpool.read msg).release
    refine ⟨after, ?_, ?_, ⟨hkept.reassembly.trans hsame.reassembly,
      hkept.currentMsgSet.trans hsame.currentMsgSet⟩, ?_, hafterMost.trans hmost, ?_⟩
    · simp only [receiveCANMessage, h.isBroadcastLink, Bool.not_true, Bool.false_eq_true, if_false,
        if_pos hfull, hsteal, Option.bind_some, if_neg htaken, if_pos htakenFull, hrelease,
        Option.map_some]
    · rw [if_neg hslots]
      exact hafter
    · rw [hafterCan]
      show taken.can.tail = []
      rw [htakenCan, hcan, List.tail_nil]
    · rw [if_neg hslots]
      intro slot hslot
      have hne : slot ≠ msg := by
        rintro rfl
        exact hpool.not_mem_slots hslot
      rw [hmemory, telegram_read_other taken hne]
      exact htelegrams slot
  · have hslots : slots.length < CAN_MSG_BUFFER_SIZE := by omega
    let msg := link.emptyBufferedCANMessages link.emptyBufferedCANMessagesPos.toNat
    have htakenFull : ¬ (link.read msg).emptyBufferedCANMessagesPos < 0 := hfull
    refine ⟨link.read msg, ?_, ?_, ⟨rfl, rfl⟩, ?_, rfl, ?_⟩
    · simp only [receiveCANMessage, h.isBroadcastLink, Bool.not_true, Bool.false_eq_true, if_false,
        if_neg hfull, Option.bind_some, if_neg hreceived]
      exact if_neg htakenFull
    · rw [if_pos hslots]
      exact h.read msg
    · show link.can.tail = []
      rw [hcan, List.tail_nil]
    · rw [if_pos hslots]
      intro slot hslot
      have hne : slot ≠ msg := by
        rintro rfl
        exact (h.takeFree (by omega)).not_mem_slots hslot
      rw [telegram_read_other link hne]

/-- The buffer that holds the new telegram is linked behind the others. -/
theorem Pool.park (h : link.Pool slots [msg]) :
    (link.park msg).Pool (slots ++ [msg]) [] ∧ SameMessage link (link.park msg) ∧
      (link.park msg).can = link.can ∧
      (link.park msg).mostBuffered = max link.mostBuffered (slots.length + 1) ∧
      (∀ slot, ((link.park msg).bufferedCANMessageMemory slot).telegram =
        (link.bufferedCANMessageMemory slot).telegram) := by
  have hlength := h.length
  have hpos := h.pos_ge
  rw [List.length_singleton] at hlength
  have hpushed := h.linked.push h.nodup_slots h.not_mem_slots
  have hmost : ((CAN_MSG_BUFFER_SIZE : Int) - 1 - link.emptyBufferedCANMessagesPos).toNat =
      slots.length + 1 := by omega
  have hpartition := h.partition
  rw [List.append_assoc, ← List.append_nil (slots ++ [msg]), ← List.append_assoc] at hpartition
  cases hlast : slots.getLast? with
  | none =>
    rw [List.getLast?_eq_none_iff] at hlast
    subst hlast
    have hend : link.bufferedCANMsgsEnd = none := h.last
    have hparked : link.park msg = { link.setNext msg none with
        bufferedCANMsgsStart := some msg
        bufferedCANMsgsEnd := some msg
        mostBuffered := max link.mostBuffered (0 + 1) } := by
      simp only [LinkinterfaceCAN.park, setNext, hend, hmost, List.length_nil]
    rw [List.getLast?_nil] at hpushed
    rw [← next_setNext] at hpushed
    rw [hparked]
    exact ⟨⟨hpushed, rfl, h.pos_ge, hpartition, h.isBroadcastLink⟩, ⟨rfl, rfl⟩, rfl, rfl,
      fun slot => telegram_setNext link msg slot none⟩
  | some last =>
    have hend : link.bufferedCANMsgsEnd = some last := h.last.trans hlast
    have hparked : link.park msg = { (link.setNext msg none).setNext last (some msg) with
        bufferedCANMsgsEnd := some msg
        mostBuffered := max link.mostBuffered (slots.length + 1) } := by
      simp only [LinkinterfaceCAN.park, setNext, hend, hmost]
    rw [hlast] at hpushed
    simp only [← next_setNext] at hpushed
    rw [hparked]
    refine ⟨⟨hpushed, ?_, h.pos_ge, hpartition, h.isBroadcastLink⟩, ⟨rfl, rfl⟩, rfl, rfl,
      fun slot => ?_⟩
    · rw [List.getLast?_concat]
    · exact (telegram_setNext _ last slot _).trans (telegram_setNext link msg slot none)

/-- A buffer is taken out of the linked list, `kept` being those before it. -/
theorem Pool.remove {kept rest : List Nat} (h : link.Pool (kept ++ msg :: rest) []) :
    (link.remove kept.getLast? msg).Pool (kept ++ rest) [msg] ∧
      SameMessage link (link.remove kept.getLast? msg) ∧
      (link.remove kept.getLast? msg).can = link.can ∧
      (link.remove kept.getLast? msg).mostBuffered = link.mostBuffered ∧
      (link.remove kept.getLast? msg).next msg = link.next msg ∧
      (∀ slot, ((link.remove kept.getLast? msg).bufferedCANMessageMemory slot).telegram =
        (link.bufferedCANMessageMemory slot).telegram) := by
  have hmoved : (link.free ++ (kept ++ rest) ++ [msg]).Perm (List.range CAN_MSG_BUFFER_SIZE) := by
    refine List.Perm.trans ?_ h.partition
    rw [List.append_nil, List.append_assoc, List.append_assoc]
    refine List.Perm.append_left _ (List.Perm.append_left _ ?_)
    exact List.perm_append_singleton msg rest
  have hnext : link.next msg = none ↔ rest = [] := by
    obtain ⟨middle, _, hback⟩ := Linked.append.mp h.linked
    rw [hback.tail.start_eq_head?, List.head?_eq_none_iff]
  have hlast : (if link.next msg = none then kept.getLast? else link.bufferedCANMsgsEnd) =
      (kept ++ rest).getLast? := by
    by_cases hrest : rest = []
    · rw [if_pos (hnext.mpr hrest), hrest, List.append_nil]
    · obtain ⟨head, others, hcons⟩ := List.exists_cons_of_ne_nil hrest
      rw [if_neg (mt hnext.mp hrest), h.last, hcons]
      simp
  cases kept using List.reverseRecOn with
  | nil =>
    have hremoved : link.remove none msg = { link with
        bufferedCANMsgsStart := link.next msg
        bufferedCANMsgsEnd := if link.next msg = none then none else link.bufferedCANMsgsEnd } := by
      by_cases hend : (link.bufferedCANMessageMemory msg).next = none <;>
        simp [LinkinterfaceCAN.remove, next, hend]
    rw [List.getLast?_nil, hremoved]
    exact ⟨⟨h.linked.tail, hlast, h.pos_ge, hmoved, h.isBroadcastLink⟩, ⟨rfl, rfl⟩, rfl, rfl, rfl,
      fun _ => rfl⟩
  | append_singleton front before =>
    have hremoved : link.remove (some before) msg = { link.setNext before (link.next msg) with
        bufferedCANMsgsEnd :=
          if link.next msg = none then some before else link.bufferedCANMsgsEnd } := by
      by_cases hend : (link.bufferedCANMessageMemory msg).next = none <;>
        simp [LinkinterfaceCAN.remove, next, setNext, hend]
    have hunlinked := h.linked.unlink h.nodup_slots
    rw [← next_setNext] at hunlinked
    have hne : msg ≠ before := by
      rintro rfl
      have hapart := (List.nodup_append.mp h.nodup_slots).2.2
      exact hapart msg (List.mem_append_right _ List.mem_cons_self) msg List.mem_cons_self rfl
    rw [List.getLast?_concat] at hlast ⊢
    rw [hremoved]
    refine ⟨⟨hunlinked, hlast, h.pos_ge, hmoved, h.isBroadcastLink⟩, ⟨rfl, rfl⟩, rfl, rfl, ?_,
      fun slot => telegram_setNext link before slot (link.next msg)⟩
    show (link.setNext before (link.next msg)).next msg = link.next msg
    rw [next_setNext, Function.update_of_ne hne]

end

end LinkinterfaceCAN

end Rodos.Gateway
