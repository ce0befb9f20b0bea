import Rodos.Gateway.TelegramPool

/-! What the receiving side does, with the linked list of buffers seen as a list of parked
telegrams, and that `LinkinterfaceCAN` does it without ever leaving its arrays. -/
namespace Rodos.Gateway
open Library

/-- The telegram is handed to the message in progress, or there is none. -/
def Reassembly.Wants (self : Reassembly) (telegram : Telegram) : Prop :=
  telegram.canID = self.currentReceiveCANId ∨ self.currentReceiveCANId = 0

instance (self : Reassembly) (telegram : Telegram) : Decidable (self.Wants telegram) :=
  inferInstanceAs (Decidable (_ ∨ _))

structure Reception where
  parked : List Telegram
  incoming : List Telegram
  reassembly : Reassembly
  mostParked : Nat

namespace Reception

variable (NOW : Nat → Int64)

/-- The parked telegrams are gone through once, `kept` being those already left where they are. -/
def scan (reassembly : Reassembly) (kept : List Telegram) :
    List Telegram → Bool × List Telegram × Reassembly
  | [] => (false, kept, reassembly)
  | telegram :: rest =>
    if reassembly.Wants telegram then
      match reassembly.append NOW telegram with
      | (true, reassembly) => (true, kept ++ rest, reassembly)
      | (false, reassembly) => scan reassembly kept rest
    else scan reassembly (kept ++ [telegram]) rest

/-- A full buffer gives up the telegram that was parked last. -/
def makeRoom (parked : List Telegram) : List Telegram :=
  if parked.length < CAN_MSG_BUFFER_SIZE then parked else parked.dropLast

def receive (reassembly : Reassembly) (parked : List Telegram) (mostParked : Nat) :
    List Telegram → Bool × Reception
  | [] => (false, ⟨makeRoom parked, [], reassembly, mostParked⟩)
  | telegram :: incoming =>
    if reassembly.Wants telegram then
      match reassembly.append NOW telegram with
      | (true, reassembly) => (true, ⟨makeRoom parked, incoming, reassembly, mostParked⟩)
      | (false, reassembly) => receive reassembly (makeRoom parked) mostParked incoming
    else
      receive reassembly (makeRoom parked ++ [telegram])
        (max mostParked ((makeRoom parked).length + 1)) incoming

def getNetworkMsg (self : Reception) : Bool × Reception :=
  let (complete, parked, reassembly) :=
    if self.reassembly.currentReceiveCANId = 0 then scan NOW self.reassembly [] self.parked
    else (false, self.parked, self.reassembly)
  if complete then (true, { self with parked := parked, reassembly := reassembly })
  else receive NOW reassembly parked self.mostParked self.incoming

end Reception

namespace LinkinterfaceCAN

/-- The linked list runs through `slots`, which hold the parked telegrams. -/
structure Represents (link : LinkinterfaceCAN) (slots : List Nat) (reception : Reception) :
    Prop where
  pool : link.Pool slots []
  parked : link.Holds slots reception.parked
  incoming : link.can = reception.incoming
  reassembly : link.reassembly = reception.reassembly
  mostParked : link.mostBuffered = reception.mostParked

variable (NOW : Nat → Int64) {link : LinkinterfaceCAN} {slots : List Nat} {msg : Nat}

/-- Handing over the telegram in a buffer frees the buffer. -/
theorem append_eq {telegram : Telegram} (hset : link.currentMsgSet = true)
    (hpool : link.Pool slots [msg])
    (htelegram : (link.bufferedCANMessageMemory msg).telegram = some telegram) :
    ∃ after, link.appendCANMsgToCurrentNetMsg NOW msg =
        some ((link.reassembly.append NOW telegram).1, after) ∧
      after.Pool slots [] ∧ after.reassembly = (link.reassembly.append NOW telegram).2 ∧
      after.bufferedCANMessageMemory = link.bufferedCANMessageMemory ∧ after.can = link.can ∧
      after.mostBuffered = link.mostBuffered ∧ after.currentMsgSet = true := by
  obtain ⟨freed, hrelease, hfreed, hsame, hmemory, hcan, hmost⟩ := hpool.release
  refine ⟨{ freed with reassembly := (link.reassembly.append NOW telegram).2 }, ?_, ?_, rfl,
    hmemory, hcan, hmost, hsame.currentMsgSet.trans hset⟩
  · simp [appendCANMsgToCurrentNetMsg, hset, hrelease, hmemory, htelegram, hsame.reassembly]
  · exact ⟨hfreed.linked, hfreed.last, hfreed.pos_ge, hfreed.partition, hfreed.isBroadcastLink⟩

theorem scanBuffer_eq {kept rest : List Telegram} {keptSlots restSlots : List Nat} {fuel : Nat}
    (hset : link.currentMsgSet = true) (hpool : link.Pool (keptSlots ++ restSlots) [])
    (hkept : link.Holds keptSlots kept) (hrest : link.Holds restSlots rest)
    (hfuel : restSlots.length ≤ fuel) :
    ∃ slots after,
      scanBuffer NOW fuel keptSlots.getLast? restSlots.head? link =
        some ((Reception.scan NOW link.reassembly kept rest).1, after) ∧
      after.currentMsgSet = true ∧
      after.Represents slots ⟨(Reception.scan NOW link.reassembly kept rest).2.1, link.can,
        (Reception.scan NOW link.reassembly kept rest).2.2, link.mostBuffered⟩ := by
  induction rest generalizing link kept keptSlots restSlots fuel with
  | nil =>
    cases hrest
    refine ⟨keptSlots, link, ?_, hset, ?_, hkept, rfl, rfl, rfl⟩
    · cases fuel <;> rfl
    · rwa [List.append_nil] at hpool
  | cons telegram rest ih =>
    obtain _ | @⟨msg, _, restSlots, _, htelegram, hothers⟩ := hrest
    obtain ⟨less, rfl⟩ := Nat.exists_eq_succ_of_ne_zero
      (show fuel ≠ 0 by rw [List.length_cons] at hfuel; omega)
    have hshorter : restSlots.length ≤ less := Nat.le_of_succ_le_succ hfuel
    have hnext : link.next msg = restSlots.head? := by
      obtain ⟨_, _, hback⟩ := Linked.append.mp hpool.linked
      exact hback.tail.start_eq_head?
    by_cases hwants : link.reassembly.Wants telegram
    · obtain ⟨hremoved, hsame, hcan, hmost, hlink, htelegrams⟩ := hpool.remove
      obtain ⟨freed, happend, hfreed, hreassembly, hmemory, hfreedCan, hfreedMost, hfreedSet⟩ :=
        append_eq NOW (hsame.currentMsgSet.trans hset) hremoved
          ((htelegrams msg).trans htelegram)
      rw [hsame.reassembly] at happend hreassembly
      have hfreedNext : (freed.bufferedCANMessageMemory msg).next = restSlots.head? := by
        rw [hmemory]
        exact hlink.trans hnext
      have hstill : ∀ {slots telegrams}, link.Holds slots telegrams →
          freed.Holds slots telegrams := fun hholds =>
        hholds.congr fun slot _ => by rw [hmemory, htelegrams]
      simp only [List.head?_cons, scanBuffer, htelegram, if_pos (show telegram.canID = _ ∨ _ from
        hwants), happend, Option.bind_some, hfreedNext, Reception.scan, if_pos hwants]
      cases hresult : link.reassembly.append NOW telegram with
      | mk complete reassembly =>
      rw [hresult] at hreassembly
      cases complete with
      | true =>
        refine ⟨keptSlots ++ restSlots, freed, rfl, hfreedSet, hfreed, ?_, hfreedCan.trans hcan,
          hreassembly, hfreedMost.trans hmost⟩
        exact List.rel_append (hstill hkept) (hstill hothers)
      | false =>
        obtain ⟨slots, after, hscan, hafterSet, hafter⟩ :=
          ih hfreedSet hfreed (hstill hkept) (hstill hothers) hshorter
        rw [hreassembly, hfreedCan, hcan, hfreedMost, hmost] at hafter
        rw [hreassembly] at hscan
        exact ⟨slots, after, hscan, hafterSet, hafter⟩
    · have hmoved : link.Pool (keptSlots ++ [msg] ++ restSlots) [] := by
        rwa [List.append_assoc, List.singleton_append]
      have hkeptMore : link.Holds (keptSlots ++ [msg]) (kept ++ [telegram]) :=
        List.rel_append hkept (List.Forall₂.cons htelegram List.Forall₂.nil)
      have hlink : (link.bufferedCANMessageMemory msg).next = restSlots.head? := hnext
      obtain ⟨slots, after, hscan, hafter⟩ := ih hset hmoved hkeptMore hothers hshorter
      rw [List.getLast?_concat] at hscan
      simp only [List.head?_cons, scanBuffer, htelegram, if_neg (show ¬ (telegram.canID = _ ∨ _)
        from hwants), hlink, Reception.scan, if_neg hwants]
      exact ⟨slots, after, hscan, hafter⟩

theorem Holds.makeRoom {telegrams : List Telegram} (h : link.Holds slots telegrams) :
    link.Holds (if slots.length < CAN_MSG_BUFFER_SIZE then slots else slots.dropLast)
      (Reception.makeRoom telegrams) := by
  have hlength : slots.length = telegrams.length := List.Forall₂.length_eq h
  unfold Reception.makeRoom
  rw [← hlength]
  split
  · exact h
  · rw [List.dropLast_eq_take, List.dropLast_eq_take, ← hlength]
    exact List.forall₂_take _ h

theorem receiveLoop_eq {incoming parked : List Telegram} {fuel : Nat}
    (hset : link.currentMsgSet = true) (hpool : link.Pool slots [])
    (hparked : link.Holds slots parked) (hcan : link.can = incoming)
    (hfuel : incoming.length < fuel) :
    ∃ slots after,
      link.receiveLoop NOW fuel =
        some ((Reception.receive NOW link.reassembly parked link.mostBuffered incoming).1, after) ∧
      after.currentMsgSet = true ∧
      after.Represents slots
        (Reception.receive NOW link.reassembly parked link.mostBuffered incoming).2 := by
  induction incoming generalizing link parked slots fuel with
  | nil =>
    obtain ⟨less, rfl⟩ := Nat.exists_eq_succ_of_ne_zero (Nat.ne_of_gt hfuel)
    obtain ⟨after, hreceive, hafter, hsame, hafterCan, hmost, htelegrams⟩ :=
      hpool.receive_nothing hcan
    refine ⟨_, after, ?_, hsame.currentMsgSet.trans hset, hafter, ?_, hafterCan, hsame.reassembly,
      hmost⟩
    · simp only [receiveLoop, hreceive, Option.bind_some, Reception.receive]
    · exact hparked.makeRoom.congr htelegrams
  | cons telegram incoming ih =>
    obtain ⟨less, rfl⟩ := Nat.exists_eq_succ_of_ne_zero (show fuel ≠ 0 by omega)
    have hshorter : incoming.length < less := Nat.lt_of_succ_lt_succ hfuel
    obtain ⟨msg, taken, hreceive, htaken, hsame, htakenCan, hmost, htelegram, htelegrams⟩ :=
      hpool.receive hcan
    have hroom : taken.Holds (if slots.length < CAN_MSG_BUFFER_SIZE then slots else slots.dropLast)
        (Reception.makeRoom parked) := by
      refine hparked.makeRoom.congr fun slot hslot => htelegrams slot ?_
      rintro rfl
      exact htaken.not_mem_slots hslot
    have htakenSet := hsame.currentMsgSet.trans hset
    by_cases hwants : link.reassembly.Wants telegram
    · obtain ⟨freed, happend, hfreed, hreassembly, hmemory, hfreedCan, hfreedMost, hfreedSet⟩ :=
        append_eq NOW htakenSet htaken htelegram
      rw [hsame.reassembly] at happend hreassembly
      have hfreedHolds := hroom.congr fun slot _ =>
        congrArg (fun memory : Memory BufferedCANMessage => (memory slot).telegram) hmemory
      simp only [receiveLoop, hreceive, Option.bind_some, htelegram, hsame.reassembly,
        if_pos (show telegram.canID = _ ∨ _ from hwants), happend, Reception.receive,
        if_pos hwants]
      cases hresult : link.reassembly.append NOW telegram with
      | mk complete reassembly =>
      rw [hresult] at hreassembly
      cases complete with
      | true =>
        exact ⟨_, freed, rfl, hfreedSet, hfreed, hfreedHolds, hfreedCan.trans htakenCan,
          hreassembly, hfreedMost.trans hmost⟩
      | false =>
        obtain ⟨slots, after, hloop, hafter⟩ :=
          ih hfreedSet hfreed hfreedHolds (hfreedCan.trans htakenCan) hshorter
        rw [hreassembly, hfreedMost, hmost] at hloop hafter
        exact ⟨slots, after, hloop, hafter⟩
    · obtain ⟨hparkedPool, hparkedSame, hparkedCan, hparkedMost, hparkedTelegrams⟩ := htaken.park
      have hlength : _ = (Reception.makeRoom parked).length := List.Forall₂.length_eq hroom
      have hparkedHolds := List.rel_append
        (hroom.congr fun slot _ => hparkedTelegrams slot)
        (List.Forall₂.cons ((hparkedTelegrams msg).trans htelegram) List.Forall₂.nil)
      obtain ⟨slots, after, hloop, hafter⟩ :=
        ih (hparkedSame.currentMsgSet.trans htakenSet) hparkedPool hparkedHolds
          (hparkedCan.trans htakenCan) hshorter
      rw [hparkedSame.reassembly, hsame.reassembly, hparkedMost, hmost, hlength] at hloop hafter
      simp only [receiveLoop, hreceive, Option.bind_some, htelegram, hsame.reassembly,
        if_neg (show ¬ (telegram.canID = _ ∨ _) from hwants), Reception.receive, if_neg hwants]
      exact ⟨slots, after, hloop, hafter⟩

/-- `getNetworkMsg` does what the reception does, and never fails. -/
theorem Represents.getNetworkMsg {reception : Reception} (h : link.Represents slots reception) :
    ∃ slots after,
      link.getNetworkMsg NOW = some ((reception.getNetworkMsg NOW).1, -1, after) ∧
      after.Represents slots (reception.getNetworkMsg NOW).2 := by
  let opened := { link with currentMsgSet := true }
  have hopened : opened.Pool slots [] :=
    ⟨h.pool.linked, h.pool.last, h.pool.pos_ge, h.pool.partition, h.pool.isBroadcastLink⟩
  have hlength := h.pool.length
  have hreassembly : opened.reassembly = reception.reassembly := h.reassembly
  have hcode : link.getNetworkMsg NOW =
      ((if opened.reassembly.currentReceiveCANId = 0 then
          opened.scanBuffer NOW CAN_MSG_BUFFER_SIZE none opened.bufferedCANMsgsStart
        else some (false, opened)).bind fun scanned =>
          if scanned.1 then some (true, scanned.2)
          else scanned.2.receiveLoop NOW (scanned.2.can.length + 1)).map
            fun received => (received.1, -1, received.2) := rfl
  rw [hcode, hreassembly, Reception.getNetworkMsg]
  by_cases hidle : reception.reassembly.currentReceiveCANId = 0
  · have hstart : opened.bufferedCANMsgsStart = slots.head? := h.pool.linked.start_eq_head?
    obtain ⟨scannedSlots, scanned, hscan, hscannedSet, hscanned⟩ :=
      scanBuffer_eq NOW rfl (show opened.Pool ([] ++ slots) [] from hopened) List.Forall₂.nil
        h.parked (show slots.length ≤ CAN_MSG_BUFFER_SIZE by omega)
    have hcan : scanned.can = reception.incoming := hscanned.incoming.trans h.incoming
    have hmost : scanned.mostBuffered = reception.mostParked :=
      hscanned.mostParked.trans h.mostParked
    rw [hreassembly, List.getLast?_nil, ← hstart] at hscan
    rw [hreassembly] at hscanned
    rw [if_pos hidle, if_pos hidle, hscan]
    cases hresult : Reception.scan NOW reception.reassembly [] reception.parked with
    | mk complete found =>
    rw [hresult] at hscanned
    cases complete with
    | true =>
      exact ⟨scannedSlots, scanned, rfl, hscanned.pool, hscanned.parked, hcan,
        hscanned.reassembly, hmost⟩
    | false =>
      obtain ⟨slots, after, hloop, _, hafter⟩ :=
        receiveLoop_eq NOW hscannedSet hscanned.pool hscanned.parked hcan
          (show reception.incoming.length < reception.incoming.length + 1 by omega)
      rw [hscanned.reassembly, hmost] at hloop hafter
      refine ⟨slots, after, ?_, hafter⟩
      simp only [Option.bind_some, Bool.false_eq_true, if_false, hloop, hcan, Option.map_some]
  · obtain ⟨slots, after, hloop, _, hafter⟩ :=
      receiveLoop_eq NOW rfl hopened h.parked h.incoming
        (show reception.incoming.length < reception.incoming.length + 1 by omega)
    have hcan : opened.can = reception.incoming := h.incoming
    have hmost : opened.mostBuffered = reception.mostParked := h.mostParked
    rw [hreassembly, hmost] at hloop hafter
    rw [if_neg hidle, if_neg hidle]
    refine ⟨slots, after, ?_, hafter⟩
    simp only [Option.bind_some, Bool.false_eq_true, if_false, hloop, hcan, Option.map_some]

/-- The parked telegrams are none at first. -/
theorem represents_start (memory : LinkinterfaceCAN) :
    memory.construct.init.Represents [] ⟨[], [], memory.construct.reassembly, 0⟩ := by
  have hfree : memory.construct.init.free = List.range CAN_MSG_BUFFER_SIZE := by
    have hcells : ∀ index < CAN_MSG_BUFFER_SIZE,
        memory.construct.init.emptyBufferedCANMessages index = index := by
      intro index hindex
      exact if_pos hindex
    exact (Memory.front_congr hcells).trans (List.map_id _)
  refine ⟨⟨rfl, rfl, ?_, ?_, rfl⟩, List.Forall₂.nil, rfl, rfl, rfl⟩
  · show (-1 : Int) ≤ (CAN_MSG_BUFFER_SIZE : Int) - 1
    decide
  · rw [hfree, List.append_nil, List.append_nil]

end LinkinterfaceCAN

end Rodos.Gateway
