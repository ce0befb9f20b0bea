import Rodos.Api.MultipleReaderFifo
import Rodos.Library.Runs

/-! The link over shared memory: senders put under a lock, readers get without it. -/
namespace Rodos.Gateway
open Library Api

def FIFOSIZE : Nat := 10
def MAXMEMBERS : Nat := 50

/-- Where a reader stands in `getNetworkMsg`: it has found a message, or it has copied one and not
yet moved its read index on. -/
inductive Reading (Message : Type) where
  | outside
  | available
  | copied (inMsg : Message)

/-- What has become of a message for one reader. -/
inductive Standing where
  | delivered
  | counted
  | pending
deriving DecidableEq

/-- The messages sent, oldest first, as they stand with one reader. -/
abbrev Ledger (Message : Type) := List (Standing × Message)

namespace Ledger

variable {Message : Type}

def withStanding (standing : Standing) (ledger : Ledger Message) : List Message :=
  (ledger.filter fun entry => entry.1 = standing).map Prod.snd

/-- The oldest pending message gets the standing. -/
def settleFirst (standing : Standing) : Ledger Message → Ledger Message
  | [] => []
  | (.pending, message) :: ledger => (standing, message) :: ledger
  | entry :: ledger => entry :: settleFirst standing ledger

/-- The oldest pending message but one gets the standing. -/
def settleSecond (standing : Standing) : Ledger Message → Ledger Message
  | [] => []
  | (.pending, message) :: ledger => (.pending, message) :: settleFirst standing ledger
  | entry :: ledger => entry :: settleSecond standing ledger

end Ledger

/-- The last three fields are not in the program: what was sent, what each reader's calls have
returned, and what has become of the messages for each reader. -/
structure SharedLink (Message : Type) where
  fifo : MultipleReaderFifo Message
  reading : Nat → Reading Message := fun _ => .outside
  sent : List Message := []
  received : Nat → List Message := fun _ => []
  ledger : Nat → Ledger Message := fun _ => []

/-- A whole put, or the next access of a reader in `MultipleReaderFifo::get`. -/
inductive SharedStep (Message : Type) where
  | sendNetworkMsg (outMsg : Message)
  | check (readerId : Nat)
  | copy (readerId : Nat)
  | advance (readerId : Nat)

namespace SharedLink

open Ledger

variable {Message : Type}

/-- A put that moves a reader on takes a message from it: the oldest one, unless the reader has
that one in its hands already; then the one behind it, which the reader's own advance skips. -/
def ledgerBehindPut (link : SharedLink Message) (outMsg : Message) (i : Nat) : Ledger Message :=
  let ledger := link.ledger i ++ [(.pending, outMsg)]
  if Fifo.advanceIndex FIFOSIZE link.fifo.writeX = link.fifo.readX i then
    match link.reading i with
    | .outside => settleFirst .counted ledger
    | .available => settleFirst .counted ledger
    | .copied _ => settleSecond .counted ledger
  else ledger

def step (link : SharedLink Message) : SharedStep Message → Option (SharedLink Message)
  | .sendNetworkMsg outMsg =>
    some { link with
      fifo := (link.fifo.put FIFOSIZE MAXMEMBERS outMsg).2
      sent := link.sent ++ [outMsg]
      ledger := link.ledgerBehindPut outMsg }
  | .check readerId =>
    match link.reading readerId with
    | .outside =>
      if readerId ≥ MAXMEMBERS ∨ link.fifo.readX readerId = link.fifo.writeX then some link
      else some { link with reading := Function.update link.reading readerId .available }
    | .available => none
    | .copied _ => none
  | .copy readerId =>
    match link.reading readerId with
    | .available =>
      let inMsg := link.fifo.buffer (link.fifo.readX readerId)
      some { link with reading := Function.update link.reading readerId (.copied inMsg) }
    | .outside => none
    | .copied _ => none
  | .advance readerId =>
    match link.reading readerId with
    | .copied inMsg =>
      let readX := Fifo.advanceIndex FIFOSIZE (link.fifo.readX readerId)
      some { link with
        fifo := { link.fifo with readX := Function.update link.fifo.readX readerId readX }
        reading := Function.update link.reading readerId .outside
        received := Function.update link.received readerId (link.received readerId ++ [inMsg])
        ledger :=
          Function.update link.ledger readerId (settleFirst .delivered (link.ledger readerId)) }
    | .outside => none
    | .available => none

/-- Without a put in between, the three accesses of a reader are a `get`. -/
theorem steps_eq_get (link : SharedLink Message) {readerId : Nat} (hreader : readerId < MAXMEMBERS)
    (houtside : link.reading readerId = .outside)
    (hsome : link.fifo.readX readerId ≠ link.fifo.writeX) :
    ∃ inMsg fifo, link.fifo.get FIFOSIZE MAXMEMBERS readerId = (some inMsg, fifo) ∧
      ∃ final, run step link [.check readerId, .copy readerId, .advance readerId] = some final ∧
        final.fifo = fifo ∧ final.reading = link.reading ∧
        final.received readerId = link.received readerId ++ [inMsg] := by
  refine ⟨_, _, MultipleReaderFifo.get_of_some hreader hsome, ?_⟩
  simp [run, step, houtside, hsome, Nat.not_le_of_lt hreader]

/-- What a reader's next calls return when nothing more is sent: the message it has copied, and
what then lies between the indices. -/
def pending (link : SharedLink Message) (i : Nat) : List Message :=
  let unread := (link.fifo.view i).unread FIFOSIZE
  match link.reading i with
  | .outside => unread
  | .available => unread
  | .copied inMsg => inMsg :: unread.drop 1

/-- Every message sent was delivered, is pending, or is counted. -/
structure Accounted (link : SharedLink Message) (i : Nat) : Prop where
  sent_eq : (link.ledger i).map Prod.snd = link.sent
  received_eq : withStanding .delivered (link.ledger i) = link.received i
  pending_eq : withStanding .pending (link.ledger i) = link.pending i
  counted_eq :
    link.fifo.overflowCnt i = UInt32.ofNat (withStanding .counted (link.ledger i)).length

end SharedLink

section ledger

open Ledger

variable {Message : Type} {settled : Ledger Message} {standing : Standing}

theorem withStanding_append (left right : Ledger Message) :
    withStanding standing (left ++ right) =
      withStanding standing left ++ withStanding standing right := by
  rw [withStanding, List.filter_append, List.map_append]
  rfl

theorem withStanding_map (other : Standing) (messages : List Message) :
    withStanding standing (messages.map (other, ·)) =
      if other = standing then messages else [] := by
  induction messages with
  | nil => simp [withStanding]
  | cons message messages ih =>
    by_cases hother : other = standing <;> simp_all [withStanding]

theorem withStanding_cons (kept : Standing) (message : Message) (ledger : Ledger Message) :
    withStanding standing ((kept, message) :: ledger) =
      (if kept = standing then [message] else []) ++ withStanding standing ledger := by
  by_cases hkept : kept = standing <;> simp [withStanding, hkept]

theorem withStanding_pending_of_settled (hsettled : ∀ entry ∈ settled, entry.1 ≠ .pending) :
    withStanding .pending settled = [] := by
  rw [withStanding, List.map_eq_nil_iff, List.filter_eq_nil_iff]
  simpa using hsettled

/-- What leaves an entry alone that is not pending leaves a ledger of such entries alone. -/
theorem append_of_passesOver {change : Ledger Message → Ledger Message}
    (hover : ∀ entry ledger, entry.1 ≠ .pending → change (entry :: ledger) = entry :: change ledger)
    (hsettled : ∀ entry ∈ settled, entry.1 ≠ .pending) (ledger : Ledger Message) :
    change (settled ++ ledger) = settled ++ change ledger := by
  induction settled with
  | nil => rfl
  | cons entry settled ih =>
    have hrest := ih fun entry hentry => hsettled entry (List.mem_cons_of_mem _ hentry)
    rw [List.cons_append, hover entry _ (hsettled entry List.mem_cons_self), hrest]
    rfl

theorem settleFirst_append (hsettled : ∀ entry ∈ settled, entry.1 ≠ .pending)
    (ledger : Ledger Message) :
    settleFirst standing (settled ++ ledger) = settled ++ settleFirst standing ledger := by
  apply append_of_passesOver _ hsettled
  rintro ⟨kept, message⟩ later hkept
  cases kept with
  | pending => exact absurd rfl hkept
  | delivered => rfl
  | counted => rfl

theorem settleSecond_append (hsettled : ∀ entry ∈ settled, entry.1 ≠ .pending)
    (ledger : Ledger Message) :
    settleSecond standing (settled ++ ledger) = settled ++ settleSecond standing ledger := by
  apply append_of_passesOver _ hsettled
  rintro ⟨kept, message⟩ later hkept
  cases kept with
  | pending => exact absurd rfl hkept
  | delivered => rfl
  | counted => rfl

@[simp] theorem map_snd_settleFirst (ledger : Ledger Message) :
    (settleFirst standing ledger).map Prod.snd = ledger.map Prod.snd := by
  induction ledger with
  | nil => rfl
  | cons entry ledger ih =>
    obtain ⟨kept, message⟩ := entry
    cases kept with
    | pending => rfl
    | delivered => exact congrArg (message :: ·) ih
    | counted => exact congrArg (message :: ·) ih

@[simp] theorem map_snd_settleSecond (ledger : Ledger Message) :
    (settleSecond standing ledger).map Prod.snd = ledger.map Prod.snd := by
  induction ledger with
  | nil => rfl
  | cons entry ledger ih =>
    obtain ⟨kept, message⟩ := entry
    cases kept with
    | pending => exact congrArg (message :: ·) (map_snd_settleFirst ledger)
    | delivered => exact congrArg (message :: ·) ih
    | counted => exact congrArg (message :: ·) ih

theorem settleFirst_counted (messages : List Message) (ledger : Ledger Message) :
    settleFirst standing (messages.map (.counted, ·) ++ ledger) =
      messages.map (.counted, ·) ++ settleFirst standing ledger :=
  settleFirst_append (by simp) ledger

end ledger

namespace SharedLink

open Ledger

theorem map_snd_ledgerBehindPut {Message : Type} (link : SharedLink Message) (outMsg : Message)
    (i : Nat) : (link.ledgerBehindPut outMsg i).map Prod.snd =
      (link.ledger i).map Prod.snd ++ [outMsg] := by
  unfold ledgerBehindPut
  split
  · split <;> simp
  · simp

variable {Message : Type}

/-- How the ledger of a reader is made up: settled messages, the one in its hands, those it is going
to skip, and those that lie between the indices behind them. -/
structure Tracks (link : SharedLink Message) (i : Nat) (settled : Ledger Message)
    (inHand : Option Message) (skipped rest : List Message) : Prop where
  ledger_eq : link.ledger i = settled ++ (inHand.toList.map (.pending, ·) ++
    (skipped.map (.counted, ·) ++ rest.map (.pending, ·)))
  settled_ne : ∀ entry ∈ settled, entry.1 ≠ .pending
  sent_eq : (link.ledger i).map Prod.snd = link.sent
  carries : Fifo.Carries FIFOSIZE (link.fifo.view i) link.sent
    (link.sent.take (settled.length + skipped.length))
  received_eq : withStanding .delivered settled = link.received i
  counted_eq : link.fifo.overflowCnt i =
    UInt32.ofNat ((withStanding .counted settled).length + skipped.length)
  reading_eq : match link.reading i with
    | .outside => inHand = none ∧ skipped = []
    | .available => inHand = none ∧ skipped = [] ∧ rest ≠ []
    | .copied inMsg => inHand = some inMsg

section tracks

variable {link : SharedLink Message} {i : Nat} {settled : Ledger Message}
  {inHand : Option Message} {skipped rest : List Message}

theorem Tracks.length_sent (h : Tracks link i settled inHand skipped rest) :
    link.sent.length = settled.length + inHand.toList.length + skipped.length + rest.length := by
  rw [← h.sent_eq, h.ledger_eq]
  simp only [List.map_append, List.length_append, List.length_map]
  omega

theorem Tracks.drop_sent (h : Tracks link i settled inHand skipped rest) :
    link.sent.drop settled.length = inHand.toList ++ (skipped ++ rest) := by
  rw [← h.sent_eq, h.ledger_eq, List.map_append, List.drop_left' (List.length_map _)]
  simp [Function.comp_def]

theorem Tracks.unread_eq (h : Tracks link i settled inHand skipped rest) :
    (link.fifo.view i).unread FIFOSIZE =
      (inHand.toList ++ (skipped ++ rest)).drop skipped.length := by
  have hlength := h.length_sent
  rw [h.carries.unread_eq, List.length_take, Nat.min_eq_left (by omega), ← List.drop_drop,
    h.drop_sent]

theorem Tracks.accounted (h : Tracks link i settled inHand skipped rest) :
    link.Accounted i := by
  have hunread := h.unread_eq
  have hreading := h.reading_eq
  have hsettled := withStanding_pending_of_settled h.settled_ne
  refine ⟨h.sent_eq, ?_, ?_, ?_⟩
  · rw [h.ledger_eq, ← h.received_eq]
    simp [withStanding_append, withStanding_map]
  · have hpending : withStanding .pending (link.ledger i) = inHand.toList ++ rest := by
      rw [h.ledger_eq]
      simp [withStanding_append, withStanding_map, hsettled]
    rw [hpending, pending]
    split at hreading
    · obtain ⟨rfl, rfl⟩ := hreading
      exact hunread.symm
    · obtain ⟨rfl, rfl, -⟩ := hreading
      exact hunread.symm
    · subst hreading
      rw [hunread, List.drop_drop]
      simp
  · rw [h.counted_eq, h.ledger_eq]
    simp [withStanding_append, withStanding_map]

/-- Only what concerns the reader matters. -/
theorem Tracks.of_eq {other : SharedLink Message} (h : Tracks link i settled inHand skipped rest)
    (hsent : other.sent = link.sent) (hview : other.fifo.view i = link.fifo.view i)
    (hoverflowCnt : other.fifo.overflowCnt i = link.fifo.overflowCnt i)
    (hreading : other.reading i = link.reading i) (hreceived : other.received i = link.received i)
    (hledger : other.ledger i = link.ledger i) : Tracks other i settled inHand skipped rest where
  ledger_eq := hledger.trans h.ledger_eq
  settled_ne := h.settled_ne
  sent_eq := by rw [hledger, hsent, h.sent_eq]
  carries := by rw [hview, hsent]; exact h.carries
  received_eq := h.received_eq.trans hreceived.symm
  counted_eq := hoverflowCnt.trans h.counted_eq
  reading_eq := by rw [hreading]; exact h.reading_eq

theorem Tracks.length_gone (h : Tracks link i settled inHand skipped rest) :
    (link.sent.take (settled.length + skipped.length)).length =
      settled.length + skipped.length := by
  have hlength := h.length_sent
  rw [List.length_take, Nat.min_eq_left (by omega)]

/-- What sending a message does to the reader `i`, once its ledger is known. -/
theorem Tracks.sent (h : Tracks link i settled inHand skipped rest) {outMsg : Message}
    {settled' : Ledger Message} {skipped' rest' gone : List Message}
    (hledger : link.ledgerBehindPut outMsg i = settled' ++ (inHand.toList.map (.pending, ·) ++
      (skipped'.map (.counted, ·) ++ rest'.map (.pending, ·))))
    (hsettled : ∀ entry ∈ settled', entry.1 ≠ .pending)
    (hcarries : Fifo.Carries FIFOSIZE
      ((link.fifo.put FIFOSIZE MAXMEMBERS outMsg).2.view i) (link.sent ++ [outMsg]) gone)
    (hgone : gone.length = settled'.length + skipped'.length)
    (hreceived : withStanding .delivered settled' = withStanding .delivered settled)
    (hcounted : (link.fifo.put FIFOSIZE MAXMEMBERS outMsg).2.overflowCnt i =
      UInt32.ofNat ((withStanding .counted settled').length + skipped'.length))
    (hskipped : skipped = [] → inHand = none → skipped' = [])
    (hrest : rest ≠ [] → rest' ≠ []) :
    Tracks { link with
      fifo := (link.fifo.put FIFOSIZE MAXMEMBERS outMsg).2
      sent := link.sent ++ [outMsg]
      ledger := link.ledgerBehindPut outMsg } i settled' inHand skipped' rest' := by
  have hreading := h.reading_eq
  refine ⟨hledger, hsettled, ?_, ?_, hreceived.trans h.received_eq, hcounted, ?_⟩
  · exact (map_snd_ledgerBehindPut link outMsg i).trans (by rw [h.sent_eq])
  · rw [← hgone, ← hcarries.gotten_eq_take]
    exact hcarries
  · dsimp only
    split at hreading
    · exact ⟨hreading.1, hskipped hreading.2 hreading.1⟩
    · exact ⟨hreading.1, hskipped hreading.2.1 hreading.1, hrest hreading.2.2⟩
    · exact hreading

/-- A message is sent: it is pending for the reader, and when there is no room for it the reader
loses one. -/
theorem Tracks.sendNetworkMsg (h : Tracks link i settled inHand skipped rest)
    (hi : i < MAXMEMBERS) (outMsg : Message) :
    ∃ settled' skipped' rest', Tracks { link with
      fifo := (link.fifo.put FIFOSIZE MAXMEMBERS outMsg).2
      sent := link.sent ++ [outMsg]
      ledger := link.ledgerBehindPut outMsg } i settled' inHand skipped' rest' := by
  have hcut := MultipleReaderFifo.cut_iff h.carries
  have hreading := h.reading_eq
  have hextended : link.ledger i ++ [(Standing.pending, outMsg)] = settled ++
      (inHand.toList.map (.pending, ·) ++ (skipped.map (.counted, ·) ++
        (rest ++ [outMsg]).map (.pending, ·))) := by
    rw [h.ledger_eq]
    simp
  obtain ⟨hfull, ⟨oldest, -, hcarries⟩, hoverflowCnt⟩ | ⟨hroom, hcarries, hoverflowCnt⟩ :=
    MultipleReaderFifo.put_cases h.carries (by decide) hi outMsg
  · obtain ⟨lost, rest', hlost⟩ : ∃ lost rest', rest ++ [outMsg] = lost :: rest' :=
      List.exists_cons_of_length_pos (by simp)
    have hrest : rest ≠ [] → rest' ≠ [] := by
      rintro hsome rfl
      cases rest with
      | nil => exact hsome rfl
      | cons first rest => simp at hlost
    have hgone : (link.sent.take (settled.length + skipped.length) ++ [oldest]).length =
        settled.length + skipped.length + 1 := by
      rw [List.length_append, h.length_gone, List.length_singleton]
    rw [hlost] at hextended
    cases hhand : inHand with
    | none =>
      subst hhand
      have hidle : skipped = [] ∧ link.ledgerBehindPut outMsg i =
          settleFirst .counted (link.ledger i ++ [(Standing.pending, outMsg)]) := by
        unfold ledgerBehindPut
        rw [if_pos (hcut.mpr hfull)]
        split at hreading
        · exact ⟨hreading.2, rfl⟩
        · exact ⟨hreading.2.1, rfl⟩
        · cases hreading
      obtain ⟨rfl, hledger⟩ := hidle
      refine ⟨settled ++ [(.counted, lost)], [], rest', h.sent ?_ ?_ hcarries ?_ ?_ ?_ ?_ hrest⟩
      · rw [hledger, hextended, settleFirst_append h.settled_ne]
        simp [settleFirst]
      · simpa [or_imp, forall_and] using h.settled_ne
      · simpa using hgone
      · simp [withStanding]
      · rw [hoverflowCnt, h.counted_eq, withStanding_append]
        simp [withStanding]
      · exact fun _ _ => rfl
    | some inMsg =>
      subst hhand
      have hledger : link.ledgerBehindPut outMsg i =
          settleSecond .counted (link.ledger i ++ [(Standing.pending, outMsg)]) := by
        unfold ledgerBehindPut
        rw [if_pos (hcut.mpr hfull)]
        split at hreading
        · cases hreading.1
        · cases hreading.1
        · rfl
      refine ⟨settled, skipped ++ [lost], rest', h.sent ?_ h.settled_ne hcarries ?_ rfl ?_ ?_ hrest⟩
      · rw [hledger, hextended, settleSecond_append h.settled_ne]
        simp [settleSecond, settleFirst_counted, settleFirst]
      · rw [hgone, List.length_append, List.length_singleton]
        omega
      · rw [hoverflowCnt, h.counted_eq, List.length_append, ← Nat.add_assoc]
        exact (UInt32.ofNat_add _ 1).symm
      · exact fun _ => nofun
  · have hledger : link.ledgerBehindPut outMsg i =
        link.ledger i ++ [(Standing.pending, outMsg)] := by
      unfold ledgerBehindPut
      exact if_neg (mt hcut.mp (Nat.ne_of_lt hroom))
    exact ⟨settled, skipped, rest ++ [outMsg], h.sent (hledger.trans hextended) h.settled_ne
      hcarries h.length_gone rfl (hoverflowCnt.trans h.counted_eq) (fun hnone _ => hnone)
      (fun _ => by simp)⟩

/-- The check finds a message exactly when one lies between the indices. -/
theorem Tracks.check (h : Tracks link i settled none [] rest)
    (hsome : link.fifo.readX i ≠ link.fifo.writeX) :
    Tracks { link with reading := Function.update link.reading i .available } i settled none []
      rest := by
  refine { h with reading_eq := ?_ }
  have hlength := h.length_sent
  have hgone := h.length_gone
  have hne := mt h.carries.empty_iff.mpr hsome
  rw [hgone] at hne
  dsimp only
  rw [Function.update_self]
  refine ⟨rfl, rfl, ?_⟩
  rintro rfl
  simp at hlength hne
  omega

theorem Tracks.copy (h : Tracks link i settled none [] rest) (hrest : rest ≠ []) :
    ∃ inMsg rest', link.fifo.buffer (link.fifo.readX i) = inMsg ∧
      Tracks { link with reading := Function.update link.reading i (.copied inMsg) } i settled
        (some inMsg) [] rest' := by
  obtain ⟨inMsg, rest', rfl⟩ := List.exists_cons_of_ne_nil hrest
  have hlength := h.length_sent
  have hfetch := h.carries.fetch (by
    rw [h.length_gone, hlength]
    simp)
  refine ⟨inMsg, rest', ?_, { h with ledger_eq := ?_, reading_eq := ?_ }⟩
  · have hfirst : link.sent[settled.length]? = some inMsg := by
      have hdrop := h.drop_sent
      rw [← List.head?_drop, hdrop]
      rfl
    rw [h.length_gone, List.length_nil, Nat.add_zero, hfirst] at hfetch
    have hreadX := h.carries.readX_eq
    rw [h.length_gone, List.length_nil, Nat.add_zero] at hreadX
    change link.fifo.readX i = _ at hreadX
    rw [hreadX]
    exact (Option.some.inj hfetch).symm
  · exact h.ledger_eq
  · dsimp only
    rw [Function.update_self]

theorem Tracks.advance {inMsg : Message} (h : Tracks link i settled (some inMsg) skipped rest) :
    Tracks { link with
      fifo := { link.fifo with
        readX := Function.update link.fifo.readX i
          (Fifo.advanceIndex FIFOSIZE (link.fifo.readX i)) }
      reading := Function.update link.reading i .outside
      received := Function.update link.received i (link.received i ++ [inMsg])
      ledger := Function.update link.ledger i (settleFirst .delivered (link.ledger i)) } i
      (settled ++ (.delivered, inMsg) :: skipped.map (.counted, ·)) none [] rest := by
  have hlength := h.length_sent
  have hfetch := h.carries.fetch (by
    rw [h.length_gone, hlength, Option.toList_some, List.length_singleton]
    omega)
  generalize (link.fifo.view i).buffer _ = val at hfetch
  have hreleased := h.carries.release hfetch
  have hgone := hreleased.gotten_eq_take
  rw [← h.carries.next_readX] at hreleased
  rw [List.length_append, h.length_gone, List.length_singleton] at hgone
  rw [hgone] at hreleased
  refine ⟨?_, ?_, ?_, ?_, ?_, ?_, ?_⟩
  · dsimp only
    rw [Function.update_self, h.ledger_eq, settleFirst_append h.settled_ne]
    simp [settleFirst]
  · have hne := h.settled_ne
    simp only [List.mem_append, List.mem_cons, List.mem_map]
    rintro entry (hentry | rfl | ⟨message, -, rfl⟩)
    · exact hne entry hentry
    · exact nofun
    · exact nofun
  · dsimp only
    rw [Function.update_self, map_snd_settleFirst, h.sent_eq]
  · have hposition : (settled ++ (Standing.delivered, inMsg) ::
        skipped.map (Standing.counted, ·)).length + ([] : List Message).length =
        settled.length + skipped.length + 1 := by
      simp
      omega
    rw [hposition]
    refine hreleased.of_eq rfl rfl ?_
    exact Function.update_self _ _ _
  · dsimp only
    rw [Function.update_self, ← h.received_eq]
    simp [withStanding_append, withStanding_cons, withStanding_map]
  · simpa [withStanding_append, withStanding_cons, withStanding_map] using h.counted_eq
  · dsimp only
    rw [Function.update_self]
    exact ⟨rfl, rfl⟩

end tracks

/-- The ledger of the reader has its shape. -/
def Tracked (link : SharedLink Message) (i : Nat) : Prop :=
  ∃ settled inHand skipped rest, Tracks link i settled inHand skipped rest

theorem Tracked.step {link next : SharedLink Message} {i : Nat} (hi : i < MAXMEMBERS)
    {label : SharedStep Message} (h : link.Tracked i) (hstep : link.step label = some next) :
    next.Tracked i := by
  obtain ⟨settled, inHand, skipped, rest, h⟩ := h
  have hreading := h.reading_eq
  cases label with
  | sendNetworkMsg outMsg =>
    cases hstep
    obtain ⟨settled', skipped', rest', h⟩ := h.sendNetworkMsg hi outMsg
    exact ⟨settled', inHand, skipped', rest', h⟩
  | check readerId =>
    rw [SharedLink.step] at hstep
    split at hstep
    · next houtside =>
      split at hstep
      · cases hstep
        exact ⟨settled, inHand, skipped, rest, h⟩
      · next hsome =>
        cases hstep
        by_cases hreader : i = readerId
        · subst hreader
          rw [houtside] at hreading
          obtain ⟨rfl, rfl⟩ := hreading
          exact ⟨settled, none, [], rest, h.check (not_or.mp hsome).2⟩
        · exact ⟨settled, inHand, skipped, rest, h.of_eq rfl rfl rfl
            (Function.update_of_ne hreader _ _) rfl rfl⟩
    · cases hstep
    · cases hstep
  | copy readerId =>
    rw [SharedLink.step] at hstep
    split at hstep
    · next havailable =>
      cases hstep
      by_cases hreader : i = readerId
      · subst hreader
        rw [havailable] at hreading
        obtain ⟨rfl, rfl, hrest⟩ := hreading
        obtain ⟨inMsg, rest', rfl, h⟩ := h.copy hrest
        exact ⟨settled, some _, [], rest', h⟩
      · exact ⟨settled, inHand, skipped, rest, h.of_eq rfl rfl rfl
          (Function.update_of_ne hreader _ _) rfl rfl⟩
    · cases hstep
    · cases hstep
  | advance readerId =>
    rw [SharedLink.step] at hstep
    split at hstep
    · next inMsg hcopied =>
      cases hstep
      by_cases hreader : i = readerId
      · subst hreader
        rw [hcopied] at hreading
        subst hreading
        exact ⟨_, none, [], rest, h.advance⟩
      · refine ⟨settled, inHand, skipped, rest, h.of_eq rfl ?_ rfl
          (Function.update_of_ne hreader _ _) (Function.update_of_ne hreader _ _)
          (Function.update_of_ne hreader _ _)⟩
        simp [MultipleReaderFifo.view, Function.update_of_ne hreader]
    · cases hstep
    · cases hstep

/-- After any interleaving of puts with the accesses of the readers, every message sent was
delivered to a reader unmodified, is pending for it, or is counted by its overflow counter. -/
theorem accounted_after_run (buffer : Memory Message) {labels : List (SharedStep Message)}
    {final : SharedLink Message}
    (hrun : run step { fifo := { buffer := buffer } } labels = some final) :
    ∀ i < MAXMEMBERS, final.Accounted i := by
  intro i hi
  have hstart : Tracked ({ fifo := { buffer := buffer } } : SharedLink Message) i := by
    refine ⟨[], none, [], [], rfl, nofun, rfl, ?_, rfl, rfl, rfl, rfl⟩
    exact Fifo.carries_initial (by decide) buffer
  have hkeeps (link : SharedLink Message) (label : SharedStep Message) (next : SharedLink Message)
      (h : link.Tracked i) (hstep : link.step label = some next) : next.Tracked i :=
    h.step hi hstep
  have hend : final.Tracked i := run_invariant hkeeps hstart hrun
  obtain ⟨settled, inHand, skipped, rest, h⟩ := hend
  exact h.accounted

/-- A put overtakes the reader 0 between its copy and its advance: the second message is counted,
the first one is delivered. -/
def overtaken : List (SharedStep Nat) :=
  (List.range 9).map .sendNetworkMsg ++ [.check 0, .copy 0, .sendNetworkMsg 9, .advance 0]

theorem accounted_overtaken :
    ∃ final, run step { fifo := { buffer := fun _ => 0 } } overtaken = some final ∧
      final.received 0 = [0] ∧ final.fifo.overflowCnt 0 = 1 ∧
      withStanding .counted (final.ledger 0) = [1] ∧ ∀ i < MAXMEMBERS, final.Accounted i := by
  have hvalues : (run step { fifo := { buffer := fun _ => 0 } } overtaken).map
      (fun final => (final.received 0, final.fifo.overflowCnt 0,
        withStanding .counted (final.ledger 0))) = some ([0], 1, [1]) := by
    decide +kernel
  obtain ⟨final, hrun, hfinal⟩ := Option.map_eq_some_iff.mp hvalues
  obtain ⟨hreceived, hrest⟩ := Prod.mk.inj hfinal
  obtain ⟨hoverflowCnt, hcounted⟩ := Prod.mk.inj hrest
  exact ⟨final, hrun, hreceived, hoverflowCnt, hcounted, accounted_after_run _ hrun⟩

end SharedLink

end Rodos.Gateway
