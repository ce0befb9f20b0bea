import Rodos.Gateway.Transmission

/-! One sender, one CAN id, and telegrams that are lost on the way. -/
namespace Rodos.Gateway
open Library

/-- A message on the bus and those of its telegrams that are not lost. -/
structure Transmission where
  sent : Sent
  survived : List Telegram
  sublist : survived.Sublist sent.written

namespace Transmission

/-- The telegram that announces the message is lost. -/
def FirstLost (self : Transmission) : Prop := ∀ telegram ∈ self.survived, telegram.data 0 ≠ 0

/-- An empty message has no telegrams at all. -/
theorem nonempty {self : Transmission} (h : ¬ self.FirstLost) :
    0 < self.sent.outMsg.getLen.toNat := by
  by_contra hempty
  have hcount : self.sent.count = 0 := if_pos (by omega)
  have hwritten : self.sent.written = [] := by
    rw [← List.length_eq_zero_iff, self.sent.length_written, hcount]
  have hsurvived := self.sublist
  rw [hwritten, List.sublist_nil] at hsurvived
  apply h
  unfold FirstLost
  rw [hsurvived]
  exact fun _ hmem => by cases hmem

theorem survived_eq_cons {self : Transmission} (h : ¬ self.FirstLost) :
    ∃ first others, self.survived = first :: others ∧ first.Carries self.sent.outMsg 0 ∧
      ∀ telegram ∈ others, ∃ number, 0 < number ∧ number < self.sent.count ∧
        telegram.Carries self.sent.outMsg number := by
  obtain ⟨first, others, hwritten, hfirst, hothers⟩ := self.sent.written_eq_cons (nonempty h)
  have hsublist := self.sublist
  rw [hwritten, List.sublist_cons_iff] at hsublist
  cases hsublist with
  | inl hlost =>
    refine absurd (fun telegram hmem => ?_) h
    obtain ⟨number, hpos, hlt, hcarries⟩ := hothers telegram (hlost.subset hmem)
    exact hcarries.later hpos (Nat.lt_trans hlt self.sent.count_lt)
  | inr hkept =>
    obtain ⟨rest, hsurvived, hrest⟩ := hkept
    exact ⟨first, rest, hsurvived, hfirst, fun telegram hmem =>
      hothers telegram (hrest.subset hmem)⟩

end Transmission

namespace Assembly

variable {NOW : Nat → Int64} {assembly next : Assembly} {telegram : Telegram}

theorem hand_delivered (hhand : assembly.hand NOW telegram = some next) :
    next.reassembly.handed = assembly.reassembly.handed ++ [telegram] ∧
      (next.delivered = assembly.delivered ∨
        next.delivered = assembly.delivered ++ [next.reassembly]) := by
  have hhanded := assembly.reassembly.handed_append NOW telegram
  unfold hand at hhand
  cases hresult : assembly.reassembly.append NOW telegram with
  | mk complete after =>
  rw [hresult] at hhand hhanded
  cases hhand
  cases complete with
  | false => exact ⟨hhanded, Or.inl rfl⟩
  | true => exact ⟨hhanded, Or.inr rfl⟩

/-- A message is delivered while one of these telegrams is handed over, the last one of those it
has been handed. -/
theorem run_delivered {telegrams : List Telegram} {final : Assembly}
    (hrun : run (hand NOW) assembly telegrams = some final) :
    final.reassembly.handed.length = assembly.reassembly.handed.length + telegrams.length ∧
      ∀ message ∈ final.delivered, message ∈ assembly.delivered ∨
        assembly.reassembly.handed.length < message.handed.length ∧
          message.handed.length ≤ final.reassembly.handed.length := by
  induction telegrams generalizing assembly with
  | nil =>
    cases hrun
    exact ⟨rfl, fun message hmem => Or.inl hmem⟩
  | cons telegram telegrams ih =>
    obtain ⟨next, hhand, hrest⟩ := exists_of_run_cons hrun
    obtain ⟨hhanded, hdelivered⟩ := hand_delivered hhand
    obtain ⟨hlength, hmessages⟩ := ih hrest
    rw [hhanded, List.length_append, List.length_singleton] at hlength
    refine ⟨by rw [List.length_cons]; omega, fun message hmem => ?_⟩
    cases hmessages message hmem with
    | inl hearlier =>
      cases hdelivered with
      | inl hsame => exact Or.inl (hsame ▸ hearlier)
      | inr hmore =>
        rw [hmore] at hearlier
        cases List.mem_append.mp hearlier with
        | inl hold => exact Or.inl hold
        | inr hnew =>
          rw [List.mem_singleton.mp hnew, hhanded, List.length_append, List.length_singleton]
          exact Or.inr ⟨by omega, by omega⟩
    | inr hlater =>
      rw [hhanded, List.length_append, List.length_singleton] at hlater
      exact Or.inr ⟨by omega, hlater.2⟩

theorem run_keeps {telegrams : List Telegram} {final : Assembly} {message : Reassembly}
    (hmem : message ∈ assembly.delivered)
    (hrun : run (hand NOW) assembly telegrams = some final) : message ∈ final.delivered := by
  have hkeeps : ∀ (state : Assembly) (telegram : Telegram) (after : Assembly),
      message ∈ state.delivered → state.hand NOW telegram = some after →
      message ∈ after.delivered := by
    intro state telegram after hstate hhand
    cases (hand_delivered hhand).2 with
    | inl hsame => exact hsame ▸ hstate
    | inr hmore =>
      rw [hmore]
      exact List.mem_append_left _ hstate
  exact run_invariant hkeeps hmem hrun

/-- The message is being put together, or none is. -/
def Builds (assembly : Assembly) (sent : Sent) : Prop :=
  assembly.reassembly.currentReceiveCANId = 0 ∨
    ∃ number, 0 < number ∧ assembly.reassembly.HasStored sent.outMsg number

/-- Every message delivered since then is this one. -/
def DeliversOnly (assembly : Assembly) (earlier : List Reassembly) (sent : Sent) : Prop :=
  ∀ message ∈ assembly.delivered,
    message ∈ earlier ∨ sent.outMsg.ReceivedAs message.currentMsg

theorem hand_of_advances {sent : Sent} {number : Nat} {earlier : List Reassembly}
    (hadvances : Reassembly.Advances sent.outMsg number (assembly.reassembly.append NOW telegram))
    (honly : assembly.DeliversOnly earlier sent) (hhand : assembly.hand NOW telegram = some next) :
    next.Builds sent ∧ next.DeliversOnly earlier sent := by
  unfold hand at hhand
  cases hresult : assembly.reassembly.append NOW telegram with
  | mk complete after =>
  rw [hresult] at hhand hadvances
  cases hhand
  unfold Reassembly.Advances at hadvances
  split at hadvances
  · obtain ⟨hopen, hstored⟩ := hadvances
    dsimp only at hopen
    subst hopen
    exact ⟨Or.inr ⟨number + 1, Nat.succ_pos number, hstored⟩, honly⟩
  · obtain ⟨hcomplete, hidle, hreceived⟩ := hadvances
    dsimp only at hcomplete
    subst hcomplete
    refine ⟨Or.inl hidle, fun message hmem => ?_⟩
    cases List.mem_append.mp hmem with
    | inl hold => exact honly message hold
    | inr hnew =>
      rw [List.mem_singleton.mp hnew]
      exact Or.inr hreceived

/-- A later telegram of the message is taken in its turn and dropped otherwise. -/
theorem Builds.hand {sent : Sent} {number : Nat} {earlier : List Reassembly}
    (h : assembly.Builds sent) (honly : assembly.DeliversOnly earlier sent)
    (hpos : 0 < number) (hlt : number < sent.count)
    (hcarries : telegram.Carries sent.outMsg number)
    (hhand : assembly.hand NOW telegram = some next) :
    next.Builds sent ∧ next.DeliversOnly earlier sent := by
  have hsmall := Nat.lt_trans hlt sent.count_lt
  have hlater := hcarries.later hpos hsmall
  by_cases hnext : assembly.reassembly.Continues telegram
  · cases h with
    | inl hidle => exact absurd hidle hnext.2.1
    | inr hstored =>
      obtain ⟨awaited, hawaited, hstored⟩ := hstored
      have hawaitedLt : awaited < sent.count := lt_telegramCount.mpr hstored.more
      have hequal : number = awaited := by
        have hsame := hnext.2.2.2
        rw [hcarries.number_eq, hstored.sequenceCounter] at hsame
        have hvalue := congrArg UInt8.toNat hsame
        rwa [UInt8.toNat_ofNat', UInt8.toNat_ofNat', Nat.mod_eq_of_lt hsmall,
          Nat.mod_eq_of_lt (Nat.lt_trans hawaitedLt sent.count_lt)] at hvalue
      rw [← hequal] at hstored
      exact hand_of_advances (hstored.append_continues NOW hpos hsmall hcarries) honly hhand
  · unfold Assembly.hand at hhand
    rw [Reassembly.append_dropped hlater hnext] at hhand
    cases hhand
    refine ⟨?_, honly⟩
    cases h with
    | inl hidle => exact Or.inl hidle
    | inr hstored =>
      obtain ⟨awaited, hawaited, hstored⟩ := hstored
      exact Or.inr ⟨awaited, hawaited, hstored.canID, hstored.sequenceCounter, hstored.pointer,
        hstored.count, hstored.more, hstored.len, hstored.topicId, hstored.senderNode,
        hstored.userData⟩

/-- A message whose first telegram arrives is delivered as it was sent, or not at all. -/
theorem run_transmission {transmission : Transmission} {received : List Telegram}
    {final : Assembly} (hfirst : ¬ transmission.FirstLost)
    (hreceived : List.Forall₂ Telegram.SameOnBus transmission.survived received)
    (hrun : run (hand NOW) assembly received = some final) :
    final.DeliversOnly assembly.delivered transmission.sent := by
  obtain ⟨first, others, hsurvived, hcarries, hothers⟩ := Transmission.survived_eq_cons hfirst
  rw [hsurvived] at hreceived
  cases hreceived with
  | cons hsame hrest =>
    rename_i head received
    obtain ⟨begun, hhand, hthen⟩ := exists_of_run_cons hrun
    have hstarted := hand_of_advances
      (Reassembly.append_begins NOW (hcarries.received hsame)
        (Transmission.nonempty hfirst))
      (fun _ hmem => Or.inl hmem) hhand
    have hlabels : ∀ telegram ∈ received, ∀ _ : Assembly, ∃ number, 0 < number ∧
        number < transmission.sent.count ∧ telegram.Carries transmission.sent.outMsg number := by
      intro telegram hmem _
      obtain ⟨original, hsent, hequal⟩ := Telegram.exists_sent hrest hmem
      obtain ⟨number, hpos, hlt, hnumber⟩ := hothers original hsent
      exact ⟨number, hpos, hlt, hnumber.received hequal⟩
    have hkeeps : ∀ (state : Assembly) (telegram : Telegram) (after : Assembly),
        state.Builds transmission.sent ∧
          state.DeliversOnly assembly.delivered transmission.sent →
        (∃ number, 0 < number ∧ number < transmission.sent.count ∧
          telegram.Carries transmission.sent.outMsg number) →
        state.hand NOW telegram = some after →
        after.Builds transmission.sent ∧
          after.DeliversOnly assembly.delivered transmission.sent := by
      rintro state telegram after ⟨hbuilds, honly⟩ ⟨number, hpos, hlt, hnumber⟩ hstep
      exact hbuilds.hand honly hpos hlt hnumber hstep
    exact (run_invariant_along hkeeps hstarted (along_of_forall hlabels begun) hthen).2

theorem run_isSome (NOW : Nat → Int64) (telegrams : List Telegram) (assembly : Assembly) :
    ∃ final, run (hand NOW) assembly telegrams = some final := by
  induction telegrams generalizing assembly with
  | nil => exact ⟨assembly, rfl⟩
  | cons telegram telegrams ih =>
    obtain ⟨final, hrun⟩ := ih ⟨(assembly.reassembly.append NOW telegram).2,
      if (assembly.reassembly.append NOW telegram).1 then
        assembly.delivered ++ [(assembly.reassembly.append NOW telegram).2]
      else assembly.delivered⟩
    exact ⟨final, run_cons rfl hrun⟩

/-- The message is one of those sent. -/
def Genuine (transmissions : List Transmission) (message : Reassembly) : Prop :=
  ∃ transmission ∈ transmissions, transmission.sent.outMsg.ReceivedAs message.currentMsg

/-- The last telegram handed to the message is one of a transmission whose first was lost. -/
def EndsInOrphan (transmissions : List Transmission) (message : Reassembly) : Prop :=
  ∃ before owner later, transmissions = before ++ owner :: later ∧ owner.FirstLost ∧
    (before.flatMap Transmission.survived).length < message.handed.length ∧
    message.handed.length ≤ ((before ++ [owner]).flatMap Transmission.survived).length

theorem run_transmissions {before later : List Transmission} {received : List Telegram}
    {final : Assembly}
    (hreceived : List.Forall₂ Telegram.SameOnBus (later.flatMap Transmission.survived) received)
    (hbefore : assembly.reassembly.handed.length =
      (before.flatMap Transmission.survived).length)
    (hrun : run (hand NOW) assembly received = some final) :
    ∀ message ∈ final.delivered, message ∈ assembly.delivered ∨
      Genuine (before ++ later) message ∨ EndsInOrphan (before ++ later) message := by
  induction later generalizing before received assembly with
  | nil =>
    rw [List.flatMap_nil, List.forall₂_nil_left_iff] at hreceived
    subst hreceived
    cases hrun
    exact fun message hmem => Or.inl hmem
  | cons owner later ih =>
    rw [List.flatMap_cons] at hreceived
    have hown := List.forall₂_take owner.survived.length hreceived
    have hothers := List.forall₂_drop owner.survived.length hreceived
    rw [List.take_left] at hown
    rw [List.drop_left] at hothers
    rw [← List.take_append_drop owner.survived.length received] at hrun
    obtain ⟨middle, hfirst, hrest⟩ := exists_of_run_append hrun
    obtain ⟨hlength, hdelivered⟩ := run_delivered hfirst
    have hsurvived : (received.take owner.survived.length).length = owner.survived.length :=
      (List.Forall₂.length_eq hown).symm
    have hmiddle : middle.reassembly.handed.length =
        ((before ++ [owner]).flatMap Transmission.survived).length := by
      rw [hlength, hbefore, hsurvived]
      simp
    have hlist : before ++ owner :: later = before ++ [owner] ++ later := by simp
    intro message hmem
    cases ih hothers hmiddle hrest message hmem with
    | inr hlater =>
      rw [hlist]
      exact Or.inr hlater
    | inl hmem =>
      cases hdelivered message hmem with
      | inl hearlier => exact Or.inl hearlier
      | inr hposition =>
        by_cases hlost : owner.FirstLost
        · rw [hbefore, hmiddle] at hposition
          exact Or.inr (Or.inr ⟨before, owner, later, rfl, hlost, hposition⟩)
        · cases run_transmission hlost hown hfirst message hmem with
          | inl hearlier => exact Or.inl hearlier
          | inr hgenuine =>
            have howner : owner ∈ before ++ owner :: later :=
              List.mem_append_right before List.mem_cons_self
            exact Or.inr (Or.inl ⟨owner, howner, hgenuine⟩)

end Assembly

/-- With one CAN id nothing is parked. -/
structure Reception.OneId (id : UInt32) (reception : Reception) : Prop where
  parked : reception.parked = []
  current : reception.reassembly.currentReceiveCANId = 0 ∨
    reception.reassembly.currentReceiveCANId = id
  incoming : ∀ telegram ∈ reception.incoming, telegram.canID = id

theorem Reassembly.current_append (NOW : Nat → Int64) (self : Reassembly) (telegram : Telegram) :
    (self.append NOW telegram).2.currentReceiveCANId = 0 ∨
      (self.append NOW telegram).2.currentReceiveCANId = self.currentReceiveCANId ∨
      (self.append NOW telegram).2.currentReceiveCANId = telegram.canID := by
  have hfinish : ∀ reassembly : Reassembly,
      reassembly.finishOrContinue.2.currentReceiveCANId = 0 ∨
        reassembly.finishOrContinue.2.currentReceiveCANId = reassembly.currentReceiveCANId := by
    intro reassembly
    unfold finishOrContinue
    split
    · exact Or.inl rfl
    · exact Or.inr rfl
  by_cases hfirst : telegram.data 0 = 0
  · rw [append_first hfirst]
    exact (hfinish _).imp_right Or.inr
  · by_cases hnext : self.Continues telegram
    · rw [append_next hnext]
      exact (hfinish _).imp_right Or.inl
    · rw [append_dropped hfirst hnext]
      exact Or.inr (Or.inl rfl)

theorem Reception.receive_oneId (NOW : Nat → Int64) {id : UInt32} {reassembly : Reassembly}
    {incoming : List Telegram} (mostParked : Nat)
    (h : OneId id ⟨[], incoming, reassembly, mostParked⟩) :
    OneId id (receive NOW reassembly [] mostParked incoming).2 ∧
      (receive NOW reassembly [] mostParked incoming).2.reassembly.handed ++
        (receive NOW reassembly [] mostParked incoming).2.incoming =
          reassembly.handed ++ incoming := by
  induction incoming generalizing reassembly with
  | nil => exact ⟨⟨rfl, h.current, h.incoming⟩, rfl⟩
  | cons telegram incoming ih =>
    have hid := h.incoming telegram List.mem_cons_self
    have hothers : ∀ later ∈ incoming, later.canID = id := fun later hlater =>
      h.incoming later (List.mem_cons_of_mem telegram hlater)
    have hwants : reassembly.Wants telegram := by
      cases h.current with
      | inl hidle => exact Or.inr hidle
      | inr hbusy => exact Or.inl (hid.trans hbusy.symm)
    have hhanded := reassembly.handed_append NOW telegram
    have hcurrent : (reassembly.append NOW telegram).2.currentReceiveCANId = 0 ∨
        (reassembly.append NOW telegram).2.currentReceiveCANId = id := by
      cases reassembly.current_append NOW telegram with
      | inl hidle => exact Or.inl hidle
      | inr hset =>
        cases hset with
        | inl hsame => exact hsame ▸ h.current
        | inr hnew => exact Or.inr (hnew.trans hid)
    rw [receive, if_pos hwants]
    cases hresult : reassembly.append NOW telegram with
    | mk complete after =>
    rw [hresult] at hhanded hcurrent
    have hmoved : after.handed ++ incoming = reassembly.handed ++ telegram :: incoming := by
      rw [hhanded, List.append_assoc, List.singleton_append]
    cases complete with
    | true => exact ⟨⟨rfl, hcurrent, hothers⟩, hmoved⟩
    | false =>
      obtain ⟨hone, hequal⟩ := ih ⟨rfl, hcurrent, hothers⟩
      exact ⟨hone, hequal.trans hmoved⟩

theorem Reception.OneId.getNetworkMsg (NOW : Nat → Int64) {id : UInt32} {reception : Reception}
    (h : reception.OneId id) :
    (reception.getNetworkMsg NOW).2.OneId id ∧
      (reception.getNetworkMsg NOW).2.reassembly.handed ++
        (reception.getNetworkMsg NOW).2.incoming =
          reception.reassembly.handed ++ reception.incoming := by
  obtain ⟨parked, incoming, reassembly, mostParked⟩ := reception
  obtain rfl : parked = [] := h.parked
  have hscan : (if reassembly.currentReceiveCANId = 0 then scan NOW reassembly [] []
      else (false, [], reassembly)) = (false, [], reassembly) := by
    split <;> rfl
  simp only [Reception.getNetworkMsg, hscan]
  exact receive_oneId NOW mostParked h

namespace Session

variable {NOW : Nat → Int64} {memory : LinkinterfaceCAN}

theorem Tracks.run_oneId {id : UInt32} {session : Session} {reception : Reception}
    {actions : List Action} (h : session.Tracks NOW memory reception) (hone : reception.OneId id)
    (hids : ∀ telegram ∈ arrived actions, telegram.canID = id) :
    ∃ final after, Library.run (Session.step NOW) session actions = some final ∧
      final.Tracks NOW memory after ∧
      after.reassembly.handed ++ after.incoming =
        reception.reassembly.handed ++ reception.incoming ++ arrived actions := by
  induction actions generalizing session reception with
  | nil => exact ⟨session, reception, rfl, h, (List.append_nil _).symm⟩
  | cons action actions ih =>
    cases action with
    | arrive telegram =>
      obtain ⟨next, hstep, hnext, _⟩ := h.arrive telegram
      have hid := hids telegram List.mem_cons_self
      have hgrown : Reception.OneId id
          { reception with incoming := reception.incoming ++ [telegram] } := by
        refine ⟨hone.parked, hone.current, fun waiting hwaiting => ?_⟩
        cases List.mem_append.mp hwaiting with
        | inl hold => exact hone.incoming waiting hold
        | inr hnew => rw [List.mem_singleton.mp hnew, hid]
      obtain ⟨final, after, hrest, hfinal, hhanded⟩ :=
        ih hnext hgrown fun later hlater => hids later (List.mem_cons_of_mem telegram hlater)
      refine ⟨final, after, run_cons hstep hrest, hfinal, hhanded.trans ?_⟩
      simp [arrived]
    | getNetworkMsg =>
      obtain ⟨next, hstep, hnext, _⟩ := h.getNetworkMsg
      obtain ⟨hcalled, hkept⟩ := hone.getNetworkMsg NOW
      obtain ⟨final, after, hrest, hfinal, hhanded⟩ := ih hnext hcalled hids
      rw [hkept] at hhanded
      exact ⟨final, after, run_cons hstep hrest, hfinal, hhanded⟩

/-- With one CAN id and telegrams lost at will, every delivered message is one that was sent,
unless it was completed by a telegram of a message whose own first telegram was lost. -/
theorem delivered_genuine_or_orphan (NOW : Nat → Int64) (memory : LinkinterfaceCAN) (id : UInt32)
    (transmissions : List Transmission) (actions : List Action)
    (hid : ∀ transmission ∈ transmissions, transmission.sent.outMsg.canID = id)
    (harrived : List.Forall₂ Telegram.SameOnBus (transmissions.flatMap Transmission.survived)
      (arrived actions)) :
    ∀ message ∈ (after NOW memory actions).delivered,
      Assembly.Genuine transmissions message ∨ Assembly.EndsInOrphan transmissions message := by
  have hids : ∀ telegram ∈ arrived actions, telegram.canID = id := by
    intro telegram hmem
    obtain ⟨original, hsent, hsame⟩ := Telegram.exists_sent harrived hmem
    obtain ⟨transmission, howner, hsurvived⟩ := List.mem_flatMap.mp hsent
    obtain ⟨number, hnumber⟩ := List.getElem?_of_mem (transmission.sublist.subset hsurvived)
    rw [hsame.canID, (transmission.sent.carries hnumber).canID]
    exact hid transmission howner
  have hstart : Reception.OneId id ⟨[], [], memory.construct.reassembly, 0⟩ :=
    ⟨rfl, Or.inl rfl, fun _ hmem => by cases hmem⟩
  obtain ⟨final, reception, hrun, htracks, hhanded⟩ :=
    (tracks_start NOW memory).run_oneId hstart hids
  rw [run_after] at hrun
  cases hrun
  intro message hmem
  obtain ⟨whole, hwhole⟩ := Assembly.run_isSome NOW reception.incoming
    ⟨reception.reassembly, (after NOW memory actions).delivered⟩
  have hall := run_append htracks.assembled hwhole
  have hcomplete : reception.reassembly.handed ++ reception.incoming = arrived actions := hhanded
  rw [hcomplete] at hall
  have hmessage : message ∈ whole.delivered := Assembly.run_keeps hmem hwhole
  have hnone : memory.construct.reassembly.handed.length =
      (([] : List Transmission).flatMap Transmission.survived).length := rfl
  cases Assembly.run_transmissions harrived hnone hall message hmessage with
  | inl hstale => cases hstale
  | inr hsettled => exact hsettled

/-- Two messages of twelve bytes; the second telegram of the first one and the first telegram of the
second one are lost. -/
def lostBetween : List Transmission :=
  let sentWith (byte : UInt8) : Sent := Sent.ofMessage
    (((NetworkMessage.mk (fun _ => 0) (fun _ => byte)).putTopicId 1).putLen 12)
    (by simp [MAX_NETWORK_MESSAGE_LENGTH])
  [⟨sentWith 0xAA, (sentWith 0xAA).written.take 1, List.take_sublist 1 _⟩,
    ⟨sentWith 0xBB, (sentWith 0xBB).written.drop 1, List.drop_sublist 1 _⟩]

def lostBetweenActions : List Action :=
  (lostBetween.flatMap Transmission.survived).map .arrive ++ [.getNetworkMsg]

theorem arrived_lostBetween :
    List.Forall₂ Telegram.SameOnBus (lostBetween.flatMap Transmission.survived)
      (arrived lostBetweenActions) :=
  List.forall₂_same.mpr fun telegram _ => Telegram.SameOnBus.refl telegram

theorem delivered_genuine_or_orphan_lostBetween :
    (after (fun _ => 0) .zeroed lostBetweenActions).delivered.length = 1 ∧
      ∀ message ∈ (after (fun _ => 0) .zeroed lostBetweenActions).delivered,
        Assembly.Genuine lostBetween message ∨ Assembly.EndsInOrphan lostBetween message :=
  ⟨by decide, delivered_genuine_or_orphan (fun _ => 0) .zeroed 0x1C000100 lostBetween
    lostBetweenActions (by decide) arrived_lostBetween⟩

/-- The five bytes of the one and the seven bytes of the other are delivered as one message. -/
theorem mixture_delivered :
    (∀ transmission ∈ lostBetween, transmission.sent.outMsg.canID = 0x1C000100) ∧
      List.Forall₂ Telegram.SameOnBus (lostBetween.flatMap Transmission.survived)
        (arrived lostBetweenActions) ∧
      (after (fun _ => 0) .zeroed lostBetweenActions).returned = some true ∧
      ∃ message ∈ (after (fun _ => 0) .zeroed lostBetweenActions).delivered,
        ∀ transmission ∈ lostBetween,
          message.currentMsg.userData ≠ transmission.sent.outMsg.userData :=
  ⟨by decide, arrived_lostBetween, by decide, by decide⟩

end Session

end Rodos.Gateway
