import Rodos.Gateway.Reception

/-! The message in progress and the delivered messages depend only on the telegrams that were
handed over and their order. -/
namespace Rodos.Gateway
open Library

structure Assembly where
  reassembly : Reassembly
  delivered : List Reassembly

def Assembly.hand (NOW : Nat → Int64) (self : Assembly) (telegram : Telegram) : Option Assembly :=
  let (complete, reassembly) := self.reassembly.append NOW telegram
  some ⟨reassembly, if complete then self.delivered ++ [reassembly] else self.delivered⟩

theorem Reassembly.handed_append (NOW : Nat → Int64) (self : Reassembly) (telegram : Telegram) :
    (self.append NOW telegram).2.handed = self.handed ++ [telegram] := by
  have hfinish : ∀ reassembly : Reassembly,
      reassembly.finishOrContinue.2.handed = reassembly.handed := by
    intro reassembly
    unfold finishOrContinue
    split <;> rfl
  by_cases hfirst : telegram.data 0 = 0
  · rw [append_first hfirst, hfinish]
    rfl
  · by_cases hnext : self.Continues telegram
    · rw [append_next hnext, hfinish]
      rfl
    · rw [append_dropped hfirst hnext]
      rfl

/-- From one state to the other by handing over telegrams, none of which but the last completes a
message. -/
def HandedOver (NOW : Nat → Int64) (before : Reassembly) (complete : Bool) (after : Reassembly) :
    Prop :=
  ∃ telegrams, after.handed = before.handed ++ telegrams ∧
    ∀ delivered, run (Assembly.hand NOW) ⟨before, delivered⟩ telegrams =
      some ⟨after, if complete then delivered ++ [after] else delivered⟩

namespace HandedOver

variable {NOW : Nat → Int64} {first second third : Reassembly} {complete : Bool}

theorem nothing (reassembly : Reassembly) : HandedOver NOW reassembly false reassembly :=
  ⟨[], (List.append_nil _).symm, fun _ => rfl⟩

theorem one {telegram : Telegram} (happend : first.append NOW telegram = (complete, second)) :
    HandedOver NOW first complete second := by
  refine ⟨[telegram], ?_, fun delivered => ?_⟩
  · rw [← first.handed_append NOW telegram, happend]
  · have hstep : Assembly.hand NOW ⟨first, delivered⟩ telegram =
        some ⟨second, if complete then delivered ++ [second] else delivered⟩ := by
      simp only [Assembly.hand, happend]
    exact run_cons hstep rfl

theorem trans (h : HandedOver NOW first false second) (h' : HandedOver NOW second complete third) :
    HandedOver NOW first complete third := by
  obtain ⟨telegrams, hhanded, hrun⟩ := h
  obtain ⟨later, hlater, hthen⟩ := h'
  refine ⟨telegrams ++ later, ?_, fun delivered => run_append (hrun delivered) (hthen delivered)⟩
  rw [hlater, hhanded, List.append_assoc]

end HandedOver

namespace Reception

variable (NOW : Nat → Int64)

theorem scan_handedOver (reassembly : Reassembly) (kept rest : List Telegram) :
    HandedOver NOW reassembly (scan NOW reassembly kept rest).1
      (scan NOW reassembly kept rest).2.2 := by
  induction rest generalizing reassembly kept with
  | nil => exact HandedOver.nothing reassembly
  | cons telegram rest ih =>
    unfold scan
    split
    · split
      · next after happend => exact HandedOver.one happend
      · next after happend => exact (HandedOver.one happend).trans (ih after kept)
    · exact ih reassembly (kept ++ [telegram])

theorem receive_handedOver (reassembly : Reassembly) (parked incoming : List Telegram)
    (mostParked : Nat) :
    HandedOver NOW reassembly (receive NOW reassembly parked mostParked incoming).1
      (receive NOW reassembly parked mostParked incoming).2.reassembly := by
  induction incoming generalizing reassembly parked mostParked with
  | nil => exact HandedOver.nothing reassembly
  | cons telegram incoming ih =>
    rw [receive]
    split
    · split
      · next after happend => exact HandedOver.one happend
      · next after happend => exact (HandedOver.one happend).trans (ih after _ mostParked)
    · exact ih reassembly _ _

theorem getNetworkMsg_handedOver (self : Reception) :
    HandedOver NOW self.reassembly (self.getNetworkMsg NOW).1
      (self.getNetworkMsg NOW).2.reassembly := by
  unfold getNetworkMsg
  by_cases hidle : self.reassembly.currentReceiveCANId = 0
  · have hscan := scan_handedOver NOW self.reassembly [] self.parked
    rw [if_pos hidle]
    cases hresult : scan NOW self.reassembly [] self.parked with
    | mk complete found =>
    rw [hresult] at hscan
    cases complete with
    | true => exact hscan
    | false => exact hscan.trans (receive_handedOver NOW found.2 found.1 self.incoming _)
  · rw [if_neg hidle]
    exact receive_handedOver NOW self.reassembly self.parked self.incoming _

theorem mostParked_le_receive (reassembly : Reassembly) (parked incoming : List Telegram)
    (mostParked : Nat) :
    mostParked ≤ (receive NOW reassembly parked mostParked incoming).2.mostParked := by
  induction incoming generalizing reassembly parked mostParked with
  | nil => exact Nat.le_refl _
  | cons telegram incoming ih =>
    rw [receive]
    split
    · split
      · exact Nat.le_refl _
      · exact ih _ _ mostParked
    · exact Nat.le_trans (Nat.le_max_left _ _) (ih reassembly _ _)

theorem mostParked_le_getNetworkMsg (self : Reception) :
    self.mostParked ≤ (self.getNetworkMsg NOW).2.mostParked := by
  unfold getNetworkMsg
  split
  split
  · exact Nat.le_refl _
  · exact mostParked_le_receive NOW _ _ self.incoming self.mostParked

end Reception

namespace Session

/-- The session is what handing over its telegrams one by one makes of the fresh object. -/
structure Tracks (NOW : Nat → Int64) (memory : LinkinterfaceCAN) (session : Session)
    (reception : Reception) : Prop where
  represents : ∃ slots, session.link.Represents slots reception
  reassembly : session.link.reassembly = reception.reassembly
  assembled : run (Assembly.hand NOW) ⟨memory.construct.reassembly, []⟩
    reception.reassembly.handed = some ⟨reception.reassembly, session.delivered⟩

theorem tracks_start (NOW : Nat → Int64) (memory : LinkinterfaceCAN) :
    Tracks NOW memory (start memory) ⟨[], [], memory.construct.reassembly, 0⟩ :=
  ⟨⟨[], LinkinterfaceCAN.represents_start memory⟩, rfl, rfl⟩

variable {NOW : Nat → Int64} {memory : LinkinterfaceCAN} {session : Session}
  {reception : Reception}

theorem Tracks.arrive (h : session.Tracks NOW memory reception) (telegram : Telegram) :
    ∃ next, session.step NOW (.arrive telegram) = some next ∧
      next.Tracks NOW memory { reception with incoming := reception.incoming ++ [telegram] } ∧
      next.delivered = session.delivered ∧ next.returned = session.returned := by
  obtain ⟨slots, hrepresents⟩ := h.represents
  refine ⟨_, rfl, ⟨⟨slots, ⟨?_, hrepresents.parked, ?_, hrepresents.reassembly,
    hrepresents.mostParked⟩⟩, h.reassembly, h.assembled⟩, rfl, rfl⟩
  · exact ⟨hrepresents.pool.linked, hrepresents.pool.last, hrepresents.pool.pos_ge,
      hrepresents.pool.partition, hrepresents.pool.isBroadcastLink⟩
  · exact congrArg (· ++ [telegram]) hrepresents.incoming

theorem Tracks.getNetworkMsg (h : session.Tracks NOW memory reception) :
    ∃ next, session.step NOW .getNetworkMsg = some next ∧
      next.Tracks NOW memory (reception.getNetworkMsg NOW).2 ∧
      next.delivered = (if (reception.getNetworkMsg NOW).1 then
        session.delivered ++ [(reception.getNetworkMsg NOW).2.reassembly]
        else session.delivered) ∧
      next.returned = some (reception.getNetworkMsg NOW).1 := by
  obtain ⟨slots, hrepresents⟩ := h.represents
  obtain ⟨after, link, hcall, hafter⟩ := hrepresents.getNetworkMsg NOW
  obtain ⟨telegrams, hhanded, hrun⟩ := reception.getNetworkMsg_handedOver NOW
  have hlink := hafter.reassembly
  let next : Session :=
    { link := link
      delivered := if (reception.getNetworkMsg NOW).1 then
        session.delivered ++ [link.reassembly] else session.delivered
      returned := some (reception.getNetworkMsg NOW).1 }
  have hstep : session.step NOW .getNetworkMsg = some next := by
    simp only [step, hcall, Option.map_some, next]
  refine ⟨next, hstep, ⟨⟨after, hafter⟩, hlink, ?_⟩, ?_, rfl⟩
  · rw [hhanded]
    have hall := run_append h.assembled (hrun session.delivered)
    rw [hall]
    simp only [next, hlink]
  · simp only [next, hlink]

/-- Telegrams handed over stay so, and the largest number of parked ones is kept. -/
structure Grows (before after : Reception) : Prop where
  handed : before.reassembly.handed <+: after.reassembly.handed
  mostParked : before.mostParked ≤ after.mostParked

theorem Grows.refl (reception : Reception) : Grows reception reception :=
  ⟨List.prefix_rfl, Nat.le_refl _⟩

theorem Grows.trans {first second third : Reception} (h : Grows first second)
    (h' : Grows second third) : Grows first third :=
  ⟨h.handed.trans h'.handed, h.mostParked.trans h'.mostParked⟩

theorem Tracks.step (h : session.Tracks NOW memory reception) (action : Action) :
    ∃ next after, session.step NOW action = some next ∧ next.Tracks NOW memory after ∧
      Grows reception after := by
  cases action with
  | arrive telegram =>
    obtain ⟨next, hstep, hnext, _⟩ := h.arrive telegram
    exact ⟨next, _, hstep, hnext, List.prefix_rfl, Nat.le_refl _⟩
  | getNetworkMsg =>
    obtain ⟨next, hstep, hnext, _⟩ := h.getNetworkMsg
    obtain ⟨telegrams, hhanded, _⟩ := reception.getNetworkMsg_handedOver NOW
    exact ⟨next, _, hstep, hnext, ⟨telegrams, hhanded.symm⟩,
      reception.mostParked_le_getNetworkMsg NOW⟩

/-- No call ever gets stuck. -/
theorem Tracks.run (h : session.Tracks NOW memory reception) (actions : List Action) :
    ∃ final after, Library.run (Session.step NOW) session actions = some final ∧
      final.Tracks NOW memory after ∧ Grows reception after := by
  induction actions generalizing session reception with
  | nil => exact ⟨session, reception, rfl, h, Grows.refl reception⟩
  | cons action actions ih =>
    obtain ⟨next, between, hstep, hnext, hgrown⟩ := h.step action
    obtain ⟨final, after, hrest, hfinal, hmore⟩ := ih hnext
    exact ⟨final, after, run_cons hstep hrest, hfinal, hgrown.trans hmore⟩

theorem Tracks.of_run {actions : List Action} {final : Session}
    (h : session.Tracks NOW memory reception)
    (hrun : Library.run (Session.step NOW) session actions = some final) :
    ∃ after, final.Tracks NOW memory after ∧ Grows reception after := by
  obtain ⟨reached, after, hreached, hfinal, hgrown⟩ := h.run actions
  rw [hreached] at hrun
  cases hrun
  exact ⟨after, hfinal, hgrown⟩

theorem Tracks.mostBuffered (h : session.Tracks NOW memory reception) :
    session.link.mostBuffered = reception.mostParked := by
  obtain ⟨slots, hrepresents⟩ := h.represents
  exact hrepresents.mostParked

theorem isSome_run (NOW : Nat → Int64) (memory : LinkinterfaceCAN) (actions : List Action) :
    (Library.run (Session.step NOW) (start memory) actions).isSome := by
  obtain ⟨final, _, hrun, _⟩ := (tracks_start NOW memory).run actions
  rw [hrun]
  rfl

/-- The session after these actions. -/
def after (NOW : Nat → Int64) (memory : LinkinterfaceCAN) (actions : List Action) : Session :=
  (Library.run (Session.step NOW) (start memory) actions).get (isSome_run NOW memory actions)

theorem run_after (NOW : Nat → Int64) (memory : LinkinterfaceCAN) (actions : List Action) :
    Library.run (Session.step NOW) (start memory) actions = some (after NOW memory actions) :=
  (Option.some_get _).symm

/-- Whatever telegrams arrive and however often the gateway thread calls, no step gets stuck and no
buffer is lost or used twice. -/
theorem buffers_partitioned (NOW : Nat → Int64) (memory : LinkinterfaceCAN)
    (actions : List Action) :
    ∃ final slots, Library.run (Session.step NOW) (start memory) actions = some final ∧
      final.link.Partitioned slots := by
  obtain ⟨final, reception, hrun, hfinal, _⟩ := (tracks_start NOW memory).run actions
  obtain ⟨slots, hrepresents⟩ := hfinal.represents
  exact ⟨final, slots, hrun, hrepresents.pool.partitioned⟩

end Session

end Rodos.Gateway
