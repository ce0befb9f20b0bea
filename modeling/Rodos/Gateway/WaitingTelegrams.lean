import Rodos.Gateway.Transmission

/-! Which telegrams the link takes next: of those that wait, the parked ones first, each that the
message in progress wants. What is kept by taking one of them is kept by every call. -/
namespace Rodos.Gateway
open Library

def Unwanted (reassembly : Reassembly) (telegrams : List Telegram) : Prop :=
  ∀ telegram ∈ telegrams, ¬ reassembly.Wants telegram

variable {NOW : Nat → Int64} {reassembly : Reassembly} {telegram : Telegram}
  {before : List Telegram}

theorem Unwanted.canID_ne (h : Unwanted reassembly before) (hwants : reassembly.Wants telegram) :
    ∀ earlier ∈ before, earlier.canID ≠ telegram.canID := by
  intro earlier hmem hsame
  apply h earlier hmem
  rw [Reassembly.Wants, hsame]
  exact hwants

theorem Unwanted.concat (h : Unwanted reassembly before) (hunwanted : ¬ reassembly.Wants telegram) :
    Unwanted reassembly (before ++ [telegram]) := by
  intro earlier hmem
  cases List.mem_append.mp hmem with
  | inl hold => exact h earlier hold
  | inr hnew => rwa [List.mem_singleton.mp hnew]

namespace Reassembly

theorem finishOrContinue_current (reassembly : Reassembly) :
    reassembly.finishOrContinue.2.currentReceiveCANId =
      if reassembly.finishOrContinue.1 then 0 else reassembly.currentReceiveCANId := by
  unfold finishOrContinue
  split <;> rfl

/-- A telegram that is wanted ends its message, leaves it in progress, or finds none to go on
with. -/
theorem append_current (NOW : Nat → Int64) (hwants : reassembly.Wants telegram) :
    if (reassembly.append NOW telegram).1 then
      (reassembly.append NOW telegram).2.currentReceiveCANId = 0
    else
      (reassembly.append NOW telegram).2.currentReceiveCANId = telegram.canID ∨
        reassembly.currentReceiveCANId = 0 ∧
          (reassembly.append NOW telegram).2.currentReceiveCANId = 0 := by
  by_cases hfirst : telegram.data 0 = 0
  · rw [append_first hfirst, finishOrContinue_current]
    split
    · rfl
    · exact Or.inl rfl
  · by_cases hnext : reassembly.Continues telegram
    · rw [append_next hnext, finishOrContinue_current]
      split
      · rfl
      · exact Or.inl hnext.2.2.1.symm
    · rw [append_dropped hfirst hnext, if_neg Bool.false_ne_true]
      cases hwants with
      | inl hsame => exact Or.inl hsame.symm
      | inr hidle => exact Or.inr ⟨hidle, hidle⟩

theorem append_current_cases (NOW : Nat → Int64) (hwants : reassembly.Wants telegram) :
    (reassembly.append NOW telegram).2.currentReceiveCANId = 0 ∨
      (reassembly.append NOW telegram).2.currentReceiveCANId = telegram.canID := by
  have hcurrent := append_current NOW hwants
  split at hcurrent
  · exact Or.inl hcurrent
  · cases hcurrent with
    | inl hbusy => exact Or.inr hbusy
    | inr hidle => exact Or.inl hidle.2

end Reassembly

/-- What was not wanted is not wanted now, unless the message is complete. -/
theorem Unwanted.append (h : Unwanted reassembly before) (hwants : reassembly.Wants telegram)
    (hopen : (reassembly.append NOW telegram).1 = false) :
    Unwanted (reassembly.append NOW telegram).2 before := by
  have hcurrent := Reassembly.append_current NOW hwants
  rw [hopen, if_neg Bool.false_ne_true] at hcurrent
  intro earlier hmem
  have hidle : reassembly.currentReceiveCANId ≠ 0 := fun hzero => h earlier hmem (Or.inr hzero)
  have hsame : telegram.canID = reassembly.currentReceiveCANId := hwants.resolve_right hidle
  have hbusy := hcurrent.resolve_right fun hnone => hidle hnone.1
  rw [Reassembly.Wants, hbusy, hsame]
  exact h earlier hmem

namespace Reception

/-- Taking a telegram keeps the property of the waiting telegrams, the message in progress and the
delivered messages. -/
def KeptByTaking (NOW : Nat → Int64)
    (property : List Telegram → Reassembly → List Reassembly → Prop) : Prop :=
  ∀ before telegram after reassembly delivered,
    property (before ++ telegram :: after) reassembly delivered → Unwanted reassembly before →
    reassembly.Wants telegram →
    property (before ++ after) (reassembly.append NOW telegram).2
      (if (reassembly.append NOW telegram).1 then
        delivered ++ [(reassembly.append NOW telegram).2] else delivered)

variable {property : List Telegram → Reassembly → List Reassembly → Prop}

theorem scan_keeps (hkeeps : KeptByTaking NOW property) {kept rest beyond : List Telegram}
    {delivered : List Reassembly} (hkept : Unwanted reassembly kept)
    (h : property (kept ++ rest ++ beyond) reassembly delivered) :
    let (complete, parked, after) := scan NOW reassembly kept rest
    property (parked ++ beyond) after (if complete then delivered ++ [after] else delivered) ∧
      if complete then after.currentReceiveCANId = 0 else Unwanted after parked := by
  induction rest generalizing reassembly kept with
  | nil =>
    rw [List.append_nil] at h
    exact ⟨h, hkept⟩
  | cons telegram rest ih =>
    unfold scan
    rw [List.append_assoc, List.cons_append] at h
    by_cases hwants : reassembly.Wants telegram
    · rw [if_pos hwants]
      have htaken := hkeeps kept telegram (rest ++ beyond) reassembly delivered h hkept hwants
      have hcurrent := Reassembly.append_current NOW hwants
      have hstill : (reassembly.append NOW telegram).1 = false → _ := hkept.append hwants
      rw [← List.append_assoc] at htaken
      cases hresult : reassembly.append NOW telegram with
      | mk complete after =>
      rw [hresult] at htaken hcurrent hstill
      cases complete with
      | true => exact ⟨htaken, hcurrent⟩
      | false => exact ih (hstill rfl) htaken
    · rw [if_neg hwants]
      apply ih (hkept.concat hwants)
      rw [List.append_assoc, List.append_assoc, List.singleton_append]
      exact h

theorem receive_keeps (hkeeps : KeptByTaking NOW property)
    {parked incoming future : List Telegram} {mostParked : Nat} {delivered : List Reassembly}
    (hparked : Unwanted reassembly parked) (hlength : parked.length ≤ mostParked)
    (hroom : (receive NOW reassembly parked mostParked incoming).2.mostParked <
      CAN_MSG_BUFFER_SIZE)
    (h : property (parked ++ incoming ++ future) reassembly delivered) :
    let (complete, after) := receive NOW reassembly parked mostParked incoming
    property (after.parked ++ after.incoming ++ future) after.reassembly
        (if complete then delivered ++ [after.reassembly] else delivered) ∧
      after.parked.length ≤ after.mostParked ∧
      if complete then after.reassembly.currentReceiveCANId = 0
      else after.incoming = [] ∧ Unwanted after.reassembly after.parked := by
  have hstill := mostParked_le_receive NOW reassembly parked incoming mostParked
  have hkept : makeRoom parked = parked := if_pos (by omega)
  induction incoming generalizing reassembly parked mostParked with
  | nil =>
    rw [receive, hkept]
    exact ⟨h, hlength, rfl, hparked⟩
  | cons telegram incoming ih =>
    rw [receive, hkept] at hroom hstill ⊢
    rw [List.append_assoc, List.cons_append] at h
    by_cases hwants : reassembly.Wants telegram
    · rw [if_pos hwants] at hroom hstill ⊢
      have htaken := hkeeps parked telegram (incoming ++ future) reassembly delivered h hparked
        hwants
      have hcurrent := Reassembly.append_current NOW hwants
      have hunwanted : (reassembly.append NOW telegram).1 = false → _ := hparked.append hwants
      rw [← List.append_assoc] at htaken
      cases hresult : reassembly.append NOW telegram with
      | mk complete after =>
      rw [hresult] at hroom hstill htaken hcurrent hunwanted
      cases complete with
      | true => exact ⟨htaken, hlength, hcurrent⟩
      | false => exact ih (hunwanted rfl) hlength hroom htaken hstill hkept
    · rw [if_neg hwants] at hroom hstill ⊢
      have hgrown := mostParked_le_receive NOW reassembly (parked ++ [telegram]) incoming
        (max mostParked (parked.length + 1))
      apply ih (hparked.concat hwants) _ hroom _ hgrown
      · exact if_pos (by rw [List.length_append, List.length_singleton]; omega)
      · rw [List.length_append, List.length_singleton]
        exact Nat.le_max_right _ _
      · rw [List.append_assoc, List.append_assoc, List.singleton_append]
        exact h

variable (NOW)

theorem scan_length (reassembly : Reassembly) (kept rest : List Telegram) :
    (scan NOW reassembly kept rest).2.1.length + (scan NOW reassembly kept rest).1.toNat ≤
      kept.length + rest.length := by
  induction rest generalizing reassembly kept with
  | nil => exact Nat.le_refl _
  | cons telegram rest ih =>
    unfold scan
    split
    · split
      · simp only [List.length_append, List.length_cons, Bool.toNat_true]
        omega
      · next after _ =>
        have hrest := ih after kept
        rw [List.length_cons]
        omega
    · have hrest := ih reassembly (kept ++ [telegram])
      rw [List.length_append, List.length_singleton] at hrest
      rw [List.length_cons]
      omega

theorem length_makeRoom_le (parked : List Telegram) :
    (makeRoom parked).length ≤ parked.length := by
  unfold makeRoom
  split
  · exact Nat.le_refl _
  · rw [List.length_dropLast]
    omega

theorem receive_length (reassembly : Reassembly) (parked incoming : List Telegram)
    (mostParked : Nat) :
    (receive NOW reassembly parked mostParked incoming).2.parked.length +
        (receive NOW reassembly parked mostParked incoming).2.incoming.length +
        (receive NOW reassembly parked mostParked incoming).1.toNat ≤
      parked.length + incoming.length := by
  induction incoming generalizing reassembly parked mostParked with
  | nil => exact length_makeRoom_le parked
  | cons telegram incoming ih =>
    have hroom := length_makeRoom_le parked
    rw [receive, List.length_cons]
    split
    · split
      · simp only [Bool.toNat_true]
        omega
      · next after _ =>
        have hrest := ih after (makeRoom parked) mostParked
        omega
    · have hrest := ih reassembly (makeRoom parked ++ [telegram])
        (max mostParked ((makeRoom parked).length + 1))
      rw [List.length_append, List.length_singleton] at hrest
      omega

/-- A call ends with a parked telegram, or goes on with those that have come in. -/
theorem getNetworkMsg_cases (self : Reception) :
    (∃ parked reassembly, parked.length + 1 ≤ self.parked.length ∧
      self.getNetworkMsg NOW = (true, { self with parked := parked, reassembly := reassembly })) ∨
    ∃ parked reassembly, parked.length ≤ self.parked.length ∧
      self.getNetworkMsg NOW = receive NOW reassembly parked self.mostParked self.incoming := by
  have hscan := scan_length NOW self.reassembly [] self.parked
  rw [List.length_nil, Nat.zero_add] at hscan
  unfold getNetworkMsg
  by_cases hidle : self.reassembly.currentReceiveCANId = 0
  · rw [if_pos hidle]
    cases hresult : scan NOW self.reassembly [] self.parked with
    | mk complete found =>
    rw [hresult] at hscan
    cases complete with
    | true => exact .inl ⟨found.1, found.2, hscan, rfl⟩
    | false => exact .inr ⟨found.1, found.2, hscan, rfl⟩
  · rw [if_neg hidle]
    exact .inr ⟨self.parked, self.reassembly, Nat.le_refl _, rfl⟩

/-- A call that returns true has used up a telegram. -/
theorem getNetworkMsg_length (self : Reception) :
    (self.getNetworkMsg NOW).2.parked.length + (self.getNetworkMsg NOW).2.incoming.length +
        (self.getNetworkMsg NOW).1.toNat ≤
      self.parked.length + self.incoming.length := by
  obtain ⟨parked, reassembly, hshorter, hcall⟩ | ⟨parked, reassembly, hshorter, hcall⟩ :=
    getNetworkMsg_cases NOW self
  · rw [hcall]
    simp only [Bool.toNat_true]
    omega
  · rw [hcall]
    have hreceive := receive_length NOW reassembly parked self.incoming self.mostParked
    omega

theorem receive_mostParked (reassembly : Reassembly) (parked incoming : List Telegram)
    (mostParked : Nat) :
    (receive NOW reassembly parked mostParked incoming).2.mostParked ≤
      max mostParked (parked.length + incoming.length) := by
  induction incoming generalizing reassembly parked mostParked with
  | nil => exact Nat.le_max_left _ _
  | cons telegram incoming ih =>
    have hroom := length_makeRoom_le parked
    rw [receive, List.length_cons]
    split
    · split
      · exact Nat.le_max_left _ _
      · next after _ =>
        have hrest := ih after (makeRoom parked) mostParked
        omega
    · have hrest := ih reassembly (makeRoom parked ++ [telegram])
        (max mostParked ((makeRoom parked).length + 1))
      rw [List.length_append, List.length_singleton] at hrest
      omega

theorem getNetworkMsg_mostParked (self : Reception) :
    (self.getNetworkMsg NOW).2.mostParked ≤
      max self.mostParked (self.parked.length + self.incoming.length) := by
  obtain ⟨parked, reassembly, _, hcall⟩ | ⟨parked, reassembly, hshorter, hcall⟩ :=
    getNetworkMsg_cases NOW self
  · rw [hcall]
    exact Nat.le_max_left _ _
  · rw [hcall]
    have hreceive := receive_mostParked NOW reassembly parked self.incoming self.mostParked
    omega

variable {NOW}

/-- Between calls, `future` being what has not arrived yet. -/
structure Between (property : List Telegram → Reassembly → List Reassembly → Prop)
    (future : List Telegram) (reception : Reception) (delivered : List Reassembly) : Prop where
  kept : property (reception.parked ++ reception.incoming ++ future) reception.reassembly delivered
  busy : reception.reassembly.currentReceiveCANId ≠ 0 →
    Unwanted reception.reassembly reception.parked
  parked_le : reception.parked.length ≤ reception.mostParked

theorem between_of_received {future : List Telegram} {delivered : List Reassembly}
    {result : Bool × Reception}
    (h : let (complete, after) := result
      property (after.parked ++ after.incoming ++ future) after.reassembly
          (if complete then delivered ++ [after.reassembly] else delivered) ∧
        after.parked.length ≤ after.mostParked ∧
        if complete then after.reassembly.currentReceiveCANId = 0
        else after.incoming = [] ∧ Unwanted after.reassembly after.parked) :
    Between property future result.2
        (if result.1 then delivered ++ [result.2.reassembly] else delivered) ∧
      (result.1 = false →
        result.2.incoming = [] ∧ Unwanted result.2.reassembly result.2.parked) := by
  obtain ⟨complete, after⟩ := result
  obtain ⟨hkept, hlength, hend⟩ := h
  cases complete with
  | true => exact ⟨⟨hkept, fun hbusy => absurd hend hbusy, hlength⟩, fun hfalse => by cases hfalse⟩
  | false => exact ⟨⟨hkept, fun _ => hend.2, hlength⟩, fun _ => hend⟩

theorem Between.getNetworkMsg (hkeeps : KeptByTaking NOW property) {future : List Telegram}
    {reception : Reception} {delivered : List Reassembly}
    (h : Between property future reception delivered)
    (hroom : (reception.getNetworkMsg NOW).2.mostParked < CAN_MSG_BUFFER_SIZE) :
    Between property future (reception.getNetworkMsg NOW).2
        (if (reception.getNetworkMsg NOW).1 then
          delivered ++ [(reception.getNetworkMsg NOW).2.reassembly] else delivered) ∧
      ((reception.getNetworkMsg NOW).1 = false →
        (reception.getNetworkMsg NOW).2.incoming = [] ∧
          Unwanted (reception.getNetworkMsg NOW).2.reassembly
            (reception.getNetworkMsg NOW).2.parked) := by
  have hscanned := scan_length NOW reception.reassembly [] reception.parked
  have hlength := h.parked_le
  have hkept := h.kept
  rw [List.length_nil, Nat.zero_add] at hscanned
  unfold Reception.getNetworkMsg at hroom ⊢
  by_cases hidle : reception.reassembly.currentReceiveCANId = 0
  · rw [if_pos hidle] at hroom ⊢
    rw [List.append_assoc] at hkept
    have hscan := scan_keeps hkeeps (fun _ hmem => by cases hmem)
      (show property ([] ++ reception.parked ++ (reception.incoming ++ future)) _ _ from hkept)
    cases hresult : scan NOW reception.reassembly [] reception.parked with
    | mk complete found =>
    rw [hresult] at hscan hscanned hroom
    have hshorter : found.1.length ≤ reception.mostParked :=
      Nat.le_trans (Nat.le_of_add_right_le hscanned) hlength
    cases complete with
    | true =>
      refine ⟨⟨?_, fun hbusy => absurd hscan.2 hbusy, hshorter⟩, fun hfalse => by cases hfalse⟩
      rw [List.append_assoc]
      exact hscan.1
    | false =>
      have hwaiting := hscan.1
      rw [← List.append_assoc] at hwaiting
      exact between_of_received (receive_keeps hkeeps hscan.2 hshorter hroom hwaiting)
  · rw [if_neg hidle] at hroom ⊢
    exact between_of_received (receive_keeps hkeeps (h.busy hidle) hlength hroom hkept)

end Reception

namespace Session

variable {memory : LinkinterfaceCAN}

theorem Tracks.run_between {property : List Telegram → Reassembly → List Reassembly → Prop}
    (hkeeps : Reception.KeptByTaking NOW property) {session final : Session}
    {reception : Reception} {actions : List Action} {future : List Telegram}
    (h : session.Tracks NOW memory reception)
    (hbetween : reception.Between property (arrived actions ++ future) session.delivered)
    (hrun : Library.run (Session.step NOW) session actions = some final)
    (hroom : final.link.mostBuffered < CAN_MSG_BUFFER_SIZE) :
    ∃ after, final.Tracks NOW memory after ∧ after.Between property future final.delivered := by
  induction actions generalizing session reception with
  | nil =>
    cases hrun
    exact ⟨reception, h, hbetween⟩
  | cons action actions ih =>
    obtain ⟨next, hstep, hrest⟩ := exists_of_run_cons hrun
    cases action with
    | arrive telegram =>
      obtain ⟨_, harrive, hnext, hdelivered, _⟩ := h.arrive telegram
      rw [hstep] at harrive
      cases harrive
      refine ih hnext ⟨?_, hbetween.busy, hbetween.parked_le⟩ hrest
      rw [hdelivered]
      have hkept := hbetween.kept
      simp only [arrived, List.cons_append, List.append_assoc] at hkept ⊢
      exact hkept
    | getNetworkMsg =>
      obtain ⟨_, hcall, hnext, hdelivered, _⟩ := h.getNetworkMsg
      rw [hstep] at hcall
      cases hcall
      obtain ⟨after, hafter, hgrown⟩ := hnext.of_run hrest
      have hmost := hgrown.mostParked
      rw [← hafter.mostBuffered] at hmost
      have hcalled := hbetween.getNetworkMsg hkeeps (Nat.lt_of_le_of_lt hmost hroom)
      rw [← hdelivered] at hcalled
      exact ih hnext hcalled.1 hrest

/-- After some calls one returns false. -/
theorem Tracks.calls_end {session : Session} {reception : Reception}
    (h : session.Tracks NOW memory reception) :
    ∃ calls final, Library.run (Session.step NOW) session
        (List.replicate (calls + 1) .getNetworkMsg) = some final ∧
      final.returned = some false := by
  induction hsize : reception.parked.length + reception.incoming.length using
    Nat.strong_induction_on generalizing session reception with
  | _ size ih =>
    obtain ⟨next, hcall, hnext, _, hreturned⟩ := h.getNetworkMsg
    have hlength := reception.getNetworkMsg_length NOW
    cases hcomplete : (reception.getNetworkMsg NOW).1 with
    | false =>
      rw [hcomplete] at hreturned
      exact ⟨0, next, run_cons hcall rfl, hreturned⟩
    | true =>
      rw [hcomplete, Bool.toNat_true] at hlength
      obtain ⟨calls, final, hrest, hend⟩ := ih _ (by omega) hnext rfl
      exact ⟨calls + 1, final, run_cons hcall hrest, hend⟩

theorem Tracks.mostParked_le {session final : Session} {reception : Reception}
    {actions : List Action} {bound : Nat} (h : session.Tracks NOW memory reception)
    (hwaiting : reception.parked.length + reception.incoming.length + (arrived actions).length ≤
      bound)
    (hmost : reception.mostParked ≤ bound)
    (hrun : Library.run (Session.step NOW) session actions = some final) :
    final.link.mostBuffered ≤ bound := by
  induction actions generalizing session reception with
  | nil =>
    cases hrun
    rw [h.mostBuffered]
    exact hmost
  | cons action actions ih =>
    obtain ⟨next, hstep, hrest⟩ := exists_of_run_cons hrun
    cases action with
    | arrive telegram =>
      obtain ⟨_, harrive, hnext, _⟩ := h.arrive telegram
      rw [hstep] at harrive
      cases harrive
      refine ih hnext ?_ hmost hrest
      rw [arrived, List.length_cons] at hwaiting
      show reception.parked.length + (reception.incoming ++ [telegram]).length + _ ≤ bound
      rw [List.length_append, List.length_singleton]
      omega
    | getNetworkMsg =>
      obtain ⟨_, hcall, hnext, _⟩ := h.getNetworkMsg
      rw [hstep] at hcall
      cases hcall
      have hlength := reception.getNetworkMsg_length NOW
      have hparked := reception.getNetworkMsg_mostParked NOW
      have hsame : (arrived (.getNetworkMsg :: actions)).length = (arrived actions).length := rfl
      exact ih hnext (by omega) (by omega) hrest

/-- The buffer is never full when fewer telegrams than it can hold arrive at all. -/
theorem mostBuffered_le_arrived (NOW : Nat → Int64) (memory : LinkinterfaceCAN)
    (actions : List Action) :
    (after NOW memory actions).link.mostBuffered ≤ (arrived actions).length :=
  (tracks_start NOW memory).mostParked_le (by simp) (Nat.zero_le _) (run_after NOW memory actions)

/-- A call that returns false comes sooner or later. -/
theorem exists_drained (NOW : Nat → Int64) (memory : LinkinterfaceCAN) (actions : List Action) :
    ∃ calls, (after NOW memory
      (actions ++ List.replicate (calls + 1) .getNetworkMsg)).returned = some false := by
  obtain ⟨reception, htracks, _⟩ := (tracks_start NOW memory).of_run (run_after NOW memory actions)
  obtain ⟨calls, final, hcalls, hend⟩ := htracks.calls_end
  have hall := run_append (run_after NOW memory actions) hcalls
  rw [run_after] at hall
  cases hall
  exact ⟨calls, hend⟩

/-- What taking a telegram keeps holds when the queue is drained, of the parked telegrams alone, and
none of those is wanted. -/
theorem drained {property : List Telegram → Reassembly → List Reassembly → Prop}
    (hkeeps : Reception.KeptByTaking NOW property) {actions : List Action} {calls : Nat}
    (hstart : property (arrived actions) memory.construct.reassembly [])
    (hroom : ∀ calls, (after NOW memory
      (actions ++ List.replicate calls .getNetworkMsg)).link.mostBuffered < CAN_MSG_BUFFER_SIZE)
    (hreturned : (after NOW memory
      (actions ++ List.replicate (calls + 1) .getNetworkMsg)).returned = some false) :
    ∃ reception : Reception, (after NOW memory (actions ++ List.replicate (calls + 1)
        .getNetworkMsg)).link.reassembly = reception.reassembly ∧
      reception.Between property [] (after NOW memory
        (actions ++ List.replicate (calls + 1) .getNetworkMsg)).delivered ∧
      reception.incoming = [] ∧ Unwanted reception.reassembly reception.parked := by
  have hrun := run_after NOW memory (actions ++ List.replicate (calls + 1) .getNetworkMsg)
  have hroomAfter := hroom (calls + 1)
  rw [List.replicate_succ', ← List.append_assoc] at hrun hreturned hroomAfter ⊢
  obtain ⟨middle, hmiddle, hlast⟩ := exists_of_run_append hrun
  have hbefore := run_after NOW memory (actions ++ List.replicate calls .getNetworkMsg)
  rw [hmiddle] at hbefore
  have hroomBefore := hroom calls
  rw [← Option.some.inj hbefore] at hroomBefore
  have hempty : Reception.Between property
      (arrived (actions ++ List.replicate calls .getNetworkMsg) ++ [])
      ⟨[], [], memory.construct.reassembly, 0⟩ (start memory).delivered := by
    refine ⟨?_, fun hbusy => absurd rfl hbusy, Nat.le_refl 0⟩
    simp only [arrived_append, arrived_calls, List.append_nil, List.nil_append]
    exact hstart
  obtain ⟨reception, htracks, hbetween⟩ :=
    (tracks_start NOW memory).run_between hkeeps hempty hmiddle hroomBefore
  obtain ⟨next, hcall, hnext, hdelivered, hresult⟩ := htracks.getNetworkMsg
  rw [run_cons hcall rfl] at hlast
  rw [← Option.some.inj hlast] at hreturned hroomAfter ⊢
  rw [hnext.mostBuffered] at hroomAfter
  rw [hresult] at hreturned
  obtain ⟨hcalled, hend⟩ := hbetween.getNetworkMsg hkeeps hroomAfter
  rw [← hdelivered] at hcalled
  exact ⟨_, hnext.reassembly, hcalled, hend (Option.some.inj hreturned)⟩

end Session

end Rodos.Gateway
