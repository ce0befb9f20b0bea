import Rodos.Api.SyncFifoWakeup

/-! Without a timeout the calls of a synchronized fifo return when they have succeeded, unless a
thread is resumed for a value that has already been gotten, or for room that has been taken. -/
namespace Rodos.Api
open Library BareMetal

/-- A call on its way to success, provided that its comparison is still to find room. -/
def PutAt.Proceeds {Value : Type} (can : Prop) : PutAt Value → Prop
  | .called _ | .comparing _ _ => can
  | .rejecting => False
  | .addressing _ _ | .storing _ _ _ | .publishing _ _ => True
  | .returning ok => ok = true

/-- A call on its way to success, provided that its comparison is still to find a value. -/
def GetAt.Proceeds {Value : Type} (can : Prop) : GetAt Value → Prop
  | .called | .comparing _ => can
  | .rejecting => False
  | .addressing | .fetching _ | .advancing _ | .releasing _ _ => True
  | .returning val => val.isSome = true

/-- The value that is still to be made visible. -/
def PutAt.pending {Value : Type} : PutAt Value → List Value
  | .called val | .comparing val _ | .addressing val _ | .storing val _ _ | .publishing val _ =>
    [val]
  | .rejecting | .returning _ => []

theorem PutAt.Proceeds.mono {Value : Type} {can can' : Prop} {place : PutAt Value}
    (h : place.Proceeds can) (hcan : can → can') : place.Proceeds can' := by
  cases place with
  | called | comparing => exact hcan h
  | rejecting | addressing | storing | publishing | returning => exact h

theorem GetAt.Proceeds.mono {Value : Type} {can can' : Prop} {place : GetAt Value}
    (h : place.Proceeds can) (hcan : can → can') : place.Proceeds can' := by
  cases place with
  | called | comparing => exact hcan h
  | rejecting | addressing | fetching | advancing | releasing | returning => exact h

theorem PutAt.Proceeds.step {Value : Type} {len : Nat} {fifo : Fifo Value}
    {passed gotten : List Value} {place : PutAt Value}
    (h : place.Proceeds (passed.length + 1 < gotten.length + len))
    (hknows : place.Knows len fifo passed gotten) (hcarries : fifo.Carries len passed gotten) :
    (place.step len fifo).2.Proceeds
        ((passed ++ place.publishes).length + 1 < gotten.length + len) ∧
      place.publishes ++ (place.step len fifo).2.pending = place.pending := by
  cases place with
  | called val =>
    rw [publishes, List.append_nil]
    exact ⟨h, rfl⟩
  | comparing val index =>
    have hindex : index = (passed.length + 1) % len := hknows
    have hroom : passed.length + 1 < gotten.length + len := h
    have hfree : index ≠ fifo.readX := by
      rw [hindex, Ne, hcarries.full_iff]
      omega
    rw [PutAt.step, if_neg hfree]
    exact ⟨trivial, rfl⟩
  | rejecting => exact h.elim
  | addressing | storing => exact ⟨trivial, rfl⟩
  | publishing => exact ⟨rfl, rfl⟩
  | returning => exact ⟨h, rfl⟩

theorem GetAt.Proceeds.step {Value : Type} {len : Nat} {fifo : Fifo Value}
    {passed gotten : List Value} {place : GetAt Value}
    (h : place.Proceeds (gotten.length < passed.length))
    (hknows : place.Knows len passed gotten) (hcarries : fifo.Carries len passed gotten) :
    (place.step len fifo).2.Proceeds ((gotten ++ place.releases).length < passed.length) := by
  cases place with
  | called =>
    rw [releases, List.append_nil]
    exact h
  | comparing index =>
    have hindex : index = gotten.length % len := hknows
    have hsome : gotten.length < passed.length := h
    have hfound : index ≠ fifo.writeX := by
      rw [hindex, ← hcarries.readX_eq, Ne, hcarries.empty_iff]
      omega
    rw [GetAt.step, if_neg hfound]
    trivial
  | rejecting => exact h.elim
  | addressing | fetching | advancing => trivial
  | releasing => rfl
  | returning => exact h

namespace SyncAt

variable {Argument Call Value : Type}

/-- No timeout is given, and a wait is only ended when the thread can proceed. -/
def Proceeds (calls : Call → Prop) (suspendedUntil : Int) (can : Prop) :
    SyncAt Argument Call → Prop
  | .outside | .resuming => True
  | .attempting _ timeout => timeout = END_OF_TIME
  | .waiting _ timeout => timeout = END_OF_TIME ∧ (suspendedUntil = END_OF_TIME ∨ can)
  | .yielding _ timeout ok => timeout = END_OF_TIME ∧ (ok = true ∨ can)
  | .accessing call => calls call
  | .returning ok => ok = true

def isResuming : SyncAt Argument Call → Bool
  | .resuming => true
  | _ => false

def pending : SyncAt Value (PutAt Value) → List Value
  | .attempting val _ | .waiting val _ => [val]
  | .yielding val _ ok => if ok then [] else [val]
  | .accessing call => call.pending
  | .outside | .resuming | .returning _ => []

theorem Proceeds.mono {place : SyncAt Argument Call} {calls calls' : Call → Prop}
    {suspendedUntil suspendedUntil' : Int} {can can' : Prop}
    (h : place.Proceeds calls suspendedUntil can) (hcan : can → can')
    (hcalls : ∀ call, calls call → calls' call)
    (hsuspended : place.IsWaiting → suspendedUntil = END_OF_TIME →
      suspendedUntil' = END_OF_TIME ∨ can') : place.Proceeds calls' suspendedUntil' can' := by
  cases place with
  | outside | attempting | resuming | returning => exact h
  | waiting =>
    refine ⟨h.1, ?_⟩
    rcases h.2 with hasleep | hable
    · exact hsuspended trivial hasleep
    · exact Or.inr (hcan hable)
  | yielding => exact ⟨h.1, h.2.imp_right hcan⟩
  | accessing call => exact hcalls call h

end SyncAt

/-- Only `syncPut` and `syncGet` without a timeout, and no resume from elsewhere. -/
def SyncAction.BlocksByDefault {Value : Type} : SyncAction Value → Prop
  | .syncPut _ timeout | .syncGet timeout => timeout = END_OF_TIME
  | .putGeneric _ | .resume _ => False
  | .writer | .reader | .advance _ => True

namespace SyncSystem

variable {Value : Type}

/-- A thread that is still registered when it is resumed finds what it waits for. -/
def ResumesUsefully (len : Nat) (system : SyncSystem Value) : SyncAction Value → Prop
  | .writer => system.writer.isResuming = true →
    system.fifo.suspendedReader = none ∨ system.fifo.isEmpty = false
  | .reader => system.reader.isResuming = true →
    system.fifo.suspendedWriter = none ∨ system.fifo.isFull len = false
  | .syncPut _ _ | .putGeneric _ | .syncGet _ | .advance _ | .resume _ => True

abbrev CanPut (len : Nat) (system : SyncSystem Value) : Prop :=
  system.passed.length + 1 < system.gotten.length + len

abbrev CanGet (system : SyncSystem Value) : Prop := system.gotten.length < system.passed.length

abbrev suspendedUntil (system : SyncSystem Value) (thread : ThreadId) : Int :=
  (system.kernel.thread thread).suspendedUntil

/-- No call is on its way to fail. -/
structure Blocking (len : Nat) (system : SyncSystem Value) : Prop where
  invariant : system.Invariant len
  timeNow_le : system.kernel.timeNow ≤ END_OF_TIME
  writer_proceeds : system.writer.Proceeds (PutAt.Proceeds (system.CanPut len))
    (system.suspendedUntil system.writerThread) (system.CanPut len)
  reader_proceeds : system.reader.Proceeds (GetAt.Proceeds system.CanGet)
    (system.suspendedUntil system.readerThread) system.CanGet
  handed_eq : system.handed = system.passed ++ system.writer.pending
  returned_true : ∀ ok ∈ system.returned, ok = true

variable {len : Nat} {system next : SyncSystem Value}

theorem timeNow_resumePartner (kernel : Kernel) (partner : Option ThreadId) :
    (resumePartner kernel partner).timeNow = kernel.timeNow := by
  cases partner <;> rfl

theorem Initial.blocking (h : system.Initial) (hlen : 0 < len) : system.Blocking len := by
  constructor
  case invariant => exact h.invariant hlen
  case timeNow_le => exact h.timeNow_le
  case writer_proceeds =>
    rw [h.writer_eq]
    trivial
  case reader_proceeds =>
    rw [h.reader_eq]
    trivial
  case handed_eq =>
    rw [h.handed_eq, h.passed_eq, h.writer_eq]
    rfl
  case returned_true =>
    rw [h.returned_eq]
    intro ok hok
    cases hok

/-! ### What the other side may do to a side -/

theorem Blocking.reader_stays (h : system.Blocking len) {suspendedUntil' : Int} {can' : Prop}
    (hcan : system.CanGet → can')
    (hsuspended : system.reader.IsWaiting →
      suspendedUntil' = system.suspendedUntil system.readerThread ∨ can') :
    system.reader.Proceeds (GetAt.Proceeds can') suspendedUntil' can' :=
  h.reader_proceeds.mono hcan (fun _ hcall => hcall.mono hcan) fun hwaiting hasleep =>
    (hsuspended hwaiting).imp_left fun hsame => hsame.trans hasleep

theorem Blocking.writer_stays (h : system.Blocking len) {suspendedUntil' : Int} {can' : Prop}
    (hcan : system.CanPut len → can')
    (hsuspended : system.writer.IsWaiting →
      suspendedUntil' = system.suspendedUntil system.writerThread ∨ can') :
    system.writer.Proceeds (PutAt.Proceeds can') suspendedUntil' can' :=
  h.writer_proceeds.mono hcan (fun _ hcall => hcall.mono hcan) fun hwaiting hasleep =>
    (hsuspended hwaiting).imp_left fun hsame => hsame.trans hasleep

theorem CanGet.append (h : system.CanGet) (values : List Value) :
    system.gotten.length < (system.passed ++ values).length :=
  Nat.lt_of_lt_of_le h (List.prefix_append _ _).length_le

theorem CanPut.append (h : system.CanPut len) (values : List Value) :
    system.passed.length + 1 < (system.gotten ++ values).length + len :=
  Nat.lt_of_lt_of_le h (Nat.add_le_add_right (List.prefix_append _ _).length_le len)

/-! ### The steps of the writer -/

theorem Blocking.putSection (h : system.Blocking len) {val : Value} {timeout : Int}
    (hcurrent : system.kernel.currentThread = system.writerThread)
    (hwriter : system.writer = .attempting val timeout) :
    (system.putSection len val timeout).Blocking len := by
  have hinvariant := h.invariant.putSection hcurrent hwriter
  have htimeout := h.writer_proceeds
  rw [hwriter] at htimeout
  have hhanded := h.handed_eq
  rw [hwriter] at hhanded
  have hcases := h.invariant.carries.put_cases val
  revert hinvariant
  unfold SyncSystem.putSection
  generalize system.fifo.toFifo.put len val = result at hcases ⊢
  obtain ⟨ok, fifo⟩ := result
  intro hinvariant
  rcases hcases with ⟨hfull, hput⟩ | ⟨hroom, hok, hcarries⟩
  · cases hput
    have hdefault : timeout = END_OF_TIME := htimeout
    have hsuspends : timeout ≠ 0 := by
      rw [hdefault]
      decide
    dsimp only at hinvariant ⊢
    rw [if_neg Bool.false_ne_true, if_neg hsuspends] at hinvariant ⊢
    exact { h with
      invariant := hinvariant
      writer_proceeds := by
        refine ⟨htimeout, Or.inl ?_⟩
        dsimp only [suspendedUntil]
        rw [← hcurrent, Kernel.suspendedUntil_suspendCaller, reactivationTime, if_pos hdefault]
      reader_proceeds := h.reader_stays id fun _ => Or.inl
        (Kernel.suspendedUntil_suspendCaller_other _ _ (hcurrent ▸ h.invariant.threads_ne.symm))
      handed_eq := hhanded }
  · dsimp only at hok hcarries
    subst hok
    exact { h with
      invariant := hinvariant
      writer_proceeds := ⟨htimeout, Or.inl rfl⟩
      reader_proceeds := h.reader_stays (fun hcan => hcan.append [val]) fun _ => Or.inl rfl
      handed_eq := by
        rw [hhanded]
        exact (List.append_nil _).symm }

theorem Blocking.accessWriter (h : system.Blocking len) {call : PutAt Value}
    (hwriter : system.writer = .accessing call) (hinside : ∀ ok, call ≠ .returning ok) :
    ({ system with
        fifo := { system.fifo with toFifo := (call.step len system.fifo.toFifo).1 }
        writer := .accessing (call.step len system.fifo.toFifo).2
        passed := system.passed ++ call.publishes } : SyncSystem Value).Blocking len := by
  have hcall := h.writer_proceeds
  rw [hwriter] at hcall
  have hhanded := h.handed_eq
  rw [hwriter] at hhanded
  obtain ⟨hproceeds, hpending⟩ :=
    PutAt.Proceeds.step hcall (h.invariant.writer_knows call hwriter) h.invariant.carries
  exact { h with
    invariant := h.invariant.accessWriter hwriter hinside
    writer_proceeds := hproceeds
    reader_proceeds := h.reader_stays (fun hcan => hcan.append _) fun _ => Or.inl rfl
    handed_eq := by
      rw [hhanded]
      show _ ++ call.pending = (_ ++ _) ++ PutAt.pending _
      rw [List.append_assoc, hpending] }

theorem Blocking.resumeReader (h : system.Blocking len) (hwriter : system.writer = .resuming)
    (huseful : system.fifo.suspendedReader = none ∨ system.fifo.isEmpty = false) :
    ({ system with
        kernel := resumePartner system.kernel system.fifo.suspendedReader
        writer := .returning true } : SyncSystem Value).Blocking len := by
  have hhanded := h.handed_eq
  rw [hwriter] at hhanded
  exact { h with
    invariant := h.invariant.resumeReader hwriter
    timeNow_le := by
      rw [timeNow_resumePartner]
      exact h.timeNow_le
    writer_proceeds := rfl
    reader_proceeds := h.reader_stays id fun hwaiting => by
      right
      rw [h.invariant.reader_registered, SyncAt.registered_of_isWaiting hwaiting] at huseful
      have hsome := huseful.resolve_left (Option.some_ne_none _)
      have hle := h.invariant.carries.length_le
      refine Nat.lt_of_le_of_ne hle fun hequal => ?_
      rw [h.invariant.carries.isEmpty_iff.mpr hequal] at hsome
      cases hsome
    handed_eq := hhanded }

theorem Blocking.wakeWriter (h : system.Blocking len) {val : Value} {timeout : Int}
    (hready : system.kernel.IsReady system.writerThread)
    (hwriter : system.writer = .waiting val timeout) :
    ({ system with
        kernel := system.kernel.endWaiting
        fifo := { system.fifo with suspendedWriter := none }
        writer := .yielding val timeout false } : SyncSystem Value).Blocking len := by
  have hwaits := h.writer_proceeds
  rw [hwriter] at hwaits
  have hhanded := h.handed_eq
  rw [hwriter] at hhanded
  have hnow := h.timeNow_le
  have hawake : system.suspendedUntil system.writerThread < system.kernel.timeNow := hready
  exact { h with
    invariant := h.invariant.wakeWriter hwriter
    writer_proceeds := ⟨hwaits.1, Or.inr (hwaits.2.resolve_left (by omega))⟩
    reader_proceeds := h.reader_stays id fun _ => Or.inl (Kernel.suspendedUntil_endWaiting _ _)
    handed_eq := hhanded }

theorem Blocking.concludeWriter (h : system.Blocking len)
    (hinvariant : ({ system with writer := .concluding true } : SyncSystem Value).Invariant len)
    (hpending : system.writer.pending = []) :
    ({ system with writer := .concluding true } : SyncSystem Value).Blocking len :=
  { h with
    invariant := hinvariant
    writer_proceeds := trivial
    handed_eq := by
      rw [h.handed_eq, hpending]
      rfl }

theorem Blocking.writerStep (h : system.Blocking len)
    (hcurrent : system.kernel.currentThread = system.writerThread)
    (hready : system.kernel.IsReady system.writerThread)
    (huseful : system.ResumesUsefully len .writer)
    (hstep : system.writerStep len = some next) : next.Blocking len := by
  have hinvariant := h.invariant.writerStep hcurrent hstep
  have hproceeds := h.writer_proceeds
  have hhanded := h.handed_eq
  cases writerMove_of_step hstep with
  | attempt hwriter => exact h.putSection hcurrent hwriter
  | wake hwriter => exact h.wakeWriter hready hwriter
  | @again val timeout ok hwriter hagain =>
    rw [hwriter] at hproceeds hhanded
    obtain rfl : ok = false := Bool.eq_false_of_not_eq_true hagain.1
    exact { h with
      invariant := hinvariant
      writer_proceeds := hproceeds.2.resolve_left hagain.1
      handed_eq := hhanded }
  | @conclude val timeout ok hwriter hdone =>
    rw [hwriter] at hproceeds
    have hok : ok = true := by
      by_contra hnot
      exact hdone ⟨hnot, by rw [hproceeds.1]; decide⟩
    subst hok
    exact h.concludeWriter hinvariant (by rw [hwriter]; rfl)
  | @concludeCall ok hwriter =>
    rw [hwriter] at hproceeds
    have hok : ok = true := hproceeds
    subst hok
    exact h.concludeWriter hinvariant (by rw [hwriter]; rfl)
  | access hwriter hinside => exact h.accessWriter hwriter hinside
  | resume hwriter =>
    rw [ResumesUsefully, hwriter] at huseful
    exact h.resumeReader hwriter (huseful rfl)
  | @leave ok hwriter =>
    rw [hwriter] at hproceeds hhanded
    have hok : ok = true := hproceeds
    exact { h with
      invariant := hinvariant
      writer_proceeds := trivial
      handed_eq := hhanded
      returned_true := by
        intro before hbefore
        rcases List.mem_append.mp hbefore with hearlier | hlast
        · exact h.returned_true before hearlier
        · rw [List.mem_singleton.mp hlast, hok] }

/-! ### The steps of the reader -/

theorem Blocking.getSection (h : system.Blocking len) {timeout : Int}
    (hcurrent : system.kernel.currentThread = system.readerThread)
    (hreader : system.reader = .attempting () timeout) :
    (system.getSection len timeout).Blocking len := by
  have hinvariant := h.invariant.getSection hcurrent hreader
  have htimeout := h.reader_proceeds
  rw [hreader] at htimeout
  have hcases := h.invariant.carries.get_cases
  revert hinvariant
  unfold SyncSystem.getSection
  generalize system.fifo.toFifo.get len = result at hcases ⊢
  obtain ⟨got, fifo⟩ := result
  intro hinvariant
  rcases hcases with ⟨hempty, hget⟩ | ⟨hsome, val, hval, hgot, hcarries⟩
  · cases hget
    have hdefault : timeout = END_OF_TIME := htimeout
    have hsuspends : timeout ≠ 0 := by
      rw [hdefault]
      decide
    dsimp only at hinvariant ⊢
    rw [if_neg hsuspends] at hinvariant ⊢
    exact { h with
      invariant := hinvariant
      reader_proceeds := by
        refine ⟨htimeout, Or.inl ?_⟩
        dsimp only [suspendedUntil]
        rw [← hcurrent, Kernel.suspendedUntil_suspendCaller, reactivationTime, if_pos hdefault]
      writer_proceeds := h.writer_stays id fun _ => Or.inl
        (Kernel.suspendedUntil_suspendCaller_other _ _ (hcurrent ▸ h.invariant.threads_ne)) }
  · dsimp only at hgot hcarries
    subst hgot
    exact { h with
      invariant := hinvariant
      reader_proceeds := ⟨htimeout, Or.inl rfl⟩
      writer_proceeds := h.writer_stays (fun hcan => hcan.append [val]) fun _ => Or.inl rfl }

theorem Blocking.accessReader (h : system.Blocking len) {call : GetAt Value}
    (hreader : system.reader = .accessing call) (hinside : ∀ val, call ≠ .returning val) :
    ({ system with
        fifo := { system.fifo with toFifo := (call.step len system.fifo.toFifo).1 }
        reader := .accessing (call.step len system.fifo.toFifo).2
        gotten := system.gotten ++ call.releases } : SyncSystem Value).Blocking len := by
  have hcall := h.reader_proceeds
  rw [hreader] at hcall
  exact { h with
    invariant := h.invariant.accessReader hreader hinside
    reader_proceeds :=
      GetAt.Proceeds.step hcall (h.invariant.reader_knows call hreader) h.invariant.carries
    writer_proceeds := h.writer_stays (fun hcan => hcan.append _) fun _ => Or.inl rfl }

theorem Blocking.resumeWriter (h : system.Blocking len) (hreader : system.reader = .resuming)
    (huseful : system.fifo.suspendedWriter = none ∨ system.fifo.isFull len = false) :
    ({ system with
        kernel := resumePartner system.kernel system.fifo.suspendedWriter
        reader := .returning true } : SyncSystem Value).Blocking len :=
  { h with
    invariant := h.invariant.resumeWriter hreader
    timeNow_le := by
      rw [timeNow_resumePartner]
      exact h.timeNow_le
    reader_proceeds := rfl
    writer_proceeds := h.writer_stays id fun hwaiting => by
      right
      rw [h.invariant.writer_registered, SyncAt.registered_of_isWaiting hwaiting] at huseful
      have hfree := huseful.resolve_left (Option.some_ne_none _)
      have hroom := Nat.succ_le_of_lt h.invariant.carries.room
      refine Nat.lt_of_le_of_ne hroom fun hequal => ?_
      rw [h.invariant.carries.isFull_iff.mpr hequal] at hfree
      cases hfree }

theorem Blocking.wakeReader (h : system.Blocking len) {timeout : Int}
    (hready : system.kernel.IsReady system.readerThread)
    (hreader : system.reader = .waiting () timeout) :
    ({ system with
        kernel := system.kernel.endWaiting
        fifo := { system.fifo with suspendedReader := none }
        reader := .yielding () timeout false } : SyncSystem Value).Blocking len := by
  have hwaits := h.reader_proceeds
  rw [hreader] at hwaits
  have hnow := h.timeNow_le
  have hawake : system.suspendedUntil system.readerThread < system.kernel.timeNow := hready
  exact { h with
    invariant := h.invariant.wakeReader hreader
    reader_proceeds := ⟨hwaits.1, Or.inr (hwaits.2.resolve_left (by omega))⟩
    writer_proceeds := h.writer_stays id fun _ => Or.inl (Kernel.suspendedUntil_endWaiting _ _) }

theorem Blocking.readerStep (h : system.Blocking len)
    (hcurrent : system.kernel.currentThread = system.readerThread)
    (hready : system.kernel.IsReady system.readerThread)
    (huseful : system.ResumesUsefully len .reader)
    (hstep : system.readerStep len = some next) : next.Blocking len := by
  have hinvariant := h.invariant.readerStep hcurrent hstep
  have hproceeds := h.reader_proceeds
  cases readerMove_of_step hstep with
  | attempt hreader => exact h.getSection hcurrent hreader
  | wake hreader => exact h.wakeReader hready hreader
  | again hreader hagain =>
    rw [hreader] at hproceeds
    exact { h with
      invariant := hinvariant
      reader_proceeds := hproceeds.2.resolve_left hagain.1 }
  | @conclude timeout ok hreader hdone =>
    rw [hreader] at hproceeds
    have hok : ok = true := by
      by_contra hnot
      exact hdone ⟨hnot, by rw [hproceeds.1]; decide⟩
    subst hok
    exact { h with
      invariant := hinvariant
      reader_proceeds := trivial }
  | @concludeCall val hreader =>
    rw [hreader] at hproceeds
    have hok : val.isSome = true := hproceeds
    rw [hok] at hinvariant ⊢
    exact { h with
      invariant := hinvariant
      reader_proceeds := trivial }
  | access hreader hinside => exact h.accessReader hreader hinside
  | resume hreader =>
    rw [ResumesUsefully, hreader] at huseful
    exact h.resumeWriter hreader (huseful rfl)
  | @leave ok hreader =>
    rw [hreader] at hproceeds
    have hok : ok = true := hproceeds
    exact { h with
      invariant := hinvariant
      reader_proceeds := trivial
      returned_true := by
        intro before hbefore
        rcases List.mem_append.mp hbefore with hearlier | hlast
        · exact h.returned_true before hearlier
        · rw [List.mem_singleton.mp hlast, hok] }

/-! ### Every allowed step keeps the calls going -/

theorem Blocking.step (h : system.Blocking len) {action : SyncAction Value}
    (hdefault : action.BlocksByDefault) (huseful : system.ResumesUsefully len action)
    (hstep : system.step len action = some next) : next.Blocking len := by
  have hinvariant := h.invariant.step hstep
  cases action with
  | syncPut val timeout =>
    rw [SyncSystem.step] at hstep
    split at hstep
    · next hwriter =>
      cases hstep
      have hhanded := h.handed_eq
      rw [hwriter] at hhanded
      exact { h with
        invariant := hinvariant
        writer_proceeds := hdefault
        handed_eq := by
          rw [hhanded]
          show (_ ++ []) ++ _ = _ ++ _
          rw [List.append_nil]
          rfl }
    · cases hstep
  | putGeneric val => exact hdefault.elim
  | syncGet timeout =>
    rw [SyncSystem.step] at hstep
    split at hstep
    · cases hstep
      exact { h with
        invariant := hinvariant
        reader_proceeds := hdefault }
    · cases hstep
  | writer =>
    obtain ⟨running, hdispatch, hnext⟩ := Option.bind_eq_some_iff.mp hstep
    obtain ⟨hready, rfl⟩ := dispatch_eq hdispatch
    have hrunning : ({ system with
        kernel := system.kernel.activate system.writerThread } : SyncSystem Value).Blocking len :=
      { h with invariant := { h.invariant with } }
    exact hrunning.writerStep rfl hready huseful hnext
  | reader =>
    obtain ⟨running, hdispatch, hnext⟩ := Option.bind_eq_some_iff.mp hstep
    obtain ⟨hready, rfl⟩ := dispatch_eq hdispatch
    have hrunning : ({ system with
        kernel := system.kernel.activate system.readerThread } : SyncSystem Value).Blocking len :=
      { h with invariant := { h.invariant with } }
    exact hrunning.readerStep rfl hready huseful hnext
  | advance duration =>
    rw [SyncSystem.step] at hstep
    split at hstep
    · next hlimit =>
      cases hstep
      exact { h with
        invariant := hinvariant
        timeNow_le := hlimit }
    · cases hstep
  | resume thread => exact hdefault.elim

/-- Unless a section resumes a thread that cannot proceed, every call succeeds, and the reader
gets the values in the order in which the writer hands them over. -/
theorem blocks_until_possible (hlen : 2 ≤ len) (hinitial : system.Initial)
    {actions : List (SyncAction Value)}
    (hallowed : Along (SyncSystem.step len)
      (fun system action => action.BlocksByDefault ∧ system.ResumesUsefully len action)
      system actions)
    {final : SyncSystem Value} (hrun : run (SyncSystem.step len) system actions = some final) :
    (∀ ok ∈ final.returned, ok = true) ∧ final.gotten <+: final.handed := by
  have hblocking : final.Blocking len :=
    run_invariant_along
      (fun _ _ _ hnow hcondition hstep => hnow.step hcondition.1 hcondition.2 hstep)
      (hinitial.blocking (show 0 < len by omega)) hallowed hrun
  refine ⟨hblocking.returned_true, ?_⟩
  rw [hblocking.handed_eq]
  exact hblocking.invariant.carries.gotten_prefix.trans (List.prefix_append _ _)

instance (action : SyncAction Value) : Decidable action.BlocksByDefault :=
  match action with
  | .syncPut _ _ | .syncGet _ => inferInstanceAs (Decidable (_ = _))
  | .putGeneric _ | .resume _ => inferInstanceAs (Decidable False)
  | .writer | .reader | .advance _ => inferInstanceAs (Decidable True)

instance (len : Nat) (system : SyncSystem Value) (action : SyncAction Value) :
    Decidable (system.ResumesUsefully len action) :=
  match action with
  | .writer | .reader => inferInstanceAs (Decidable (_ = true → _ ∨ _))
  | .syncPut _ _ | .putGeneric _ | .syncGet _ | .advance _ | .resume _ =>
    inferInstanceAs (Decidable True)

/-- The reader suspends itself before the value comes. -/
def suspendedBefore : List (SyncAction Nat) :=
  List.flatten [[.syncGet END_OF_TIME, .reader],
    .syncPut 7 END_OF_TIME :: List.replicate 4 .writer, List.replicate 11 .reader]

theorem blocks_until_possible_suspendedBefore :
    ∃ final, run (SyncSystem.step 2) twoThreads suspendedBefore = some final ∧
      (∀ ok ∈ final.returned, ok = true) ∧ final.gotten <+: final.handed := by
  have hpossible : (run (SyncSystem.step 2) twoThreads suspendedBefore).isSome := by decide
  obtain ⟨final, hrun⟩ := Option.isSome_iff_exists.mp hpossible
  exact ⟨final, hrun, blocks_until_possible (by decide) twoThreads_initial (by decide) hrun⟩

/-- The reader gets the value and comes back for the next one before the writer, still in the call
that put the value, resumes it. -/
def resumedTooLate : List (SyncAction Nat) :=
  List.flatten [[.syncPut 7 END_OF_TIME, .writer],
    .syncGet END_OF_TIME :: List.replicate 4 .reader,
    [.syncGet END_OF_TIME, .reader, .writer, .writer], List.replicate 7 .reader]

/-- The resume for the first wait reaches the second one, which fails although it has no timeout. -/
theorem fails_when_resumedTooLate :
    (∀ action ∈ resumedTooLate, action.BlocksByDefault) ∧
      ∃ final, run (SyncSystem.step 2) twoThreads resumedTooLate = some final ∧
        ¬ ∀ ok ∈ final.returned, ok = true := by
  have hfails : (run (SyncSystem.step 2) twoThreads resumedTooLate).map
      SyncSystem.returned = some [true, false] := by decide
  obtain ⟨final, hrun, hreturned⟩ := Option.map_eq_some_iff.mp hfails
  refine ⟨by decide, final, hrun, fun hall => ?_⟩
  rw [hreturned] at hall
  exact absurd (hall false (by decide)) Bool.false_ne_true

end SyncSystem

end Rodos.Api
