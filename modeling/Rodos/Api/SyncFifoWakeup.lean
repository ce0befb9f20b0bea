import Rodos.Api.SyncFifo

/-! No wakeup of a synchronized fifo is lost: a thread that sleeps although it could proceed is
about to be resumed. -/
namespace Rodos.Api
open Library BareMetal

/-- Suspended and not resumed since, whether its time is still to come or not. -/
def IsSuspended (kernel : Kernel) (thread : ThreadId) : Prop :=
  (kernel.thread thread).suspendedUntil ≠ 0

theorem isSuspended_endWaiting {kernel : Kernel} {thread : ThreadId} :
    IsSuspended kernel.endWaiting thread ↔ IsSuspended kernel thread := by
  rw [IsSuspended, IsSuspended, Kernel.suspendedUntil_endWaiting]

theorem isSuspended_suspendCaller {kernel : Kernel} {thread : ThreadId} (time : Int)
    (hother : thread ≠ kernel.currentThread) :
    IsSuspended (kernel.suspendCaller time none) thread ↔ IsSuspended kernel thread := by
  rw [IsSuspended, IsSuspended, Kernel.suspendedUntil_suspendCaller_other time none hother]

theorem IsSuspended.of_resume {kernel : Kernel} {thread resumed : ThreadId}
    (h : IsSuspended (kernel.resume resumed) thread) : IsSuspended kernel thread := by
  unfold IsSuspended Kernel.resume at h
  rw [Kernel.thread_modify] at h
  split at h
  · exact absurd rfl h
  · exact h

theorem not_isSuspended_resumePartner (kernel : Kernel) (thread : ThreadId) :
    ¬ IsSuspended (SyncSystem.resumePartner kernel (some thread)) thread := by
  unfold IsSuspended SyncSystem.resumePartner Kernel.resume
  simp

namespace SyncAt

variable {Argument Call Value : Type}

/-- What the thread leaves in the fifo while it waits. -/
def registered (thread : ThreadId) : SyncAt Argument Call → Option ThreadId
  | .waiting _ _ => some thread
  | _ => none

/-- Between a put that succeeded and the section that resumes the reader. -/
def HasPut : SyncAt Argument (PutAt Value) → Prop
  | .yielding _ _ ok | .accessing (.returning ok) => ok = true
  | .resuming => True
  | _ => False

/-- Between a get that succeeded and the section that resumes the writer. -/
def HasGot : SyncAt Argument (GetAt Value) → Prop
  | .yielding _ _ ok => ok = true
  | .accessing (.returning val) => val.isSome = true
  | .resuming => True
  | _ => False

@[simp] theorem hasPut_concluding (ok : Bool) :
    (concluding ok : SyncAt Argument (PutAt Value)).HasPut ↔ ok = true := by
  cases ok
  · exact iff_of_false id Bool.false_ne_true
  · exact iff_of_true trivial rfl

@[simp] theorem hasGot_concluding (ok : Bool) :
    (concluding ok : SyncAt Argument (GetAt Value)).HasGot ↔ ok = true := by
  cases ok
  · exact iff_of_false id Bool.false_ne_true
  · exact iff_of_true trivial rfl

theorem registered_of_isWaiting {place : SyncAt Argument Call} (h : place.IsWaiting)
    (thread : ThreadId) : place.registered thread = some thread := by
  cases place with
  | waiting => rfl
  | outside | attempting | yielding | accessing | resuming | returning => cases h

@[simp] theorem registered_concluding (ok : Bool) (thread : ThreadId) :
    (concluding ok : SyncAt Argument Call).registered thread = none := by
  cases ok <;> rfl

@[simp] theorem not_isWaiting_concluding (ok : Bool) :
    ¬ (concluding ok : SyncAt Argument Call).IsWaiting := by
  cases ok <;> exact id

@[simp] theorem concluding_ne_accessing (ok : Bool) (call : Call) :
    (concluding ok : SyncAt Argument Call) ≠ .accessing call := by
  cases ok <;> exact fun heq => by cases heq

end SyncAt

namespace SyncSystem

variable {Value : Type}

/-- Each side is registered while it waits, and a wait outlasts the reason for it only until
the section that ends it. -/
structure Invariant (len : Nat) (system : SyncSystem Value) : Prop where
  threads_ne : system.writerThread ≠ system.readerThread
  carries : system.fifo.toFifo.Carries len system.passed system.gotten
  writer_knows : ∀ place, system.writer = .accessing place →
    place.Knows len system.fifo.toFifo system.passed system.gotten
  reader_knows : ∀ place, system.reader = .accessing place →
    place.Knows len system.passed system.gotten
  writer_registered : system.fifo.suspendedWriter = system.writer.registered system.writerThread
  reader_registered : system.fifo.suspendedReader = system.reader.registered system.readerThread
  reader_noticed : system.reader.IsWaiting → IsSuspended system.kernel system.readerThread →
    system.gotten.length = system.passed.length ∨ system.writer.HasPut
  writer_noticed : system.writer.IsWaiting → IsSuspended system.kernel system.writerThread →
    system.passed.length + 1 = system.gotten.length + len ∨ system.reader.HasGot

variable {len : Nat} {system next : SyncSystem Value}

theorem Initial.invariant (h : system.Initial) (hlen : 0 < len) : system.Invariant len := by
  obtain ⟨buffer, hfifo⟩ := h.fifo_eq
  constructor
  case threads_ne => exact h.threads_ne
  case carries =>
    rw [hfifo, h.passed_eq, h.gotten_eq]
    exact Fifo.carries_initial hlen buffer
  case writer_registered =>
    rw [hfifo, h.writer_eq]
    rfl
  case reader_registered =>
    rw [hfifo, h.reader_eq]
    rfl
  case writer_knows =>
    rw [h.writer_eq]
    intro place hplace
    cases hplace
  case reader_knows =>
    rw [h.reader_eq]
    intro place hplace
    cases hplace
  case reader_noticed =>
    rw [h.reader_eq]
    exact False.elim
  case writer_noticed =>
    rw [h.writer_eq]
    exact False.elim

/-- A writer that has not just put a value leaves a sleeping reader only an empty fifo. -/
theorem Invariant.empty (h : system.Invariant len) (hput : ¬ system.writer.HasPut)
    (hwaiting : system.reader.IsWaiting)
    (hsuspended : IsSuspended system.kernel system.readerThread) :
    system.gotten.length = system.passed.length :=
  (h.reader_noticed hwaiting hsuspended).resolve_right hput

/-- A reader that has not just gotten a value leaves a sleeping writer only a full fifo. -/
theorem Invariant.full (h : system.Invariant len) (hgot : ¬ system.reader.HasGot)
    (hwaiting : system.writer.IsWaiting)
    (hsuspended : IsSuspended system.kernel system.writerThread) :
    system.passed.length + 1 = system.gotten.length + len :=
  (h.writer_noticed hwaiting hsuspended).resolve_right hgot

/-! ### The steps of the writer -/

theorem Invariant.putSection (h : system.Invariant len) {val : Value} {timeout : Int}
    (hcurrent : system.kernel.currentThread = system.writerThread)
    (hwriter : system.writer = .attempting val timeout) :
    (system.putSection len val timeout).Invariant len := by
  have hidle : ¬ system.writer.HasPut := by
    rw [hwriter]
    exact id
  have hregistered := h.writer_registered
  rw [hwriter] at hregistered
  have hcases := h.carries.put_cases val
  unfold SyncSystem.putSection
  generalize system.fifo.toFifo.put len val = result at hcases ⊢
  obtain ⟨ok, fifo⟩ := result
  rcases hcases with ⟨hfull, hput⟩ | ⟨hroom, hok, hcarries⟩
  · cases hput
    have hcarries : Fifo.Carries len { system.fifo.toFifo with
        putErrors := system.fifo.putErrors + 1 } system.passed system.gotten :=
      h.carries.of_eq rfl rfl rfl
    dsimp only
    rw [if_neg Bool.false_ne_true]
    split
    · exact { h with
        carries := hcarries
        writer_knows := fun place hplace => by cases hplace
        writer_registered := rfl
        reader_noticed := fun hwaiting hsuspended => Or.inl (h.empty hidle hwaiting hsuspended)
        writer_noticed := False.elim }
    · exact { h with
        carries := hcarries
        writer_knows := fun place hplace => by cases hplace
        writer_registered := congrArg some hcurrent
        reader_noticed := fun hwaiting hsuspended => by
          rw [isSuspended_suspendCaller _ (hcurrent ▸ h.threads_ne.symm)] at hsuspended
          exact Or.inl (h.empty hidle hwaiting hsuspended)
        writer_noticed := fun _ _ => Or.inl hfull }
  · dsimp only at hok hcarries
    subst hok
    exact { h with
      carries := hcarries
      writer_knows := fun place hplace => by cases hplace
      reader_knows := fun place hplace =>
        (h.reader_knows place hplace).stable (List.prefix_append _ _)
      writer_registered := hregistered
      reader_noticed := fun _ _ => Or.inr rfl
      writer_noticed := False.elim }

/-- A step of the writer that only moves it on, not into a wait. -/
theorem Invariant.moveWriter (h : system.Invariant len) {place : SyncAt Value (PutAt Value)}
    (hwriter : system.writer.registered system.writerThread = none)
    (hplace : ¬ place.IsWaiting) (hregistered : place.registered system.writerThread = none)
    (hknows : ∀ call, place = .accessing call →
      call.Knows len system.fifo.toFifo system.passed system.gotten)
    (hput : system.writer.HasPut → place.HasPut) :
    ({ system with writer := place } : SyncSystem Value).Invariant len :=
  { h with
    writer_knows := hknows
    writer_registered := by
      rw [h.writer_registered, hwriter]
      exact hregistered.symm
    reader_noticed := fun hwaiting hsuspended =>
      (h.reader_noticed hwaiting hsuspended).imp_right hput
    writer_noticed := fun hwaiting => absurd hwaiting hplace }

theorem Invariant.concludeWriter (h : system.Invariant len)
    (hwriter : system.writer.registered system.writerThread = none) {ok : Bool}
    (hput : system.writer.HasPut → ok = true) :
    ({ system with writer := .concluding ok } : SyncSystem Value).Invariant len :=
  h.moveWriter hwriter (SyncAt.not_isWaiting_concluding ok) (SyncAt.registered_concluding ok _)
    (fun call hcall => absurd hcall (SyncAt.concluding_ne_accessing ok call))
    fun hbefore => (SyncAt.hasPut_concluding ok).mpr (hput hbefore)

/-- The second attempt, or the call of `put` in `putGeneric`. -/
theorem Invariant.callPut (h : system.Invariant len) (val : Value)
    (hwriter : system.writer.registered system.writerThread = none)
    (hput : ¬ system.writer.HasPut) :
    ({ system with writer := .accessing (.called val) } : SyncSystem Value).Invariant len :=
  h.moveWriter hwriter id rfl (fun call hcall => by cases hcall; trivial)
    fun hbefore => absurd hbefore hput

theorem Invariant.accessWriter (h : system.Invariant len) {call : PutAt Value}
    (hwriter : system.writer = .accessing call) (hinside : ∀ ok, call ≠ .returning ok) :
    ({ system with
        fifo := { system.fifo with toFifo := (call.step len system.fifo.toFifo).1 }
        writer := .accessing (call.step len system.fifo.toFifo).2
        passed := system.passed ++ call.publishes } : SyncSystem Value).Invariant len := by
  obtain ⟨hcarries, hknows⟩ := (h.writer_knows call hwriter).step h.carries
  have hregistered := h.writer_registered
  rw [hwriter] at hregistered
  have hidle : ¬ system.writer.HasPut := by
    rw [hwriter]
    cases call with
    | returning ok => exact absurd rfl (hinside ok)
    | called | comparing | rejecting | addressing | storing | publishing => exact id
  exact { h with
    carries := hcarries
    writer_knows := fun later hlater => by
      cases hlater
      exact hknows
    reader_knows := fun later hlater =>
      (h.reader_knows later hlater).stable (List.prefix_append _ _)
    writer_registered := hregistered
    reader_noticed := fun hwaiting hsuspended => by
      have hempty := h.empty hidle hwaiting hsuspended
      cases call with
      | publishing val index => exact Or.inr rfl
      | returning ok => exact absurd rfl (hinside ok)
      | called | comparing | rejecting | addressing | storing =>
        rw [PutAt.publishes, List.append_nil]
        exact Or.inl hempty
    writer_noticed := False.elim }

theorem Invariant.resumeReader (h : system.Invariant len) (hwriter : system.writer = .resuming) :
    ({ system with
        kernel := resumePartner system.kernel system.fifo.suspendedReader
        writer := .returning true } : SyncSystem Value).Invariant len := by
  have hregistered := h.writer_registered
  rw [hwriter] at hregistered
  exact { h with
    writer_knows := fun place hplace => by cases hplace
    writer_registered := hregistered
    reader_noticed := fun hwaiting hsuspended => by
      dsimp only at hsuspended
      rw [h.reader_registered, SyncAt.registered_of_isWaiting hwaiting] at hsuspended
      exact absurd hsuspended (not_isSuspended_resumePartner _ _)
    writer_noticed := False.elim }

theorem Invariant.wakeWriter (h : system.Invariant len) {val : Value} {timeout : Int}
    (hwriter : system.writer = .waiting val timeout) :
    ({ system with
        kernel := system.kernel.endWaiting
        fifo := { system.fifo with suspendedWriter := none }
        writer := .yielding val timeout false } : SyncSystem Value).Invariant len := by
  have hidle : ¬ system.writer.HasPut := by
    rw [hwriter]
    exact id
  exact { h with
    writer_knows := fun place hplace => by cases hplace
    writer_registered := rfl
    reader_noticed := fun hwaiting hsuspended =>
      Or.inl (h.empty hidle hwaiting (isSuspended_endWaiting.mp hsuspended))
    writer_noticed := False.elim }

/-- What one step of the writer can be. -/
inductive WriterMove (len : Nat) (system : SyncSystem Value) : SyncSystem Value → Prop
  | attempt {val : Value} {timeout : Int} (hwriter : system.writer = .attempting val timeout) :
      WriterMove len system (system.putSection len val timeout)
  | wake {val : Value} {timeout : Int} (hwriter : system.writer = .waiting val timeout) :
      WriterMove len system { system with
        kernel := system.kernel.endWaiting
        fifo := { system.fifo with suspendedWriter := none }
        writer := .yielding val timeout false }
  | again {val : Value} {timeout : Int} {ok : Bool}
      (hwriter : system.writer = .yielding val timeout ok) (hagain : ¬ ok ∧ timeout > 0) :
      WriterMove len system { system with writer := .accessing (.called val) }
  | conclude {val : Value} {timeout : Int} {ok : Bool}
      (hwriter : system.writer = .yielding val timeout ok) (hdone : ¬ (¬ ok ∧ timeout > 0)) :
      WriterMove len system { system with writer := SyncAt.concluding ok }
  | concludeCall {ok : Bool} (hwriter : system.writer = .accessing (.returning ok)) :
      WriterMove len system { system with writer := SyncAt.concluding ok }
  | access {call : PutAt Value} (hwriter : system.writer = .accessing call)
      (hinside : ∀ ok, call ≠ .returning ok) :
      WriterMove len system { system with
        fifo := { system.fifo with toFifo := (call.step len system.fifo.toFifo).1 }
        writer := .accessing (call.step len system.fifo.toFifo).2
        passed := system.passed ++ call.publishes }
  | resume (hwriter : system.writer = .resuming) :
      WriterMove len system { system with
        kernel := resumePartner system.kernel system.fifo.suspendedReader
        writer := .returning true }
  | leave {ok : Bool} (hwriter : system.writer = .returning ok) :
      WriterMove len system
        { system with writer := .outside, returned := system.returned ++ [ok] }

theorem writerMove_of_step (hstep : system.writerStep len = some next) :
    WriterMove len system next := by
  unfold writerStep at hstep
  cases hwriter : system.writer with
  | outside =>
    rw [hwriter] at hstep
    cases hstep
  | attempting val timeout =>
    rw [hwriter] at hstep
    cases hstep
    exact .attempt hwriter
  | waiting val timeout =>
    rw [hwriter] at hstep
    cases hstep
    exact .wake hwriter
  | yielding val timeout ok =>
    rw [hwriter] at hstep
    cases hstep
    split
    · next hagain => exact .again hwriter hagain
    · next hdone => exact .conclude hwriter hdone
  | accessing call =>
    by_cases hreturning : ∃ ok, call = .returning ok
    · obtain ⟨ok, rfl⟩ := hreturning
      rw [hwriter] at hstep
      cases hstep
      exact .concludeCall hwriter
    · have hinside : ∀ ok, call ≠ .returning ok := fun ok heq => hreturning ⟨ok, heq⟩
      simp only [hwriter] at hstep
      cases hstep
      exact .access hwriter hinside
  | resuming =>
    rw [hwriter] at hstep
    cases hstep
    exact .resume hwriter
  | returning ok =>
    rw [hwriter] at hstep
    cases hstep
    exact .leave hwriter

theorem Invariant.writerStep (h : system.Invariant len)
    (hcurrent : system.kernel.currentThread = system.writerThread)
    (hstep : system.writerStep len = some next) : next.Invariant len := by
  cases writerMove_of_step hstep with
  | attempt hwriter => exact h.putSection hcurrent hwriter
  | wake hwriter => exact h.wakeWriter hwriter
  | again hwriter hagain =>
    apply h.callPut _ (by rw [hwriter]; rfl)
    rw [hwriter]
    exact hagain.1
  | conclude hwriter =>
    apply h.concludeWriter (by rw [hwriter]; rfl)
    rw [hwriter]
    exact id
  | concludeCall hwriter =>
    apply h.concludeWriter (by rw [hwriter]; rfl)
    rw [hwriter]
    exact id
  | access hwriter hinside => exact h.accessWriter hwriter hinside
  | resume hwriter => exact h.resumeReader hwriter
  | leave hwriter =>
    have hmoved : ({ system with writer := .outside } : SyncSystem Value).Invariant len :=
      h.moveWriter (by rw [hwriter]; rfl) id rfl (fun _ hcall => by cases hcall)
        (by rw [hwriter]; exact id)
    exact { hmoved with }

/-! ### The steps of the reader -/

theorem Invariant.getSection (h : system.Invariant len) {timeout : Int}
    (hcurrent : system.kernel.currentThread = system.readerThread)
    (hreader : system.reader = .attempting () timeout) :
    (system.getSection len timeout).Invariant len := by
  have hidle : ¬ system.reader.HasGot := by
    rw [hreader]
    exact id
  have hregistered := h.reader_registered
  rw [hreader] at hregistered
  have hcases := h.carries.get_cases
  unfold SyncSystem.getSection
  generalize hresult : system.fifo.toFifo.get len = result at hcases ⊢
  obtain ⟨got, fifo⟩ := result
  rcases hcases with ⟨hempty, hget⟩ | ⟨hsome, val, hval, hgot, hcarries⟩
  · cases hget
    have hcarries : Fifo.Carries len { system.fifo.toFifo with
        getErrors := system.fifo.getErrors + 1 } system.passed system.gotten :=
      h.carries.of_eq rfl rfl rfl
    dsimp only
    split
    · exact { h with
        carries := hcarries
        writer_knows := fun place hplace =>
          (h.writer_knows place hplace).stable rfl (Nat.le_refl _)
        reader_knows := fun place hplace => by cases hplace
        reader_registered := rfl
        writer_noticed := fun hwaiting hsuspended => Or.inl (h.full hidle hwaiting hsuspended)
        reader_noticed := False.elim }
    · exact { h with
        carries := hcarries
        writer_knows := fun place hplace =>
          (h.writer_knows place hplace).stable rfl (Nat.le_refl _)
        reader_knows := fun place hplace => by cases hplace
        reader_registered := congrArg some hcurrent
        writer_noticed := fun hwaiting hsuspended => by
          rw [isSuspended_suspendCaller _ (hcurrent ▸ h.threads_ne)] at hsuspended
          exact Or.inl (h.full hidle hwaiting hsuspended)
        reader_noticed := fun _ _ => Or.inl hempty }
  · dsimp only at hgot hcarries
    subst hgot
    have hbuffer : fifo.buffer = system.fifo.buffer := by
      have hcall := congrArg (fun call => call.2.buffer) hresult
      rw [← hcall]
      exact (Fifo.get_buffer len system.fifo.toFifo)
    exact { h with
      carries := hcarries
      writer_knows := fun place hplace =>
        (h.writer_knows place hplace).stable hbuffer (List.prefix_append _ _).length_le
      reader_knows := fun place hplace => by cases hplace
      reader_registered := hregistered
      writer_noticed := fun _ _ => Or.inr rfl
      reader_noticed := False.elim }

/-- A step of the reader that only moves it on, not into a wait. -/
theorem Invariant.moveReader (h : system.Invariant len) {place : SyncAt Unit (GetAt Value)}
    (hreader : system.reader.registered system.readerThread = none)
    (hplace : ¬ place.IsWaiting) (hregistered : place.registered system.readerThread = none)
    (hknows : ∀ call, place = .accessing call →
      call.Knows len system.passed system.gotten)
    (hgot : system.reader.HasGot → place.HasGot) :
    ({ system with reader := place } : SyncSystem Value).Invariant len :=
  { h with
    reader_knows := hknows
    reader_registered := by
      rw [h.reader_registered, hreader]
      exact hregistered.symm
    writer_noticed := fun hwaiting hsuspended =>
      (h.writer_noticed hwaiting hsuspended).imp_right hgot
    reader_noticed := fun hwaiting => absurd hwaiting hplace }

theorem Invariant.concludeReader (h : system.Invariant len)
    (hreader : system.reader.registered system.readerThread = none) {ok : Bool}
    (hgot : system.reader.HasGot → ok = true) :
    ({ system with reader := .concluding ok } : SyncSystem Value).Invariant len :=
  h.moveReader hreader (SyncAt.not_isWaiting_concluding ok) (SyncAt.registered_concluding ok _)
    (fun call hcall => absurd hcall (SyncAt.concluding_ne_accessing ok call))
    fun hbefore => (SyncAt.hasGot_concluding ok).mpr (hgot hbefore)

/-- The second attempt. -/
theorem Invariant.callGet (h : system.Invariant len)
    (hreader : system.reader.registered system.readerThread = none)
    (hgot : ¬ system.reader.HasGot) :
    ({ system with reader := .accessing .called } : SyncSystem Value).Invariant len :=
  h.moveReader hreader id rfl (fun call hcall => by cases hcall; trivial)
    fun hbefore => absurd hbefore hgot

theorem Invariant.accessReader (h : system.Invariant len) {call : GetAt Value}
    (hreader : system.reader = .accessing call) (hinside : ∀ val, call ≠ .returning val) :
    ({ system with
        fifo := { system.fifo with toFifo := (call.step len system.fifo.toFifo).1 }
        reader := .accessing (call.step len system.fifo.toFifo).2
        gotten := system.gotten ++ call.releases } : SyncSystem Value).Invariant len := by
  obtain ⟨hcarries, hknows⟩ := (h.reader_knows call hreader).step h.carries
  have hregistered := h.reader_registered
  rw [hreader] at hregistered
  have hidle : ¬ system.reader.HasGot := by
    rw [hreader]
    cases call with
    | returning val => exact absurd rfl (hinside val)
    | called | comparing | rejecting | addressing | fetching | advancing | releasing => exact id
  exact { h with
    carries := hcarries
    writer_knows := fun later hlater =>
      (h.writer_knows later hlater).stable GetAt.step_buffer (List.prefix_append _ _).length_le
    reader_knows := fun later hlater => by
      cases hlater
      exact hknows
    reader_registered := hregistered
    writer_noticed := fun hwaiting hsuspended => by
      have hfull := h.full hidle hwaiting hsuspended
      cases call with
      | releasing val index => exact Or.inr rfl
      | returning val => exact absurd rfl (hinside val)
      | called | comparing | rejecting | addressing | fetching | advancing =>
        rw [GetAt.releases, List.append_nil]
        exact Or.inl hfull
    reader_noticed := False.elim }

theorem Invariant.resumeWriter (h : system.Invariant len) (hreader : system.reader = .resuming) :
    ({ system with
        kernel := resumePartner system.kernel system.fifo.suspendedWriter
        reader := .returning true } : SyncSystem Value).Invariant len := by
  have hregistered := h.reader_registered
  rw [hreader] at hregistered
  exact { h with
    reader_knows := fun place hplace => by cases hplace
    reader_registered := hregistered
    writer_noticed := fun hwaiting hsuspended => by
      dsimp only at hsuspended
      rw [h.writer_registered, SyncAt.registered_of_isWaiting hwaiting] at hsuspended
      exact absurd hsuspended (not_isSuspended_resumePartner _ _)
    reader_noticed := False.elim }

theorem Invariant.wakeReader (h : system.Invariant len) {timeout : Int}
    (hreader : system.reader = .waiting () timeout) :
    ({ system with
        kernel := system.kernel.endWaiting
        fifo := { system.fifo with suspendedReader := none }
        reader := .yielding () timeout false } : SyncSystem Value).Invariant len := by
  have hidle : ¬ system.reader.HasGot := by
    rw [hreader]
    exact id
  exact { h with
    reader_knows := fun place hplace => by cases hplace
    reader_registered := rfl
    writer_noticed := fun hwaiting hsuspended =>
      Or.inl (h.full hidle hwaiting (isSuspended_endWaiting.mp hsuspended))
    reader_noticed := False.elim }

/-- What one step of the reader can be. -/
inductive ReaderMove (len : Nat) (system : SyncSystem Value) : SyncSystem Value → Prop
  | attempt {timeout : Int} (hreader : system.reader = .attempting () timeout) :
      ReaderMove len system (system.getSection len timeout)
  | wake {timeout : Int} (hreader : system.reader = .waiting () timeout) :
      ReaderMove len system { system with
        kernel := system.kernel.endWaiting
        fifo := { system.fifo with suspendedReader := none }
        reader := .yielding () timeout false }
  | again {timeout : Int} {ok : Bool} (hreader : system.reader = .yielding () timeout ok)
      (hagain : ¬ ok ∧ timeout > 0) :
      ReaderMove len system { system with reader := .accessing .called }
  | conclude {timeout : Int} {ok : Bool} (hreader : system.reader = .yielding () timeout ok)
      (hdone : ¬ (¬ ok ∧ timeout > 0)) :
      ReaderMove len system { system with reader := SyncAt.concluding ok }
  | concludeCall {val : Option Value} (hreader : system.reader = .accessing (.returning val)) :
      ReaderMove len system { system with reader := SyncAt.concluding val.isSome }
  | access {call : GetAt Value} (hreader : system.reader = .accessing call)
      (hinside : ∀ val, call ≠ .returning val) :
      ReaderMove len system { system with
        fifo := { system.fifo with toFifo := (call.step len system.fifo.toFifo).1 }
        reader := .accessing (call.step len system.fifo.toFifo).2
        gotten := system.gotten ++ call.releases }
  | resume (hreader : system.reader = .resuming) :
      ReaderMove len system { system with
        kernel := resumePartner system.kernel system.fifo.suspendedWriter
        reader := .returning true }
  | leave {ok : Bool} (hreader : system.reader = .returning ok) :
      ReaderMove len system
        { system with reader := .outside, returned := system.returned ++ [ok] }

theorem readerMove_of_step (hstep : system.readerStep len = some next) :
    ReaderMove len system next := by
  unfold readerStep at hstep
  cases hreader : system.reader with
  | outside =>
    rw [hreader] at hstep
    cases hstep
  | attempting _ timeout =>
    rw [hreader] at hstep
    cases hstep
    exact .attempt hreader
  | waiting _ timeout =>
    rw [hreader] at hstep
    cases hstep
    exact .wake hreader
  | yielding _ timeout ok =>
    rw [hreader] at hstep
    cases hstep
    split
    · next hagain => exact .again hreader hagain
    · next hdone => exact .conclude hreader hdone
  | accessing call =>
    by_cases hreturning : ∃ val, call = .returning val
    · obtain ⟨val, rfl⟩ := hreturning
      rw [hreader] at hstep
      cases hstep
      exact .concludeCall hreader
    · have hinside : ∀ val, call ≠ .returning val := fun val heq => hreturning ⟨val, heq⟩
      simp only [hreader] at hstep
      cases hstep
      exact .access hreader hinside
  | resuming =>
    rw [hreader] at hstep
    cases hstep
    exact .resume hreader
  | returning ok =>
    rw [hreader] at hstep
    cases hstep
    exact .leave hreader

theorem Invariant.readerStep (h : system.Invariant len)
    (hcurrent : system.kernel.currentThread = system.readerThread)
    (hstep : system.readerStep len = some next) : next.Invariant len := by
  cases readerMove_of_step hstep with
  | attempt hreader => exact h.getSection hcurrent hreader
  | wake hreader => exact h.wakeReader hreader
  | again hreader hagain =>
    apply h.callGet (by rw [hreader]; rfl)
    rw [hreader]
    exact hagain.1
  | conclude hreader =>
    apply h.concludeReader (by rw [hreader]; rfl)
    rw [hreader]
    exact id
  | concludeCall hreader =>
    apply h.concludeReader (by rw [hreader]; rfl)
    rw [hreader]
    exact id
  | access hreader hinside => exact h.accessReader hreader hinside
  | resume hreader => exact h.resumeWriter hreader
  | leave hreader =>
    have hmoved : ({ system with reader := .outside } : SyncSystem Value).Invariant len :=
      h.moveReader (by rw [hreader]; rfl) id rfl (fun _ hcall => by cases hcall)
        (by rw [hreader]; exact id)
    exact { hmoved with }

/-! ### Every step keeps the invariant -/

theorem dispatch_eq {thread : ThreadId} (hdispatch : system.dispatch thread = some next) :
    system.kernel.IsReady thread ∧
      next = { system with kernel := system.kernel.activate thread } := by
  unfold dispatch at hdispatch
  split at hdispatch
  · next hready =>
    cases hdispatch
    exact ⟨hready, rfl⟩
  · cases hdispatch

theorem Invariant.step (h : system.Invariant len) {action : SyncAction Value}
    (hstep : system.step len action = some next) : next.Invariant len := by
  cases action with
  | syncPut val timeout =>
    rw [SyncSystem.step] at hstep
    split at hstep
    · next hwriter =>
      cases hstep
      have hmoved : ({ system with writer := .attempting val timeout } :
          SyncSystem Value).Invariant len :=
        h.moveWriter (by rw [hwriter]; rfl) id rfl (fun _ hcall => by cases hcall)
          (by rw [hwriter]; exact id)
      exact { hmoved with }
    · cases hstep
  | putGeneric val =>
    rw [SyncSystem.step] at hstep
    split at hstep
    · next hwriter =>
      cases hstep
      exact h.callPut val (by rw [hwriter]; rfl) (by rw [hwriter]; exact id)
    · cases hstep
  | syncGet timeout =>
    rw [SyncSystem.step] at hstep
    split at hstep
    · next hreader =>
      cases hstep
      exact h.moveReader (by rw [hreader]; rfl) id rfl (fun _ hcall => by cases hcall)
        (by rw [hreader]; exact id)
    · cases hstep
  | writer =>
    obtain ⟨running, hdispatch, hnext⟩ := Option.bind_eq_some_iff.mp hstep
    obtain ⟨hready, rfl⟩ := dispatch_eq hdispatch
    have hrunning : ({ system with
        kernel := system.kernel.activate system.writerThread } : SyncSystem Value).Invariant len :=
      { h with }
    exact hrunning.writerStep rfl hnext
  | reader =>
    obtain ⟨running, hdispatch, hnext⟩ := Option.bind_eq_some_iff.mp hstep
    obtain ⟨hready, rfl⟩ := dispatch_eq hdispatch
    have hrunning : ({ system with
        kernel := system.kernel.activate system.readerThread } : SyncSystem Value).Invariant len :=
      { h with }
    exact hrunning.readerStep rfl hnext
  | advance duration =>
    rw [SyncSystem.step] at hstep
    split at hstep
    · cases hstep
      exact { h with }
    · cases hstep
  | resume thread =>
    cases hstep
    exact { h with
      reader_noticed := fun hwaiting hsuspended => h.reader_noticed hwaiting hsuspended.of_resume
      writer_noticed := fun hwaiting hsuspended => h.writer_noticed hwaiting hsuspended.of_resume }

/-- Whatever the timeouts and however the threads are switched: a reader that sleeps finds the
fifo empty or is about to be resumed, and a writer that sleeps finds it full or is about to be. -/
theorem no_lost_wakeup (hlen : 2 ≤ len) (hinitial : system.Initial)
    {actions : List (SyncAction Value)} {final : SyncSystem Value}
    (hrun : run (SyncSystem.step len) system actions = some final) :
    (final.reader.IsWaiting → IsSuspended final.kernel final.readerThread →
        final.fifo.isEmpty = true ∨ final.writer.HasPut) ∧
      (final.writer.IsWaiting → IsSuspended final.kernel final.writerThread →
        final.fifo.isFull len = true ∨ final.reader.HasGot) := by
  have hinvariant : final.Invariant len :=
    run_invariant (fun _ _ _ hnow hstep => hnow.step hstep)
      (hinitial.invariant (show 0 < len by omega)) hrun
  constructor
  · intro hwaiting hsuspended
    exact (hinvariant.reader_noticed hwaiting hsuspended).imp_left
      hinvariant.carries.isEmpty_iff.mpr
  · intro hwaiting hsuspended
    exact (hinvariant.writer_noticed hwaiting hsuspended).imp_left
      hinvariant.carries.isFull_iff.mpr

/-- The reader has suspended itself with a timeout, and the writer has put a value since. -/
theorem no_lost_wakeup_twoThreads :
    ∃ final, run (SyncSystem.step 2) twoThreads
        [.syncGet 50, .reader, .putGeneric 7, .writer, .writer, .writer, .writer, .writer] =
          some final ∧
      (final.reader.IsWaiting → IsSuspended final.kernel final.readerThread →
        final.fifo.isEmpty = true ∨ final.writer.HasPut) ∧
      (final.writer.IsWaiting → IsSuspended final.kernel final.writerThread →
        final.fifo.isFull 2 = true ∨ final.reader.HasGot) := by
  have hpossible : (run (SyncSystem.step 2) twoThreads [.syncGet 50, .reader, .putGeneric 7,
      .writer, .writer, .writer, .writer, .writer]).isSome := by decide
  obtain ⟨final, hrun⟩ := Option.isSome_iff_exists.mp hpossible
  exact ⟨final, hrun, no_lost_wakeup (by decide) twoThreads_initial hrun⟩

end SyncSystem

end Rodos.Api
