import Rodos.Api.SyncFifoWakeup
import Rodos.Support.CommBufferFreshness

/-! `SyncCommBuffer`: a `CommBuffer` whose reader suspends itself until there is new data. A section
under `PRIORITY_CEILER_IN_SCOPE` is one step up to its `suspendCallerUntil`; outside of the sections
the threads may be switched between any two accesses. -/
namespace Rodos.Support
open Library BareMetal
open Api (IsSuspended isSuspended_endWaiting isSuspended_suspendCaller
  not_isSuspended_resumePartner)

/-- How far the reader has come in `syncGet`, `getOnlyIfNewData` or `get`; `data` is the variable
of the caller. -/
inductive SyncGetAt (Cell : Type) (size : Nat) where
  | outside
  /-- The section of `syncGet` comes next. -/
  | entering (data : Value Cell size) (timeout : Int)
  /-- In `suspendCallerUntil`. -/
  | sleeping (data : Value Cell size)
  /-- `bool ok = this->newDataAvailable;` -/
  | looking (data : Value Cell size)
  /-- `if(newDataAvailable)` of `getOnlyIfNewData`. -/
  | checking (data : Value Cell size)
  /-- In `CommBuffer::get`, behind which `ok` is returned, if anything. -/
  | getting (ok : Option Bool)

structure SyncCommSystem (Cell : Type) (size : Nat) where
  kernel : Kernel
  comm : Exchange Cell size
  suspendedReader : Option ThreadId := none
  writerThread : ThreadId
  readerThread : ThreadId
  /-- The writer is in `SyncCommBuffer::put`. -/
  putting : Bool := false
  reader : SyncGetAt Cell size := .outside
  /-- What the calls of the reader that are over returned. -/
  returned : List Bool := []

inductive SyncCommAction (Cell : Type) (size : Nat) where
  | put (data : Value Cell size)
  | syncGet (data : Value Cell size) (timeout : Int)
  | getOnlyIfNewData (data : Value Cell size)
  | get (data : Value Cell size)
  | clearDataState
  /-- The writer takes the next step of its call. -/
  | writer
  /-- The reader takes the next step of its call. -/
  | reader
  | advance (duration : Nat)
  /-- Some other thread or an interrupt server resumes a thread. -/
  | resume (thread : ThreadId)

/-- The reader gives up new data without getting it. -/
def SyncCommAction.IsClear {Cell : Type} {size : Nat} : SyncCommAction Cell size → Prop
  | .clearDataState => True
  | _ => False

namespace SyncGetAt

variable {Cell : Type} {size : Nat}

def IsSleeping : SyncGetAt Cell size → Prop
  | .sleeping _ => True
  | _ => False

def isGetting : SyncGetAt Cell size → Bool
  | .getting _ => true
  | _ => false

end SyncGetAt

namespace SyncCommSystem

variable {Cell : Type} {size : Nat}

/-- The next step of `put`: that of `CommBuffer::put`, or the section behind it. -/
def writerStep (system : SyncCommSystem Cell size) : Option (SyncCommSystem Cell size) :=
  if system.putting then
    match system.comm.put with
    | .returned =>
      some { system with
        kernel := Api.SyncSystem.resumePartner system.kernel system.suspendedReader
        putting := false }
    | _ => system.comm.putStep.map fun comm => { system with comm := comm }
  else none

/-- The section of `syncGet` up to `suspendCallerUntil`, or to its end. -/
def getSection (system : SyncCommSystem Cell size) (data : Value Cell size) (timeout : Int) :
    SyncCommSystem Cell size :=
  if system.comm.comm.newDataAvailable then { system with reader := .looking data }
  else if timeout = 0 then { system with suspendedReader := none, reader := .looking data }
  else
    { system with
      kernel := system.kernel.suspendCaller
        (Api.SyncSystem.reactivationTime system.kernel timeout) none
      suspendedReader := some system.kernel.currentThread
      reader := .sleeping data }

/-- `this->get(data);` -/
def callGet (system : SyncCommSystem Cell size) (data : Value Cell size) (ok : Option Bool) :
    Option (SyncCommSystem Cell size) :=
  (system.comm.step (.get data)).map fun comm =>
    { system with comm := comm, reader := .getting ok }

/-- The next step of the reader. -/
def readerStep (system : SyncCommSystem Cell size) : Option (SyncCommSystem Cell size) :=
  match system.reader with
  | .outside => none
  | .entering data timeout => some (system.getSection data timeout)
  | .sleeping data =>
    some { system with
      kernel := system.kernel.endWaiting
      suspendedReader := none
      reader := .looking data }
  | .looking data => system.callGet data (some system.comm.comm.newDataAvailable)
  | .checking data =>
    if system.comm.comm.newDataAvailable then system.callGet data (some true)
    else some { system with reader := .outside, returned := system.returned ++ [false] }
  | .getting ok =>
    match system.comm.get with
    | .returned =>
      some { system with reader := .outside, returned := system.returned ++ ok.toList }
    | _ => system.comm.getStep.map fun comm => { system with comm := comm }

/-- The scheduler lets the thread run, for which it must be ready. -/
def dispatch (system : SyncCommSystem Cell size) (thread : ThreadId) :
    Option (SyncCommSystem Cell size) :=
  if system.kernel.IsReady thread then
    some { system with kernel := system.kernel.activate thread }
  else none

/-- The reader begins a call outside of any other. -/
def call (system : SyncCommSystem Cell size) (place : SyncGetAt Cell size) :
    Option (SyncCommSystem Cell size) :=
  match system.reader with
  | .outside => some { system with reader := place }
  | _ => none

def step (system : SyncCommSystem Cell size) :
    SyncCommAction Cell size → Option (SyncCommSystem Cell size)
  | .put data =>
    if system.putting then none
    else (system.comm.step (.put data)).map fun comm =>
      { system with comm := comm, putting := true }
  | .syncGet data timeout => system.call (.entering data timeout)
  | .getOnlyIfNewData data => system.call (.checking data)
  | .get data => (system.call .outside).bind fun system => system.callGet data none
  | .clearDataState =>
    (system.call .outside).map fun system => { system with
      comm := { system.comm with comm := { system.comm.comm with newDataAvailable := false } } }
  | .writer => (system.dispatch system.writerThread).bind writerStep
  | .reader => (system.dispatch system.readerThread).bind readerStep
  | .advance duration =>
    -- The clock is an `int64_t`.
    if system.kernel.timeNow + duration ≤ END_OF_TIME then
      some { system with
        kernel := { system.kernel with timeNow := system.kernel.timeNow + duration } }
    else none
  | .resume thread => some { system with kernel := system.kernel.resume thread }

/-- Two threads outside of their calls and a buffer that nothing was put into. -/
structure Initial (system : SyncCommSystem Cell size) (buffer : Fin 3 → Value Cell size) :
    Prop where
  threads_ne : system.writerThread ≠ system.readerThread
  comm_eq : system.comm = .start buffer
  suspendedReader_eq : system.suspendedReader = none
  putting_eq : system.putting = false
  reader_eq : system.reader = .outside

/-! ### No lost wakeup -/

variable {system next : SyncCommSystem Cell size}

/-- What the reader leaves in the buffer while it sleeps. -/
def registration (system : SyncCommSystem Cell size) : Option ThreadId :=
  match system.reader with
  | .sleeping _ => some system.readerThread
  | _ => none

/-- The section that resumes the reader comes next. -/
def AboutToResume (system : SyncCommSystem Cell size) : Prop :=
  system.putting = true ∧ system.comm.put = .returned

/-- The reader is registered while it sleeps, and sleeps only while there is no new data or until
the section that resumes it. -/
structure Invariant (system : SyncCommSystem Cell size) : Prop where
  threads_ne : system.writerThread ≠ system.readerThread
  put_idle : system.putting = false → system.comm.put = .returned
  registered : system.suspendedReader = system.registration
  noticed : system.reader.IsSleeping → IsSuspended system.kernel system.readerThread →
    system.comm.comm.newDataAvailable = false ∨ system.AboutToResume

theorem Initial.invariant {buffer : Fin 3 → Value Cell size} (h : system.Initial buffer) :
    system.Invariant where
  threads_ne := h.threads_ne
  put_idle _ := by
    rw [h.comm_eq]
    rfl
  registered := by
    rw [h.suspendedReader_eq, registration, h.reader_eq]
  noticed hsleeping := by
    rw [h.reader_eq] at hsleeping
    cases hsleeping

/-- Steps of `put` set the flag last. -/
theorem newDataAvailable_putStep {comm later : Exchange Cell size}
    (hstep : comm.putStep = some later) :
    later.comm.newDataAvailable = comm.comm.newDataAvailable ∨ later.put = .returned := by
  obtain ⟨inner, put, get, passed, gotten, replaced⟩ := comm
  cases put with
  | returned => cases hstep
  | storeData data stored =>
    rw [Exchange.putStep] at hstep
    dsimp only at hstep
    split at hstep <;> cases hstep <;> exact Or.inl rfl
  | setNewDataAvailable =>
    cases hstep
    exact Or.inr rfl
  | swapGetsReader | readerGetsWriter swap | writerGetsSwap swap | ifReadingNow | swapGetsWriter
  | writerGetsIntermediate swap | intermediateGetsSwap swap | countWrite =>
    cases hstep
    exact Or.inl rfl

/-- A step of the reader that neither begins nor ends a sleep. -/
theorem Invariant.moveReader (h : system.Invariant) {place : SyncGetAt Cell size}
    {comm : Exchange Cell size} {returned : List Bool} (hput : comm.put = system.comm.put)
    (hawake : system.registration = none) (hplace : ∀ data, place ≠ .sleeping data) :
    ({ system with comm := comm, reader := place, returned := returned } :
      SyncCommSystem Cell size).Invariant where
  threads_ne := h.threads_ne
  put_idle hidle := hput.trans (h.put_idle hidle)
  registered := by
    rw [h.registered, hawake, registration]
    cases place with
    | sleeping data => exact absurd rfl (hplace data)
    | outside | entering | looking | checking | getting => rfl
  noticed hsleeping := by
    cases place with
    | sleeping data => exact absurd rfl (hplace data)
    | outside | entering | looking | checking | getting => cases hsleeping

theorem put_of_getStep {comm later : Exchange Cell size} (hstep : comm.getStep = some later) :
    later.put = comm.put := by
  unfold Exchange.getStep at hstep
  split at hstep
  · cases hstep
  all_goals try split at hstep
  all_goals
    cases hstep
    rfl

theorem Invariant.callGet (h : system.Invariant) (hawake : system.registration = none)
    {data : Value Cell size} {ok : Option Bool} (hstep : system.callGet data ok = some next) :
    next.Invariant := by
  obtain ⟨comm, hcomm, rfl⟩ := Option.map_eq_some_iff.mp hstep
  refine h.moveReader ?_ hawake (fun _ heq => by cases heq)
  rw [Exchange.step] at hcomm
  split at hcomm
  · cases hcomm
    rfl
  · cases hcomm

theorem Invariant.getSection (h : system.Invariant)
    (hcurrent : system.kernel.currentThread = system.readerThread)
    (hawake : system.registration = none) (data : Value Cell size) (timeout : Int) :
    (system.getSection data timeout).Invariant := by
  unfold SyncCommSystem.getSection
  split
  · exact h.moveReader rfl hawake (fun _ heq => by cases heq)
  · next hnothing =>
    split
    · have hmoved : ({ system with reader := .looking data } :
          SyncCommSystem Cell size).Invariant :=
        h.moveReader rfl hawake (fun _ heq => by cases heq)
      exact { hmoved with registered := rfl }
    · exact {
        threads_ne := h.threads_ne
        put_idle := h.put_idle
        registered := congrArg some hcurrent
        noticed := fun _ _ => Or.inl (Bool.eq_false_of_not_eq_true hnothing) }

theorem Invariant.readerStep (h : system.Invariant)
    (hcurrent : system.kernel.currentThread = system.readerThread)
    (hstep : system.readerStep = some next) : next.Invariant := by
  unfold SyncCommSystem.readerStep at hstep
  cases hreader : system.reader with
  | outside =>
    rw [hreader] at hstep
    cases hstep
  | entering data timeout =>
    rw [hreader] at hstep
    cases hstep
    exact h.getSection hcurrent (by rw [registration, hreader]) data timeout
  | sleeping data =>
    rw [hreader] at hstep
    cases hstep
    exact { h with
      registered := rfl
      noticed := fun hsleeping => by cases hsleeping }
  | looking data =>
    rw [hreader] at hstep
    exact h.callGet (by rw [registration, hreader]) hstep
  | checking data =>
    have hawake : system.registration = none := by rw [registration, hreader]
    rw [hreader] at hstep
    dsimp only at hstep
    split at hstep
    · exact h.callGet hawake hstep
    · cases hstep
      exact h.moveReader rfl hawake (fun _ heq => by cases heq)
  | getting ok =>
    have hawake : system.registration = none := by rw [registration, hreader]
    rw [hreader] at hstep
    dsimp only at hstep
    split at hstep
    · cases hstep
      exact h.moveReader rfl hawake (fun _ heq => by cases heq)
    · obtain ⟨comm, hcomm, rfl⟩ := Option.map_eq_some_iff.mp hstep
      exact h.moveReader (put_of_getStep hcomm) hawake (fun _ heq => by cases heq)

/-- A sleeping reader that could proceed is about to be resumed, whatever `put` does next. -/
theorem Invariant.writerStep (h : system.Invariant)
    (hstep : system.writerStep = some next) : next.Invariant := by
  unfold SyncCommSystem.writerStep at hstep
  split at hstep
  · next hputting =>
    split at hstep
    · next hreturned =>
      cases hstep
      exact { h with
        put_idle := fun _ => hreturned
        noticed := fun hsleeping hsuspended => by
          have hregistered : system.suspendedReader = some system.readerThread := by
            rw [h.registered, registration]
            cases hreader : system.reader with
            | sleeping data => rfl
            | outside | entering | looking | checking | getting =>
              rw [hreader] at hsleeping
              cases hsleeping
          dsimp only at hsuspended
          rw [hregistered] at hsuspended
          exact absurd hsuspended (not_isSuspended_resumePartner _ _) }
    · next hinside =>
      obtain ⟨comm, hcomm, rfl⟩ := Option.map_eq_some_iff.mp hstep
      exact { h with
        put_idle := fun hidle => by
          rw [hputting] at hidle
          cases hidle
        noticed := fun hsleeping hsuspended => by
          rcases newDataAvailable_putStep hcomm with hflag | hreturned
          · refine Or.inl (hflag.trans ?_)
            exact (h.noticed hsleeping hsuspended).resolve_right fun hresume =>
              hinside hresume.2
          · exact Or.inr ⟨hputting, hreturned⟩ }
  · cases hstep

theorem dispatch_eq {thread : ThreadId} (hdispatch : system.dispatch thread = some next) :
    system.kernel.IsReady thread ∧
      next = { system with kernel := system.kernel.activate thread } := by
  unfold dispatch at hdispatch
  split at hdispatch
  · next hready => exact ⟨hready, (Option.some.inj hdispatch).symm⟩
  · cases hdispatch

theorem call_eq {place : SyncGetAt Cell size} (hcall : system.call place = some next) :
    system.reader = .outside ∧ next = { system with reader := place } := by
  unfold call at hcall
  split at hcall
  · next houtside => exact ⟨houtside, (Option.some.inj hcall).symm⟩
  · cases hcall

theorem Invariant.step (h : system.Invariant) {action : SyncCommAction Cell size}
    (hstep : system.step action = some next) : next.Invariant := by
  cases action with
  | put data =>
    rw [SyncCommSystem.step] at hstep
    split at hstep
    · cases hstep
    · next hidle =>
      obtain ⟨comm, hcomm, rfl⟩ := Option.map_eq_some_iff.mp hstep
      rw [Exchange.step, h.put_idle (Bool.eq_false_of_not_eq_true hidle)] at hcomm
      cases hcomm
      exact { h with
        put_idle := fun hputting => by cases hputting
        noticed := fun hsleeping hsuspended => by
          refine Or.inl ((h.noticed hsleeping hsuspended).resolve_right ?_)
          exact fun hresume => hidle hresume.1 }
  | syncGet data timeout =>
    obtain ⟨houtside, rfl⟩ := call_eq hstep
    exact h.moveReader rfl (by rw [registration, houtside]) (fun _ heq => by cases heq)
  | getOnlyIfNewData data =>
    obtain ⟨houtside, rfl⟩ := call_eq hstep
    exact h.moveReader rfl (by rw [registration, houtside]) (fun _ heq => by cases heq)
  | get data =>
    obtain ⟨idle, hcall, hget⟩ := Option.bind_eq_some_iff.mp hstep
    obtain ⟨houtside, rfl⟩ := call_eq hcall
    have hidle : ({ system with reader := .outside } : SyncCommSystem Cell size).Invariant :=
      h.moveReader rfl (by rw [registration, houtside]) (fun _ heq => by cases heq)
    exact hidle.callGet rfl hget
  | clearDataState =>
    obtain ⟨idle, hcall, rfl⟩ := Option.map_eq_some_iff.mp hstep
    obtain ⟨houtside, rfl⟩ := call_eq hcall
    exact h.moveReader rfl (by rw [registration, houtside]) (fun _ heq => by cases heq)
  | writer =>
    obtain ⟨running, hdispatch, hnext⟩ := Option.bind_eq_some_iff.mp hstep
    obtain ⟨-, rfl⟩ := dispatch_eq hdispatch
    have hrunning : ({ system with
        kernel := system.kernel.activate system.writerThread } :
          SyncCommSystem Cell size).Invariant := { h with }
    exact hrunning.writerStep hnext
  | reader =>
    obtain ⟨running, hdispatch, hnext⟩ := Option.bind_eq_some_iff.mp hstep
    obtain ⟨-, rfl⟩ := dispatch_eq hdispatch
    have hrunning : ({ system with
        kernel := system.kernel.activate system.readerThread } :
          SyncCommSystem Cell size).Invariant := { h with }
    exact hrunning.readerStep rfl hnext
  | advance duration =>
    rw [SyncCommSystem.step] at hstep
    split at hstep
    · cases hstep
      exact { h with }
    · cases hstep
  | resume thread =>
    cases hstep
    exact { h with
      noticed := fun hsleeping hsuspended => h.noticed hsleeping hsuspended.of_resume }

/-- Two threads that are ready to run. -/
def twoThreads : SyncCommSystem Nat 1 where
  kernel := { threadList := [idlethread, 1, 2], thread := fun _ => {}, timeNow := 1 }
  comm := .start fun _ _ => 0
  writerThread := 1
  readerThread := 2

theorem twoThreads_initial : twoThreads.Initial fun _ _ => 0 := by
  constructor
  case threads_ne => decide
  all_goals rfl

/-- The buffer is fresh, and the reader is in `CommBuffer::get` when the buffer says so. -/
structure Current (system : SyncCommSystem Cell size) (initial : Value Cell size) : Prop where
  fresh : system.comm.Fresh initial
  get_idle : system.reader.isGetting = false → system.comm.get = .returned

variable {initial : Value Cell size}

theorem get_of_putStep {comm later : Exchange Cell size} (hstep : comm.putStep = some later) :
    later.get = comm.get := by
  unfold Exchange.putStep at hstep
  split at hstep
  · cases hstep
  all_goals try split at hstep
  all_goals
    cases hstep
    rfl

theorem Current.callGet (h : system.Current initial) {data : Value Cell size} {ok : Option Bool}
    (hstep : system.callGet data ok = some next) : next.Current initial := by
  obtain ⟨comm, hcomm, rfl⟩ := Option.map_eq_some_iff.mp hstep
  exact ⟨h.fresh.step hcomm, fun hidle => by cases hidle⟩

theorem Current.readerStep (h : system.Current initial) (hstep : system.readerStep = some next) :
    next.Current initial := by
  unfold SyncCommSystem.readerStep at hstep
  cases hreader : system.reader with
  | outside =>
    rw [hreader] at hstep
    cases hstep
  | entering data timeout =>
    rw [hreader] at hstep
    cases hstep
    have hidle := h.get_idle (by rw [hreader]; rfl)
    unfold SyncCommSystem.getSection
    split
    · exact ⟨h.fresh, fun _ => hidle⟩
    · split <;> exact ⟨h.fresh, fun _ => hidle⟩
  | sleeping data =>
    have hidle := h.get_idle (by rw [hreader]; rfl)
    rw [hreader] at hstep
    cases hstep
    exact ⟨h.fresh, fun _ => hidle⟩
  | looking data =>
    rw [hreader] at hstep
    exact h.callGet hstep
  | checking data =>
    have hidle := h.get_idle (by rw [hreader]; rfl)
    rw [hreader] at hstep
    dsimp only at hstep
    split at hstep
    · exact h.callGet hstep
    · cases hstep
      exact ⟨h.fresh, fun _ => hidle⟩
  | getting ok =>
    rw [hreader] at hstep
    dsimp only at hstep
    split at hstep
    · next hreturned =>
      cases hstep
      exact ⟨h.fresh, fun _ => hreturned⟩
    · obtain ⟨comm, hcomm, rfl⟩ := Option.map_eq_some_iff.mp hstep
      exact ⟨h.fresh.getStep hcomm, fun hidle => by cases hidle⟩

theorem Current.writerStep (h : system.Current initial) (hstep : system.writerStep = some next) :
    next.Current initial := by
  unfold SyncCommSystem.writerStep at hstep
  split at hstep
  · split at hstep
    · cases hstep
      exact ⟨h.fresh, h.get_idle⟩
    · obtain ⟨comm, hcomm, rfl⟩ := Option.map_eq_some_iff.mp hstep
      exact ⟨h.fresh.putStep hcomm, fun hidle => (get_of_putStep hcomm).trans (h.get_idle hidle)⟩
  · cases hstep

theorem Current.step (h : system.Current initial) {action : SyncCommAction Cell size}
    (hkeeps : ¬ action.IsClear) (hstep : system.step action = some next) :
    next.Current initial := by
  cases action with
  | put data =>
    rw [SyncCommSystem.step] at hstep
    split at hstep
    · cases hstep
    · obtain ⟨comm, hcomm, rfl⟩ := Option.map_eq_some_iff.mp hstep
      refine ⟨h.fresh.step hcomm, fun hidle => ?_⟩
      rw [Exchange.step] at hcomm
      split at hcomm
      · cases hcomm
        exact h.get_idle hidle
      · cases hcomm
  | syncGet data timeout =>
    obtain ⟨houtside, rfl⟩ := call_eq hstep
    exact ⟨h.fresh, fun _ => h.get_idle (by rw [houtside]; rfl)⟩
  | getOnlyIfNewData data =>
    obtain ⟨houtside, rfl⟩ := call_eq hstep
    exact ⟨h.fresh, fun _ => h.get_idle (by rw [houtside]; rfl)⟩
  | get data =>
    obtain ⟨idle, hcall, hget⟩ := Option.bind_eq_some_iff.mp hstep
    obtain ⟨houtside, rfl⟩ := call_eq hcall
    have hidle : ({ system with reader := .outside } : SyncCommSystem Cell size).Current initial :=
      ⟨h.fresh, fun _ => h.get_idle (by rw [houtside]; rfl)⟩
    exact hidle.callGet hget
  | clearDataState => exact absurd trivial hkeeps
  | writer =>
    obtain ⟨running, hdispatch, hnext⟩ := Option.bind_eq_some_iff.mp hstep
    obtain ⟨-, rfl⟩ := dispatch_eq hdispatch
    have hrunning : ({ system with
        kernel := system.kernel.activate system.writerThread } :
          SyncCommSystem Cell size).Current initial := { h with }
    exact hrunning.writerStep hnext
  | reader =>
    obtain ⟨running, hdispatch, hnext⟩ := Option.bind_eq_some_iff.mp hstep
    obtain ⟨-, rfl⟩ := dispatch_eq hdispatch
    have hrunning : ({ system with
        kernel := system.kernel.activate system.readerThread } :
          SyncCommSystem Cell size).Current initial := { h with }
    exact hrunning.readerStep hnext
  | advance duration =>
    rw [SyncCommSystem.step] at hstep
    split at hstep
    · cases hstep
      exact { h with }
    · cases hstep
  | resume thread =>
    cases hstep
    exact { h with }

end SyncCommSystem

end Rodos.Support
