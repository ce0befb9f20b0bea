import Rodos.BareMetal.SemaphoreSteps
import Rodos.Gateway.DuplicateFilter

/-! The semaphore around the table of seen nodes, entered and left by a gateway thread. -/
namespace Rodos.Gateway
open Library BareMetal

/-- The running thread makes the call and is not interrupted in it. -/
def ProtectorCall.make (seenNodesProtector : Address) (system : System) :
    ProtectorCall → Option System
  | .enter => run System.step system [.enter seenNodesProtector, .proceed]
  | .leave =>
    if (system.semaphore seenNodesProtector).ownerEnterCnt > 1 then
      run System.step system [.leave seenNodesProtector]
    else run System.step system [.leave seenNodesProtector, .proceed, .proceed]

/-- The thread runs outside of all calls, has entered the semaphore this often, and nobody waits
for it. -/
structure Holding (sema : Address) (thread : ThreadId) (held : Nat) (system : System) : Prop where
  current : system.current = thread
  working : thread ≠ idlethread
  outside : system.position thread = .outside
  unwaited : ∀ other, (system.kernel.thread other).waitingFor ≠ some sema
  ownerEnterCnt : (system.semaphore sema).ownerEnterCnt = held
  owner : (system.semaphore sema).owner = if held = 0 then none else some thread

/-- Another thread that called `enter` now would be blocked. -/
def ShutOut (sema : Address) (system : System) (other : ThreadId) : Prop :=
  ({ system with kernel := { system.kernel with currentThread := other } }).IsOccupied sema

instance (sema : Address) (system : System) (other : ThreadId) :
    Decidable (ShutOut sema system other) :=
  inferInstanceAs (Decidable (System.IsOccupied _ _))

namespace Holding

variable {sema : Address} {thread : ThreadId} {held : Nat} {system : System}

theorem canCall (h : Holding sema thread held system) : system.CanCall := by
  have hcurrent := h.current
  subst hcurrent
  exact ⟨h.working, h.outside⟩

theorem enter (h : Holding sema thread held system) :
    ∃ next, ProtectorCall.make sema system .enter = some next ∧
      Holding sema thread (held + 1) next := by
  obtain ⟨hcurrent, hworking, houtside, hunwaited, hcount, howner⟩ := id h
  subst hcurrent
  let callerPriority := system.kernel.getPriority system.current
  let called := system.moveTo (.entering sema callerPriority)
  let raised := called.setPrioCurrentRunner CEILING_PRIORITY
  have hfree : ¬ raised.IsOccupied sema := by
    rintro ⟨hsome, hother⟩
    have hsame : (raised.semaphore sema).owner = (system.semaphore sema).owner := rfl
    rw [hsame, howner] at hsome hother
    split at hsome
    · exact hsome rfl
    · next hheld => exact hother (by rw [if_neg hheld]; rfl)
  have hcalled : system.step (.enter sema) = some called := if_pos h.canCall
  have hproceed : called.step .proceed =
      some (raised.own sema callerPriority callerPriority
        (system.semaphore sema).ownerEnterCnt) := by
    have hposition : called.position called.current = .entering sema callerPriority := by
      show (system.moveTo _).position _ = _
      rw [System.moveTo_position, if_pos (show called.current = system.current from rfl)]
    show called.proceed = _
    rw [System.proceed, hposition]
    simp only [System.enterSection]
    rw [if_neg hfree]
    rfl
  refine ⟨_, run_cons hcalled (run_cons hproceed rfl), rfl, hworking, ?_, ?_, ?_, ?_⟩
  · rw [System.own_position, if_pos (show system.current = raised.current from rfl)]
  · intro other
    rw [System.own_thread]
    have hkeeps : (raised.kernel.thread other).waitingFor =
        (system.kernel.thread other).waitingFor := by
      rw [System.setPrioCurrentRunner_thread]
      split <;> rfl
    split
    · exact hkeeps ▸ hunwaited other
    · exact hkeeps ▸ hunwaited other
  · rw [System.own_semaphore, if_pos rfl, hcount]
    rfl
  · rw [System.own_semaphore, if_pos rfl]
    rfl

theorem nextWaiter_eq_none
    (hunwaited : ∀ other, (system.kernel.thread other).waitingFor ≠ some sema) :
    system.nextWaiter sema = none := by
  cases hfound : system.nextWaiter sema with
  | none => rfl
  | some waiter =>
    obtain ⟨hmem, _⟩ := Kernel.findNextWaitingFor_some hfound
    have hwaits := (Kernel.mem_waitersFor.mp hmem).2
    rw [Kernel.setPrioCurrentRunner, Kernel.setPriority, Kernel.thread_modify] at hwaits
    split at hwaits <;> exact absurd hwaits (hunwaited waiter)

theorem leave (h : Holding sema thread (held + 1) system) :
    ∃ next, ProtectorCall.make sema system .leave = some next ∧ Holding sema thread held next := by
  obtain ⟨hcurrent, hworking, houtside, hunwaited, hcount, howner⟩ := id h
  subst hcurrent
  rw [if_neg (Nat.succ_ne_zero held)] at howner
  have hleave : system.step (.leave sema) = some (system.leave sema) := if_pos h.canCall
  have hsemaphore := system.leave_semaphore sema howner sema
  rw [if_pos rfl] at hsemaphore
  have hcountLeft : ((system.leave sema).semaphore sema).ownerEnterCnt = held := by
    rw [hsemaphore]
    show (system.semaphore sema).ownerEnterCnt - 1 = _
    rw [hcount]
    push_cast
    omega
  have hleft := system.leave_position sema howner system.current
  have hkernel := system.leave_kernel sema
  have hrunning : (system.leave sema).current = system.current :=
    congrArg Kernel.currentThread hkernel
  rw [ProtectorCall.make, hcount]
  by_cases hlast : held = 0
  · subst hlast
    have hwaiter : (system.leave sema).nextWaiter sema = none :=
      nextWaiter_eq_none (hkernel ▸ hunwaited)
    have hleaving : (system.leave sema).position (system.leave sema).current = .leaving sema := by
      rw [hrunning, hleft, if_pos ⟨rfl, by rw [hcount]; decide⟩]
    have hsection : (system.leave sema).step .proceed =
        some ((system.leave sema).leaveSection sema) := by
      show (system.leave sema).proceed = _
      rw [System.proceed, hleaving]
    let priority := ((system.leave sema).semaphore sema).ownerPriority
    have hrestoring : ((system.leave sema).leaveSection sema).position
        ((system.leave sema).leaveSection sema).current = .restoring priority := by
      rw [System.leaveSection_current, System.leaveSection_position, if_pos rfl]
    have hrestore : ((system.leave sema).leaveSection sema).step .proceed =
        some (((system.leave sema).leaveSection sema).restore priority) := by
      show ((system.leave sema).leaveSection sema).proceed = _
      rw [System.proceed, hrestoring]
    rw [if_neg (by decide)]
    refine ⟨_, run_cons hleave (run_cons hsection (run_cons hrestore rfl)), ?_, hworking, ?_, ?_,
      ?_, ?_⟩
    · exact (System.leaveSection_current _ _).trans hrunning
    · rw [System.restore, System.moveTo_position, if_pos]
      exact ((System.leaveSection_current _ _).trans hrunning).symm
    · intro other
      rw [System.restore, System.moveTo_kernel, System.setPrioCurrentRunner_thread]
      have hkeeps : ((system.leave sema).leaveSection sema).kernel.thread other =
          system.kernel.thread other := by
        rw [System.leaveSection_thread, hwaiter, if_neg (by simp), hkernel]
      rw [hkeeps]
      split <;> exact hunwaited other
    · show (((system.leave sema).leaveSection sema).semaphore sema).ownerEnterCnt = _
      rw [System.leaveSection_semaphore, if_pos rfl]
      exact hcountLeft
    · show (((system.leave sema).leaveSection sema).semaphore sema).owner = _
      rw [System.leaveSection_semaphore, if_pos rfl, hwaiter]
      rfl
  · have hmore : ((held + 1 : Nat) : Int) > 1 := by omega
    rw [if_pos hmore]
    refine ⟨_, run_cons hleave rfl, hrunning, hworking, ?_, ?_, ?_, ?_⟩
    · rw [hleft, if_neg (by rw [hcount]; omega)]
      exact houtside
    · rw [hkernel]
      exact hunwaited
    · exact hcountLeft
    · rw [hsemaphore, if_neg hlast]
      exact howner

/-- Others are shut out as long as the thread has not left as often as it entered. -/
theorem shutOut_iff (h : Holding sema thread held system) {other : ThreadId}
    (hother : other ≠ thread) : ShutOut sema system other ↔ held ≠ 0 := by
  have howner := h.owner
  constructor
  · rintro ⟨hsome, _⟩ hnone
    rw [if_pos hnone] at howner
    exact hsome howner
  · intro hheld
    rw [if_neg hheld] at howner
    refine ⟨?_, ?_⟩
    · rw [howner]
      exact Option.some_ne_none thread
    · rw [howner]
      exact fun hsame => hother (Option.some.inj hsame).symm

end Holding

namespace SeenNodes

variable {table : SeenNodes} {msg : NetworkMessage}

theorem judge_calls (table : SeenNodes) (node : Nat) (time : Int64) :
    (table.judge node time).calls = [.enter, .leave] := by
  rw [judge]
  split
  · split <;> rfl
  · rfl

theorem messageSeen_calls (table : SeenNodes) (msg : NetworkMessage) :
    (table.messageSeen msg).calls = if table.Admits msg then [.enter, .leave] else [.enter] := by
  cases hfind : table.find msg.getSenderNode with
  | some node =>
    have hadmits : table.Admits msg := Or.inl (by rw [hfind]; rfl)
    rw [messageSeen, hfind, if_pos hadmits]
    exact judge_calls table node msg.getSentTime
  | none =>
    rw [messageSeen, hfind]
    by_cases hroom : table.numberOfNodes < MAX_NUMBER_OF_NODES
    · have hadmits : table.Admits msg := Or.inr hroom
      simp only [if_pos hroom, if_pos hadmits]
      exact judge_calls (table.insert msg) _ msg.getSentTime
    · have hfull : ¬ table.Admits msg := by
        rintro (hknown | hfree)
        · rw [hfind] at hknown
          cases hknown
        · exact hroom hfree
      simp only [if_neg hroom, if_neg hfull]

/-- The calls on the protector in the course of these messages. -/
def protectorCalls (table : SeenNodes) : List NetworkMessage → List ProtectorCall
  | [] => []
  | msg :: messages =>
    (table.messageSeen msg).calls ++ protectorCalls (table.messageSeen msg).table messages

theorem Holding.messageSeen {sema : Address} {thread : ThreadId} {held : Nat} {system : System}
    (h : Holding sema thread held system) (table : SeenNodes) (msg : NetworkMessage) :
    ∃ next, run (ProtectorCall.make sema) system (table.messageSeen msg).calls = some next ∧
      Holding sema thread (if table.Admits msg then held else held + 1) next := by
  obtain ⟨entered, henter, hentered⟩ := h.enter
  rw [messageSeen_calls]
  by_cases hadmits : table.Admits msg
  · obtain ⟨left, hleave, hleft⟩ := hentered.leave
    rw [if_pos hadmits, if_pos hadmits]
    exact ⟨left, run_cons henter (run_cons hleave rfl), hleft⟩
  · rw [if_neg hadmits, if_neg hadmits]
    exact ⟨entered, run_cons henter rfl, hentered⟩

/-- Each message that the table does not admit leaves the semaphore entered once more. -/
theorem Holding.protectorCalls {sema : Address} {thread : ThreadId} {held : Nat}
    {system : System} (h : Holding sema thread held system) (table : SeenNodes)
    (messages : List NetworkMessage) :
    ∃ final more,
      run (ProtectorCall.make sema) system (table.protectorCalls messages) = some final ∧
      Holding sema thread (held + more) final ∧
      (more = 0 ↔ Along pass Admits table messages) := by
  induction messages generalizing held system table with
  | nil => exact ⟨system, 0, rfl, h, by simp [Along]⟩
  | cons msg messages ih =>
    obtain ⟨next, hfirst, hnext⟩ := Holding.messageSeen h table msg
    obtain ⟨final, more, hrest, hfinal, hmore⟩ := ih hnext (table.messageSeen msg).table
    have hrun := run_append hfirst hrest
    rw [Along, pass]
    by_cases hadmits : table.Admits msg
    · rw [if_pos hadmits] at hfinal
      exact ⟨final, more, hrun, hfinal, by rw [hmore]; simp [hadmits]⟩
    · rw [if_neg hadmits, Nat.add_assoc] at hfinal
      exact ⟨final, 1 + more, hrun, hfinal, by simp [hadmits]⟩

/-- A call leaves the semaphore as often as it entered it exactly when the table has or gets an
entry for the sender; after any calls of one gateway thread another one is shut out unless that was
so in each of them. -/
theorem protector_released_iff {sema : Address} {thread : ThreadId} {system : System}
    (hfree : Holding sema thread 0 system) (table : SeenNodes) (messages : List NetworkMessage) :
    (∀ msg, (table.messageSeen msg).calls.count .enter =
        (table.messageSeen msg).calls.count .leave ↔ table.Admits msg) ∧
      ∃ final,
        run (ProtectorCall.make sema) system (table.protectorCalls messages) = some final ∧
        ∀ other ≠ thread, ¬ ShutOut sema final other ↔ Along pass Admits table messages := by
  constructor
  · intro msg
    rw [messageSeen_calls]
    by_cases hadmits : table.Admits msg <;> simp [hadmits]
  · obtain ⟨final, more, hrun, hfinal, hmore⟩ := Holding.protectorCalls hfree table messages
    refine ⟨final, hrun, fun other hother => ?_⟩
    rw [hfinal.shutOut_iff hother, Nat.zero_add, not_not, hmore]

/-- Threads 1 and 2, of which the first one runs. -/
def twoGateways : System :=
  let system := System.started [MAX_THREAD_PRIORITY, MAX_THREAD_PRIORITY]
  { system with kernel := { system.kernel with currentThread := 1 } }

theorem twoGateways_free : Holding 7 1 0 twoGateways :=
  ⟨rfl, by decide, rfl, fun _ => by simp [twoGateways, System.started], rfl, rfl⟩

/-- As many nodes as there is room for, and one of them again. -/
def tenNodes : List NetworkMessage :=
  (List.range 11).map fun i => stamped (Int32.ofNat (i % 10)) (Int64.ofNat i)

theorem protector_released_iff_tenNodes :
    ∃ final, run (ProtectorCall.make 7) twoGateways
        ((start fun _ => ⟨0, 0⟩).protectorCalls tenNodes) = some final ∧
      ¬ ShutOut 7 final 2 := by
  obtain ⟨final, hrun, hother⟩ :=
    (protector_released_iff twoGateways_free (start fun _ => ⟨0, 0⟩) tenNodes).2
  exact ⟨final, hrun, (hother 2 (by decide)).mpr (by decide)⟩

/-- A message of an eleventh node enters and does not leave, and thread 2 is shut out. -/
theorem protector_not_released :
    let full := (start fun _ => ⟨0, 0⟩).after tenNodes
    (full.messageSeen (stamped 10 0)).calls = [.enter] ∧
      (run (ProtectorCall.make 7) twoGateways (full.protectorCalls [stamped 10 0])).map
        (fun system => decide (ShutOut 7 system 2)) = some true := by
  decide

end SeenNodes

end Rodos.Gateway
