import Rodos.Support.RingBufferObjects

/-! Whole histories of a ring: which of the accepted objects it still holds. -/
namespace Rodos.Support
open Library ByteStreamRingBuffer

inductive Operation where
  | write (buf : Memory Int) (len : Int)
  | read (buf : Memory Int) (maxLen : Int)
  | reset

def ByteStreamRingBuffer.perform (WORDS : Int) (ring : ByteStreamRingBuffer) :
    Operation → ByteStreamRingBuffer
  | .write buf len => (ring.write WORDS buf len).2
  | .read buf maxLen => (ring.read WORDS buf maxLen).2.2
  | .reset => ring.reset

/-- The accepted objects in write order. Those before position `gone` have been read, have been
dropped to make room or were cleared by a reset; `readAt` lists the positions of the former. -/
structure Ledger where
  accepted : List StoredObject := []
  gone : Nat := 0
  readAt : List Nat := []

namespace Ledger

/-- The accepted objects that are neither read nor lost. -/
def retained (ledger : Ledger) : List StoredObject := ledger.accepted.drop ledger.gone

def perform (WORDS : Int) (ledger : Ledger) : Operation → Ledger
  | .write buf len =>
    if h : 0 < len ∧ wordsInObject len < WORDS then
      let object := StoredObject.ofBuffer buf len h.1
      { ledger with
        accepted := ledger.accepted ++ [object]
        gone := ledger.accepted.length + 1 - (afterWrite WORDS ledger.retained object).length }
    else ledger
  | .read _ _ =>
    match ledger.retained with
    | [] => ledger
    | _ :: _ => { ledger with gone := ledger.gone + 1, readAt := ledger.readAt ++ [ledger.gone] }
  | .reset => { ledger with gone := ledger.accepted.length }

/-- Objects written have a positive length, and a reader has room for the object it reads. -/
def Permits (ledger : Ledger) : Operation → Prop
  | .write _ len => 0 < len
  | .read _ maxLen => ∀ oldest ∈ ledger.retained.head?, oldest.len ≤ maxLen
  | .reset => True

def PermitsAll (WORDS : Int) (ledger : Ledger) : List Operation → Prop
  | [] => True
  | operation :: operations =>
    ledger.Permits operation ∧ (ledger.perform WORDS operation).PermitsAll WORDS operations

/-- Objects leave from the old end only, and none is read twice. -/
structure WellKept (ledger : Ledger) : Prop where
  gone_le : ledger.gone ≤ ledger.accepted.length
  readAt_lt : ∀ position ∈ ledger.readAt, position < ledger.gone
  readAt_increasing : ledger.readAt.Pairwise (· < ·)

theorem retained_write (WORDS : Int) (ledger : Ledger) (buf : Memory Int) {len : Int}
    (hlen : 0 < len) (haccepted : wordsInObject len < WORDS) :
    (ledger.perform WORDS (.write buf len)).retained =
      afterWrite WORDS ledger.retained (StoredObject.ofBuffer buf len hlen) := by
  have hkept := afterWrite_suffix WORDS ledger.retained (StoredObject.ofBuffer buf len hlen)
  have hsuffix := hkept.trans (List.suffix_append_self_iff.mpr (List.drop_suffix _ _))
  simp only [perform, dif_pos (And.intro hlen haccepted), retained]
  have hdrop := List.suffix_iff_eq_drop.mp hsuffix
  rw [List.length_append, List.length_singleton] at hdrop
  exact hdrop.symm

theorem retained_read (WORDS : Int) {ledger : Ledger} (buf : Memory Int) (maxLen : Int)
    {oldest : StoredObject} {newer : List StoredObject}
    (hretained : ledger.retained = oldest :: newer) :
    (ledger.perform WORDS (.read buf maxLen)).retained = newer := by
  rw [perform, hretained]
  simp only [retained] at hretained ⊢
  rw [← List.drop_drop, hretained]
  rfl

theorem gone_le_write (WORDS : Int) {ledger : Ledger} (h : ledger.WellKept)
    (object : StoredObject) :
    ledger.gone ≤
      ledger.accepted.length + 1 - (afterWrite WORDS ledger.retained object).length := by
  have hkept := (afterWrite_suffix WORDS ledger.retained object).length_le
  have hretained : ledger.retained.length = ledger.accepted.length - ledger.gone :=
    List.length_drop
  rw [List.length_append, List.length_singleton] at hkept
  have := h.gone_le
  omega

theorem WellKept.perform {WORDS : Int} {ledger : Ledger} (h : ledger.WellKept)
    (operation : Operation) : (ledger.perform WORDS operation).WellKept := by
  obtain ⟨hgone, hread, hincreasing⟩ := id h
  cases operation with
  | write buf len =>
    simp only [Ledger.perform]
    split
    · have hmore := gone_le_write WORDS h (StoredObject.ofBuffer buf len (by tauto))
      refine ⟨?_, fun position hposition => ?_, hincreasing⟩
      · rw [List.length_append, List.length_singleton]
        exact Nat.sub_le _ _
      · exact (hread position hposition).trans_le hmore
    · exact h
  | read buf maxLen =>
    simp only [Ledger.perform]
    split
    · exact h
    · next oldest newer hretained =>
      have hlength : ledger.retained.length = ledger.accepted.length - ledger.gone :=
        List.length_drop
      rw [hretained, List.length_cons] at hlength
      refine ⟨by dsimp only; omega, fun position hposition => ?_, ?_⟩
      · rcases List.mem_append.mp hposition with hold | hnew
        · exact (hread position hold).trans (Nat.lt_succ_self _)
        · rw [List.mem_singleton.mp hnew]
          exact Nat.lt_succ_self _
      · refine List.pairwise_append.mpr ⟨hincreasing, List.pairwise_singleton _ _, ?_⟩
        intro position hposition other hother
        rw [List.mem_singleton.mp hother]
        exact hread position hposition
  | reset =>
    exact ⟨Nat.le_refl _, fun position hposition => (hread position hposition).trans_le hgone,
      hincreasing⟩

end Ledger

/-- One operation keeps the ring in step with the ledger. -/
theorem content_perform {WORDS : Int} {ring : ByteStreamRingBuffer} {ledger : Ledger}
    (h : Content WORDS ring (allCells ledger.retained)) {operation : Operation}
    (hpermits : ledger.Permits operation) :
    Content WORDS (ring.perform WORDS operation)
      (allCells (ledger.perform WORDS operation).retained) := by
  cases operation with
  | write buf len =>
    by_cases haccepted : wordsInObject len < WORDS
    · rw [Ledger.retained_write WORDS ledger buf hpermits haccepted]
      exact (h.write buf hpermits haccepted).2
    · rw [ByteStreamRingBuffer.perform, write_rejected buf (not_lt.mp haccepted), Ledger.perform,
        dif_neg (fun hboth => haccepted hboth.2)]
      exact h
  | read buf maxLen =>
    cases hretained : ledger.retained with
    | nil =>
      rw [hretained] at h
      rw [ByteStreamRingBuffer.perform, h.read_empty, Ledger.perform, hretained]
      simp only [hretained]
      exact h
    | cons oldest newer =>
      rw [hretained] at h
      have hroom : oldest.len ≤ maxLen := hpermits oldest (by rw [hretained]; rfl)
      rw [Ledger.retained_read WORDS buf maxLen hretained]
      exact (h.read buf hroom).2.2
  | reset =>
    have hnone : (ledger.perform WORDS .reset).retained = [] := by
      simp [Ledger.perform, Ledger.retained]
    rw [hnone]
    exact h.reset

/-- The ring and its ledger after further operations. -/
def historyFrom (WORDS : Int) (state : ByteStreamRingBuffer × Ledger)
    (operations : List Operation) : ByteStreamRingBuffer × Ledger :=
  operations.foldl
    (fun state operation => (state.1.perform WORDS operation, state.2.perform WORDS operation))
    state

theorem historyFrom_invariant {WORDS : Int} {state : ByteStreamRingBuffer × Ledger}
    (hcontent : Content WORDS state.1 (allCells state.2.retained)) (hkept : state.2.WellKept)
    (operations : List Operation) (hpermits : state.2.PermitsAll WORDS operations) :
    Content WORDS (historyFrom WORDS state operations).1
        (allCells (historyFrom WORDS state operations).2.retained) ∧
      (historyFrom WORDS state operations).2.WellKept := by
  induction operations generalizing state with
  | nil => exact ⟨hcontent, hkept⟩
  | cons operation operations ih =>
    exact ih (content_perform hcontent hpermits.1) (hkept.perform operation) hpermits.2

def history (WORDS : Int) (operations : List Operation) : ByteStreamRingBuffer × Ledger :=
  historyFrom WORDS ({}, {}) operations

theorem history_invariant {WORDS : Int} (hWORDS : 0 < WORDS) (operations : List Operation)
    (hpermits : Ledger.PermitsAll WORDS {} operations) :
    Content WORDS (history WORDS operations).1
        (allCells (history WORDS operations).2.retained) ∧
      (history WORDS operations).2.WellKept :=
  historyFrom_invariant (content_initial hWORDS) ⟨Nat.le_refl _, by simp, List.Pairwise.nil⟩
    operations hpermits

/-- The first bytes of a run of words; `layout` is the order of the bytes in a word. -/
def leadingBytes (layout : Int → Fin 4 → UInt8) (words : List Int) (len : Int) : List UInt8 :=
  (words.flatMap fun word => List.ofFn (layout word)).take len.toNat

/-- After any history the words from `readX` up to `writeX` are the complete objects from one
position of the accepted objects on, none of which was read before. The next write answers
whether the object is accepted and keeps a run of newest objects; the next read delivers the
oldest object and takes just that one out. -/
theorem ring_holds_newest_accepted {WORDS : Int} (hWORDS : 0 < WORDS)
    (operations : List Operation) (hpermits : Ledger.PermitsAll WORDS {} operations) :
    let ring := (history WORDS operations).1
    let ledger := (history WORDS operations).2
    Content WORDS ring (allCells ledger.retained) ∧
      ledger.WellKept ∧
      (∀ buf len, ∀ hlen : 0 < len,
        (ring.write WORDS buf len).1 = decide (wordsInObject len < WORDS) ∧
        (wordsInObject len < WORDS →
          (ledger.perform WORDS (.write buf len)).accepted =
            ledger.accepted ++ [StoredObject.ofBuffer buf len hlen] ∧
          (ledger.perform WORDS (.write buf len)).retained <:+
            ledger.retained ++ [StoredObject.ofBuffer buf len hlen])) ∧
      (∀ buf maxLen, ledger.retained = [] → ring.read WORDS buf maxLen = (0, buf, ring)) ∧
      (∀ buf maxLen oldest newer, ledger.retained = oldest :: newer → oldest.len ≤ maxLen →
        (ring.read WORDS buf maxLen).1 = oldest.len ∧
        (ring.read WORDS buf maxLen).2.1.front oldest.words.length = oldest.words ∧
        (∀ layout, leadingBytes layout
            ((ring.read WORDS buf maxLen).2.1.front oldest.words.length) oldest.len =
          leadingBytes layout oldest.words oldest.len) ∧
        (ledger.perform WORDS (.read buf maxLen)).retained = newer) := by
  intro ring ledger
  obtain ⟨hcontent, hkept⟩ := history_invariant hWORDS operations hpermits
  refine ⟨hcontent, hkept, fun buf len hlen => ?_, fun buf maxLen hnone => ?_,
    fun buf maxLen oldest newer hretained hroom => ?_⟩
  · by_cases haccepted : wordsInObject len < WORDS
    · refine ⟨?_, fun _ => ⟨?_, ?_⟩⟩
      · rw [(Content.write hcontent buf hlen haccepted).1, decide_eq_true haccepted]
      · simp only [Ledger.perform, dif_pos (And.intro hlen haccepted)]
      · rw [Ledger.retained_write WORDS ledger buf hlen haccepted]
        exact afterWrite_suffix WORDS ledger.retained _
    · rw [write_rejected buf (not_lt.mp haccepted), decide_eq_false haccepted]
      exact ⟨rfl, fun h => absurd h haccepted⟩
  · have hempty : Content WORDS ring [] := by
      have := hcontent
      rwa [show (history WORDS operations).2.retained = [] from hnone] at this
    exact hempty.read_empty buf maxLen
  · have holdest : Content WORDS ring (allCells (oldest :: newer)) := hretained ▸ hcontent
    obtain ⟨hlen, hwords, -⟩ := holdest.read buf hroom
    exact ⟨hlen, hwords, fun layout => by rw [hwords],
      Ledger.retained_read WORDS buf maxLen hretained⟩

/-- In a ring of five words an object of six bytes drops one of five bytes and is read next. -/
theorem ring_holds_newest_accepted_dropping :
    ((history 5 [.write (fun i => i + 10) 5, .write (fun i => i + 20) 6]).1.read 5
      (fun _ => 0) 8).1 = 6 := by
  have hpermits : Ledger.PermitsAll 5 {}
      [.write (fun i => i + 10) 5, .write (fun i => i + 20) 6] := by
    simp [Ledger.PermitsAll, Ledger.Permits]
  obtain ⟨-, -, -, -, hread⟩ := ring_holds_newest_accepted (by decide) _ hpermits
  exact (hread (fun _ => 0) 8 (StoredObject.ofBuffer (fun i => i + 20) 6 (by decide)) [] rfl
    (by decide)).1

end Rodos.Support
