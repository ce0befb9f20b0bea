import Rodos.Library.Memory
import Rodos.Library.Runs
import Mathlib.Algebra.Group.Nat.Defs
import Mathlib.Data.Nat.Find

/-! `MonitoringMsg` as its receiver reads it: a cursor over the parameters, which the received
content itself moves. -/
namespace Rodos.Support
open Library

def MAX_PARAMS : Nat := 64

/-- A message with the memory from `params` on, of which `readable` bytes can be read. -/
structure MonitoringMsg where
  numOfParamsToSend : UInt8
  numOfParamsDeserialized : UInt8
  params : Memory UInt8
  readable : Nat
  enough : MAX_PARAMS ≤ readable

/-- What a call returns, if it does, the message behind it and the indices of the bytes it reads. -/
structure Call (α : Type) where
  returned : Option α
  msg : MonitoringMsg
  read : List Nat

/-- A call by the receiver. The `deserialize` of a type passes its size. -/
inductive Deserialization where
  | deserialize (len : Nat)
  | deserializeStringTo
  | deserializeNoCopy (len : Nat)
  | deserializeString

namespace MonitoringMsg

/-- Sums of `size_t`. -/
def newEnd (bits cursor len : Nat) : Nat := (cursor + len) % 2 ^ bits

/-- `serialize` of the sender, on `len` bytes. -/
def serialize (bits : Nat) (self : MonitoringMsg) (src : Memory UInt8) (len : Nat) :
    Bool × MonitoringMsg :=
  let newEnd := newEnd bits self.numOfParamsToSend.toNat len
  if newEnd ≥ MAX_PARAMS then (false, self)
  else
    (true, { self with
      params := Memory.copy self.params src self.numOfParamsToSend.toNat 0 len
      numOfParamsToSend := UInt8.ofNat newEnd })

def deserialize (bits : Nat) (self : MonitoringMsg) (len : Nat) : Call Bool :=
  let newEnd := newEnd bits self.numOfParamsDeserialized.toNat len
  if newEnd > self.numOfParamsToSend.toNat then ⟨some false, self, []⟩
  else
    ⟨some true, { self with numOfParamsDeserialized := UInt8.ofNat newEnd },
      List.range' self.numOfParamsDeserialized.toNat len⟩

/-- The index of the bytes that the caller is given a pointer to. -/
def deserializeNoCopy (bits : Nat) (self : MonitoringMsg) (len : Nat) : Call Nat :=
  let newEnd := newEnd bits self.numOfParamsDeserialized.toNat len
  ⟨some self.numOfParamsDeserialized.toNat,
    { self with numOfParamsDeserialized := UInt8.ofNat newEnd },
    List.range' self.numOfParamsDeserialized.toNat len⟩

/-- `strlen` from an index on, with `remaining` readable bytes. -/
def strlenFrom (params : Memory UInt8) : (remaining index : Nat) → Option Nat × List Nat
  | 0, index => (none, [index])
  | remaining + 1, index =>
    if params index = 0 then (some 0, [index])
    else
      let later := strlenFrom params remaining (index + 1)
      (later.1.map (· + 1), index :: later.2)

def strlen (self : MonitoringMsg) : Option Nat × List Nat :=
  strlenFrom self.params (self.readable - self.numOfParamsDeserialized.toNat)
    self.numOfParamsDeserialized.toNat

def deserializeStringTo (bits : Nat) (self : MonitoringMsg) : Call Bool :=
  match self.strlen with
  | (none, read) => ⟨none, self, read⟩
  | (some length, read) =>
    let call := self.deserialize bits (newEnd bits length 1)
    { call with read := read ++ call.read }

def deserializeString (bits : Nat) (self : MonitoringMsg) : Call Nat :=
  match self.strlen with
  | (none, read) => ⟨none, self, read⟩
  | (some length, read) =>
    let call := self.deserializeNoCopy bits (newEnd bits length 1)
    { call with read := read ++ call.read }

/-- The call, whatever it returns. -/
def perform (bits : Nat) (self : MonitoringMsg) : Deserialization → Call Unit
  | .deserialize len =>
    let call := self.deserialize bits len
    ⟨call.returned.map fun _ => (), call.msg, call.read⟩
  | .deserializeStringTo =>
    let call := self.deserializeStringTo bits
    ⟨call.returned.map fun _ => (), call.msg, call.read⟩
  | .deserializeNoCopy len =>
    let call := self.deserializeNoCopy bits len
    ⟨call.returned.map fun _ => (), call.msg, call.read⟩
  | .deserializeString =>
    let call := self.deserializeString bits
    ⟨call.returned.map fun _ => (), call.msg, call.read⟩

def step (bits : Nat) (self : MonitoringMsg) (call : Deserialization) : Option MonitoringMsg :=
  (self.perform bits call).returned.map fun _ => (self.perform bits call).msg

/-- The cursor is at most at the end of the parameters, and of the array. -/
def InBounds (self : MonitoringMsg) : Prop :=
  self.numOfParamsDeserialized.toNat ≤ self.numOfParamsToSend.toNat ∧
    self.numOfParamsDeserialized.toNat ≤ MAX_PARAMS

/-- A call reads in the array only and leaves the cursor in bounds. -/
def StaysInside (bits : Nat) (self : MonitoringMsg) (call : Deserialization) : Prop :=
  (∀ index ∈ (self.perform bits call).read, index < MAX_PARAMS) ∧
    (self.perform bits call).msg.InBounds

/-- A checked read is refused or ends in the array, an unchecked one ends in the parameters, and
strings are terminated there. -/
def Fits (bits : Nat) (self : MonitoringMsg) : Deserialization → Prop
  | .deserialize len =>
    self.numOfParamsToSend.toNat < newEnd bits self.numOfParamsDeserialized.toNat len ∨
      self.numOfParamsDeserialized.toNat + len ≤ MAX_PARAMS
  | .deserializeStringTo =>
    ∃ k, self.numOfParamsDeserialized.toNat ≤ k ∧ k < MAX_PARAMS ∧ self.params k = 0
  | .deserializeNoCopy len =>
    self.numOfParamsDeserialized.toNat + len ≤ self.numOfParamsToSend.toNat ∧
      self.numOfParamsDeserialized.toNat + len ≤ MAX_PARAMS
  | .deserializeString =>
    ∃ k, self.numOfParamsDeserialized.toNat ≤ k ∧ k < self.numOfParamsToSend.toNat ∧
      k < MAX_PARAMS ∧ self.params k = 0

variable {bits : Nat}

theorem newEnd_eq (hbits : 16 ≤ bits) {cursor len : Nat} (hsmall : cursor + len ≤ MAX_PARAMS) :
    newEnd bits cursor len = cursor + len := by
  have hpow : 2 ^ 16 ≤ 2 ^ bits := Nat.pow_le_pow_right (by decide) hbits
  simp only [MAX_PARAMS] at hsmall
  exact Nat.mod_eq_of_lt (by omega)

theorem toNat_ofNat_of_small {count : Nat} (hsmall : count ≤ MAX_PARAMS) :
    (UInt8.ofNat count).toNat = count := by
  simp only [MAX_PARAMS] at hsmall
  rw [UInt8.toNat_ofNat']
  omega

/-- What the sender appends stays in front of the last byte of the array. -/
theorem serialize_lt (msg : MonitoringMsg) (src : Memory UInt8) (len : Nat)
    (hlt : msg.numOfParamsToSend.toNat < MAX_PARAMS) :
    (msg.serialize bits src len).2.numOfParamsToSend.toNat < MAX_PARAMS := by
  unfold serialize
  by_cases hfull : newEnd bits msg.numOfParamsToSend.toNat len ≥ MAX_PARAMS
  · simp only [if_pos hfull]
    exact hlt
  · simp only [if_neg hfull]
    rw [toNat_ofNat_of_small (by omega)]
    omega

theorem forall_mem_range'_lt_iff {start len limit : Nat} (hstart : start ≤ limit) :
    (∀ index ∈ List.range' start len, index < limit) ↔ start + len ≤ limit := by
  simp only [List.mem_range'_1]
  constructor
  · intro h
    by_cases hnone : len = 0
    · omega
    · have hlast := h (start + len - 1) ⟨by omega, by omega⟩
      omega
  · rintro hle index ⟨_, hhigh⟩
    omega

/-- Where the search has been, what is read behind it decides. -/
theorem forall_mem_searched_iff {cursor length : Nat} (hend : cursor + length < MAX_PARAMS)
    (read : List Nat) :
    (∀ index ∈ List.range' cursor (length + 1) ++ read, index < MAX_PARAMS) ↔
      ∀ index ∈ read, index < MAX_PARAMS := by
  rw [List.forall_mem_append]
  apply and_iff_right
  exact (forall_mem_range'_lt_iff (by omega)).mpr hend

/-! ### Strings -/

theorem strlenFrom_of_terminated (params : Memory UInt8) {remaining index terminator : Nat}
    (hlow : index ≤ terminator) (hhigh : terminator < index + remaining)
    (hbefore : ∀ k, index ≤ k → k < terminator → params k ≠ 0)
    (hterminator : params terminator = 0) :
    strlenFrom params remaining index =
      (some (terminator - index), List.range' index (terminator - index + 1)) := by
  induction remaining generalizing index with
  | zero => omega
  | succ remaining ih =>
    rw [strlenFrom]
    by_cases hend : index = terminator
    · subst hend
      simp [hterminator]
    · have hlater := @ih (index + 1) (by omega) (by omega)
        (fun k hk => hbefore k (by omega))
      have hone : terminator - index = terminator - (index + 1) + 1 := by omega
      rw [if_neg (hbefore index (Nat.le_refl index) (by omega)), hlater, hone]
      rfl

/-- Without a terminator before it, a byte is read. -/
theorem mem_strlenFrom (params : Memory UInt8) {remaining index limit : Nat}
    (hlow : index ≤ limit) (hhigh : limit ≤ index + remaining)
    (hbefore : ∀ k, index ≤ k → k < limit → params k ≠ 0) :
    limit ∈ (strlenFrom params remaining index).2 := by
  induction remaining generalizing index with
  | zero =>
    have hlimit : limit = index := by omega
    simp [strlenFrom, hlimit]
  | succ remaining ih =>
    rw [strlenFrom]
    by_cases hfirst : limit = index
    · subst hfirst
      split <;> simp
    · rw [if_neg (hbefore index (Nat.le_refl index) (by omega))]
      apply List.mem_cons_of_mem
      exact ih (by omega) (by omega) fun k hk => hbefore k (by omega)

/-- The first terminator at or behind the cursor, if the array has one there. -/
theorem exists_first_terminator (params : Memory UInt8) {cursor k : Nat} (hlow : cursor ≤ k)
    (hk : params k = 0) :
    ∃ first, cursor ≤ first ∧ first ≤ k ∧ params first = 0 ∧
      ∀ j, cursor ≤ j → j < first → params j ≠ 0 := by
  have hsome : ∃ j, cursor ≤ j ∧ params j = 0 := ⟨k, hlow, hk⟩
  obtain ⟨hcursor, hzero⟩ := Nat.find_spec hsome
  refine ⟨Nat.find hsome, hcursor, Nat.find_min' hsome ⟨hlow, hk⟩, hzero, ?_⟩
  intro j hj hbefore hjzero
  exact Nat.find_min hsome hbefore ⟨hj, hjzero⟩

/-- `strlen` in a message: either it leaves the array, or it ends at the first terminator. -/
theorem strlen_cases (msg : MonitoringMsg)
    (hcursor : msg.numOfParamsDeserialized.toNat ≤ MAX_PARAMS) :
    (MAX_PARAMS ∈ msg.strlen.2 ∧
      ∀ k, msg.numOfParamsDeserialized.toNat ≤ k → k < MAX_PARAMS → msg.params k ≠ 0) ∨
    ∃ length, msg.strlen =
        (some length, List.range' msg.numOfParamsDeserialized.toNat (length + 1)) ∧
      msg.numOfParamsDeserialized.toNat + length < MAX_PARAMS ∧
      msg.params (msg.numOfParamsDeserialized.toNat + length) = 0 ∧
      ∀ k, msg.numOfParamsDeserialized.toNat ≤ k →
        k < msg.numOfParamsDeserialized.toNat + length → msg.params k ≠ 0 := by
  have henough := msg.enough
  by_cases hsome : ∃ k, msg.numOfParamsDeserialized.toNat ≤ k ∧ k < MAX_PARAMS ∧ msg.params k = 0
  · right
    obtain ⟨k, hlow, hhigh, hk⟩ := hsome
    obtain ⟨first, hcursorFirst, hfirst, hzero, hbefore⟩ :=
      exists_first_terminator msg.params hlow hk
    have hends : msg.numOfParamsDeserialized.toNat +
        (first - msg.numOfParamsDeserialized.toNat) = first := by omega
    refine ⟨first - msg.numOfParamsDeserialized.toNat, ?_, by omega, by rwa [hends], ?_⟩
    · exact strlenFrom_of_terminated msg.params hcursorFirst (by omega) hbefore hzero
    · rwa [hends]
  · left
    have hnone : ∀ k, msg.numOfParamsDeserialized.toNat ≤ k → k < MAX_PARAMS →
        msg.params k ≠ 0 := by
      intro k hlow hhigh hk
      exact hsome ⟨k, hlow, hhigh, hk⟩
    refine ⟨mem_strlenFrom msg.params hcursor ?_ hnone, hnone⟩
    omega

/-! ### One call -/

/-- A checked read inside the array moves the cursor to the end of what it read. -/
theorem deserialize_staysInside_iff (hbits : 16 ≤ bits) {msg : MonitoringMsg}
    (hinside : msg.InBounds) (len : Nat) :
    ((∀ index ∈ (msg.deserialize bits len).read, index < MAX_PARAMS) ∧
        (msg.deserialize bits len).msg.InBounds) ↔
      (msg.numOfParamsToSend.toNat < newEnd bits msg.numOfParamsDeserialized.toNat len ∨
        msg.numOfParamsDeserialized.toNat + len ≤ MAX_PARAMS) := by
  obtain ⟨hsent, hcursor⟩ := id hinside
  unfold deserialize
  by_cases hrefused :
      newEnd bits msg.numOfParamsDeserialized.toNat len > msg.numOfParamsToSend.toNat
  · simp [hrefused, hinside]
  · simp only [if_neg hrefused, forall_mem_range'_lt_iff hcursor]
    constructor
    · rintro ⟨hend, _⟩
      exact .inr hend
    · rintro (hmore | hend)
      · exact absurd hmore hrefused
      · rw [newEnd_eq hbits hend] at hrefused ⊢
        refine ⟨hend, ?_, ?_⟩
        · show (UInt8.ofNat _).toNat ≤ msg.numOfParamsToSend.toNat
          rw [toNat_ofNat_of_small hend]
          omega
        · show (UInt8.ofNat _).toNat ≤ MAX_PARAMS
          rw [toNat_ofNat_of_small hend]
          exact hend

theorem deserializeNoCopy_staysInside_iff (hbits : 16 ≤ bits) {msg : MonitoringMsg}
    (hinside : msg.InBounds) (len : Nat) :
    ((∀ index ∈ (msg.deserializeNoCopy bits len).read, index < MAX_PARAMS) ∧
        (msg.deserializeNoCopy bits len).msg.InBounds) ↔
      (msg.numOfParamsDeserialized.toNat + len ≤ msg.numOfParamsToSend.toNat ∧
        msg.numOfParamsDeserialized.toNat + len ≤ MAX_PARAMS) := by
  obtain ⟨_, hcursor⟩ := hinside
  simp only [deserializeNoCopy, forall_mem_range'_lt_iff hcursor]
  constructor
  · rintro ⟨hend, hsent, _⟩
    have hsent : (UInt8.ofNat _).toNat ≤ _ := hsent
    rw [newEnd_eq hbits hend, toNat_ofNat_of_small hend] at hsent
    exact ⟨hsent, hend⟩
  · rintro ⟨hsent, hend⟩
    have hmoved : (UInt8.ofNat (newEnd bits msg.numOfParamsDeserialized.toNat len)).toNat =
        msg.numOfParamsDeserialized.toNat + len := by
      rw [newEnd_eq hbits hend, toNat_ofNat_of_small hend]
    exact ⟨hend, le_of_eq_of_le hmoved hsent, le_of_eq_of_le hmoved hend⟩

/-- Whatever a string call does, it has searched for the terminator. -/
theorem strlen_subset_read (msg : MonitoringMsg) :
    msg.strlen.2 ⊆ (msg.deserializeStringTo bits).read ∧
      msg.strlen.2 ⊆ (msg.deserializeString bits).read := by
  unfold deserializeStringTo deserializeString
  obtain ⟨_ | length, read⟩ := msg.strlen <;> simp

theorem deserializeStringTo_staysInside_iff (hbits : 16 ≤ bits) {msg : MonitoringMsg}
    (hinside : msg.InBounds) :
    msg.StaysInside bits .deserializeStringTo ↔
      ∃ k, msg.numOfParamsDeserialized.toNat ≤ k ∧ k < MAX_PARAMS ∧ msg.params k = 0 := by
  obtain ⟨_, hcursor⟩ := id hinside
  obtain ⟨houtside, hnone⟩ | ⟨length, hstrlen, hend, hzero, _⟩ := strlen_cases msg hcursor
  · constructor
    · rintro ⟨hread, _⟩
      have hlast := hread MAX_PARAMS ((strlen_subset_read msg).1 houtside)
      exact absurd hlast (lt_irrefl MAX_PARAMS)
    · rintro ⟨k, hlow, hhigh, hk⟩
      exact absurd hk (hnone k hlow hhigh)
  · refine ⟨fun _ => ⟨_, Nat.le_add_right _ length, hend, hzero⟩, fun _ => ?_⟩
    have hone : newEnd bits length 1 = length + 1 := newEnd_eq hbits (by omega)
    obtain ⟨hread, hmsg⟩ :=
      (deserialize_staysInside_iff hbits hinside (length + 1)).mpr (.inr (by omega))
    unfold StaysInside
    simp only [perform, deserializeStringTo, hstrlen, hone]
    exact ⟨(forall_mem_searched_iff hend _).mpr hread, hmsg⟩

theorem deserializeString_staysInside_iff (hbits : 16 ≤ bits) {msg : MonitoringMsg}
    (hinside : msg.InBounds) :
    msg.StaysInside bits .deserializeString ↔
      ∃ k, msg.numOfParamsDeserialized.toNat ≤ k ∧ k < msg.numOfParamsToSend.toNat ∧
        k < MAX_PARAMS ∧ msg.params k = 0 := by
  obtain ⟨_, hcursor⟩ := id hinside
  obtain ⟨houtside, hnone⟩ | ⟨length, hstrlen, hend, hzero, hbefore⟩ := strlen_cases msg hcursor
  · constructor
    · rintro ⟨hread, _⟩
      have hlast := hread MAX_PARAMS ((strlen_subset_read msg).2 houtside)
      exact absurd hlast (lt_irrefl MAX_PARAMS)
    · rintro ⟨k, hlow, _, hhigh, hk⟩
      exact absurd hk (hnone k hlow hhigh)
  · have hone : newEnd bits length 1 = length + 1 := newEnd_eq hbits (by omega)
    have hcopy := deserializeNoCopy_staysInside_iff hbits hinside (length + 1)
    unfold StaysInside
    simp only [perform, deserializeString, hstrlen, hone]
    rw [forall_mem_searched_iff hend]
    apply hcopy.trans
    constructor
    · rintro ⟨hsent, _⟩
      exact ⟨_, Nat.le_add_right _ length, by omega, hend, hzero⟩
    · rintro ⟨k, hlow, hsent, hhigh, hk⟩
      have hfirst : msg.numOfParamsDeserialized.toNat + length ≤ k := by
        by_contra hearlier
        exact hbefore k hlow (by omega) hk
      exact ⟨by omega, by omega⟩

theorem staysInside_iff_fits (hbits : 16 ≤ bits) {msg : MonitoringMsg} (hinside : msg.InBounds)
    (call : Deserialization) : msg.StaysInside bits call ↔ msg.Fits bits call := by
  cases call with
  | deserialize len => exact deserialize_staysInside_iff hbits hinside len
  | deserializeStringTo => exact deserializeStringTo_staysInside_iff hbits hinside
  | deserializeNoCopy len => exact deserializeNoCopy_staysInside_iff hbits hinside len
  | deserializeString => exact deserializeString_staysInside_iff hbits hinside

/-- With as many parameters as a sender can announce, the reads of the basic types fit. -/
theorem fits_of_sent (hbits : 16 ≤ bits) {msg : MonitoringMsg} (hinside : msg.InBounds)
    (hsent : msg.numOfParamsToSend.toNat < MAX_PARAMS) {len : Nat} (hlen : len < 2 ^ 15) :
    msg.Fits bits (.deserialize len) := by
  obtain ⟨_, hcursor⟩ := hinside
  have hpow : 2 ^ 16 ≤ 2 ^ bits := Nat.pow_le_pow_right (by decide) hbits
  simp only [MAX_PARAMS] at hcursor
  have hexact : newEnd bits msg.numOfParamsDeserialized.toNat len =
      msg.numOfParamsDeserialized.toNat + len := Nat.mod_eq_of_lt (by omega)
  simp only [Fits, hexact]
  omega

theorem inBounds_of_step {msg next : MonitoringMsg} {call : Deserialization}
    (hstays : msg.StaysInside bits call) (hstep : msg.step bits call = some next) :
    next.InBounds := by
  obtain ⟨_, _, rfl⟩ := Option.map_eq_some_iff.mp hstep
  exact hstays.2

/-! ### Runs of calls -/

/-- Reading a received message never leaves its parameters exactly if the content starts the
cursor inside and every call fits. -/
theorem stays_inside_iff (hbits : 16 ≤ bits) (msg : MonitoringMsg) (calls : List Deserialization) :
    (msg.InBounds ∧ Along (step bits) (StaysInside bits) msg calls) ↔
      (msg.InBounds ∧ Along (step bits) (Fits bits) msg calls) := by
  apply and_congr_right
  intro hinside
  exact along_iff_of_keeps (fun _ call hbounds => staysInside_iff_fits hbits hbounds call)
    (fun _ _ _ => inBounds_of_step) hinside calls

/-- A message of eight parameters in memory that ends with the array. -/
def eightSent : MonitoringMsg := ⟨8, 0, fun _ => 7, MAX_PARAMS, Nat.le_refl MAX_PARAMS⟩

theorem stays_inside_iff_eightSent :
    (eightSent.InBounds ∧
        Along (step 64) (StaysInside 64) eightSent [.deserialize 4, .deserialize 8]) ↔
      (eightSent.InBounds ∧
        Along (step 64) (Fits 64) eightSent [.deserialize 4, .deserialize 8]) :=
  stays_inside_iff (by decide) eightSent [.deserialize 4, .deserialize 8]

/-- Content that announces 72 parameters: the ninth read of eight bytes is behind the array, and
not refused. -/
theorem reads_behind_the_array :
    let received : MonitoringMsg := { eightSent with numOfParamsToSend := 72 }
    received.InBounds ∧
      ¬ Along (step 64) (StaysInside 64) received (List.replicate 9 (.deserialize 8)) := by
  refine ⟨⟨by decide, by decide⟩, ?_⟩
  rintro ⟨-, -, -, -, -, -, -, -, ⟨hread, -⟩, -⟩
  exact absurd (hread 64 (by decide)) (by decide)

end MonitoringMsg

end Rodos.Support
