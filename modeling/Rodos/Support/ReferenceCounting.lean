import Rodos.Support.AllocableObjects

/-! The counts of `AllocableObjects` are those of the pointers that are alive, whatever is done with
these. -/
namespace Rodos.Support
open Library

namespace AllocableObjects

/-- The pool counts so many references to each of its objects. -/
structure Counts (LENGTH : UInt32) (pool : AllocableObjects) (live : Nat → Nat) : Prop where
  referenceCnt_eq : ∀ i < LENGTH.toNat, (pool.referenceCnt i).toNat = live i
  freeCnt_eq : pool.freeCnt.toNat = census (Finset.range LENGTH.toNat) live (· = 0)

section counts

variable {buffer LENGTH : UInt32} {pool : AllocableObjects} {live : Nat → Nat} {i : Nat}

theorem counts_constructed (LENGTH : UInt32) : Counts LENGTH (constructed LENGTH) fun _ => 0 where
  referenceCnt_eq _ _ := rfl
  freeCnt_eq := by simp [constructed, census]

theorem toNat_index (hi : i < LENGTH.toNat) : (UInt32.ofNat i).toNat = i :=
  UInt32.toNat_ofNat_of_lt' (hi.trans LENGTH.toNat_lt)

theorem inside (hi : i < LENGTH.toNat) : ¬ LENGTH ≤ UInt32.ofNat i := by
  rw [UInt32.le_iff_toNat_le, toNat_index hi]
  exact Nat.not_le.mpr hi

theorem indexOf_item (hi : i < LENGTH.toNat) :
    indexOf buffer LENGTH (buffer + UInt32.ofNat i) = .ok (UInt32.ofNat i) := by
  have hindex : buffer + UInt32.ofNat i - buffer = UInt32.ofNat i := by
    rw [UInt32.add_comm, UInt32.add_sub_cancel]
  have hle : ¬ UInt32.ofNat i > LENGTH := by
    rw [gt_iff_lt, UInt32.lt_iff_toNat_lt, toNat_index hi]
    omega
  rw [indexOf, hindex, if_neg hle]

theorem item_inj {j : Nat} (hi : i < LENGTH.toNat) (hj : j < LENGTH.toNat)
    (hsame : buffer + UInt32.ofNat i = buffer + UInt32.ofNat j) : i = j := by
  have hofNat := (UInt32.add_right_inj buffer).mp hsame
  have htoNat := congrArg UInt32.toNat hofNat
  rwa [toNat_index hi, toNat_index hj] at htoNat

theorem Counts.congr (h : Counts LENGTH pool live) {live' : Nat → Nat}
    (hsame : ∀ i < LENGTH.toNat, live i = live' i) : Counts LENGTH pool live' where
  referenceCnt_eq i hi := (h.referenceCnt_eq i hi).trans (hsame i hi)
  freeCnt_eq := h.freeCnt_eq.trans (census_congr fun i hi => by
    rw [hsame i (Finset.mem_range.mp hi)])

theorem census_free (live : Nat → Nat) (hi : i < LENGTH.toNat) (cnt : Nat) :
    census (Finset.range LENGTH.toNat) (Function.update live i cnt) (· = 0) +
        (if live i = 0 then 1 else 0) =
      census (Finset.range LENGTH.toNat) live (· = 0) + if cnt = 0 then 1 else 0 :=
  census_update (Finset.mem_range.mpr hi) cnt

/-- A count is set, and the free objects are counted again. -/
theorem Counts.update (h : Counts LENGTH pool live) (hi : i < LENGTH.toNat) {cnt freeCnt : UInt32}
    (hfreeCnt : freeCnt.toNat + (if live i = 0 then 1 else 0) =
      pool.freeCnt.toNat + if cnt.toNat = 0 then 1 else 0) :
    Counts LENGTH ⟨Function.update pool.referenceCnt i cnt, freeCnt⟩
      (Function.update live i cnt.toNat) where
  referenceCnt_eq j hj := by
    change (Function.update pool.referenceCnt i cnt j).toNat = Function.update live i cnt.toNat j
    by_cases hsame : j = i
    · subst hsame
      rw [Function.update_self, Function.update_self]
    · rw [Function.update_of_ne hsame, Function.update_of_ne hsame]
      exact h.referenceCnt_eq j hj
  freeCnt_eq := by
    have hcensus := census_free live hi cnt.toNat
    rw [h.freeCnt_eq, ← hcensus] at hfreeCnt
    exact Nat.add_right_cancel hfreeCnt

/-- An object with references is not among the free ones. -/
theorem Counts.freeCnt_lt (h : Counts LENGTH pool live) (hi : i < LENGTH.toNat)
    (hpos : 0 < live i) : pool.freeCnt.toNat < LENGTH.toNat := by
  have hcensus := census_free live hi 0
  rw [if_neg (Nat.ne_of_gt hpos), if_pos rfl, ← h.freeCnt_eq] at hcensus
  have hle : census (Finset.range LENGTH.toNat) (Function.update live i 0) (· = 0) ≤
      LENGTH.toNat := census_le.trans (Finset.card_range _).le
  omega

/-- A reference is let go. -/
theorem Counts.free (h : Counts LENGTH pool live) (buffer : UInt32) (hi : i < LENGTH.toNat)
    (hpos : 0 < live i) :
    ∃ after, pool.free buffer LENGTH (buffer + UInt32.ofNat i) = some (true, after) ∧
      Counts LENGTH after (Function.update live i (live i - 1)) := by
  have hindex := toNat_index hi
  have hcnt := h.referenceCnt_eq i hi
  have hone : ¬ pool.referenceCnt i < 1 := by
    rw [UInt32.lt_iff_toNat_lt, hcnt]
    exact Nat.not_lt.mpr hpos
  have hless : (pool.referenceCnt i - 1).toNat = live i - 1 := by
    rw [UInt32.toNat_sub_of_le _ _ (UInt32.not_lt.mp hone), hcnt]
    rfl
  have hfree : pool.free buffer LENGTH (buffer + UInt32.ofNat i) =
      some (true, ⟨Function.update pool.referenceCnt i (pool.referenceCnt i - 1),
        if pool.referenceCnt i - 1 = 0 then pool.freeCnt + 1 else pool.freeCnt⟩) := by
    simp only [AllocableObjects.free, indexOf_item hi, hindex, if_neg (inside hi), if_neg hone,
      Function.update_self]
  refine ⟨_, hfree, ?_⟩
  rw [← hless]
  apply h.update hi
  rw [if_neg (Nat.ne_of_gt hpos)]
  by_cases hzero : pool.referenceCnt i - 1 = 0
  · have hnoWrap := Nat.lt_of_le_of_lt (h.freeCnt_lt hi hpos) LENGTH.toNat_lt
    rw [if_pos hzero, hzero, UInt32.toNat_add]
    exact Nat.mod_eq_of_lt hnoWrap
  · have hsome : (pool.referenceCnt i - 1).toNat ≠ 0 := fun hnone =>
      hzero (UInt32.toNat_inj.mp hnone)
    rw [if_neg hzero, if_neg hsome]

/-- A reference is added. -/
theorem Counts.copyReference (h : Counts LENGTH pool live) (buffer : UInt32)
    (hi : i < LENGTH.toNat) (hpos : 0 < live i) (hfew : live i + 1 < 2 ^ 32) :
    ∃ after, pool.copyReference buffer LENGTH (buffer + UInt32.ofNat i) =
        some (buffer + UInt32.ofNat i, after) ∧
      Counts LENGTH after (Function.update live i (live i + 1)) := by
  have hindex := toNat_index hi
  have hcnt := h.referenceCnt_eq i hi
  have hsome : ¬ pool.referenceCnt i = 0 := by
    intro hnone
    rw [hnone] at hcnt
    exact Nat.ne_of_lt hpos hcnt
  have hmore : (pool.referenceCnt i + 1).toNat = live i + 1 := by
    rw [UInt32.toNat_add, hcnt]
    exact Nat.mod_eq_of_lt hfew
  have hcopy : pool.copyReference buffer LENGTH (buffer + UInt32.ofNat i) =
      some (buffer + UInt32.ofNat i,
        ⟨Function.update pool.referenceCnt i (pool.referenceCnt i + 1), pool.freeCnt⟩) := by
    simp only [AllocableObjects.copyReference, indexOf_item hi, hindex, if_neg (inside hi),
      if_neg hsome]
  refine ⟨_, hcopy, ?_⟩
  rw [← hmore]
  apply h.update hi
  rw [if_neg (Nat.ne_of_gt hpos), hmore, if_neg (Nat.succ_ne_zero _)]

/-- A free object is handed out with one reference, if there is one. -/
theorem Counts.alloc (h : Counts LENGTH pool live) (buffer : UInt32) (self : PoolAddress) :
    ((∀ i < LENGTH.toNat, live i ≠ 0) ∧
        pool.alloc buffer LENGTH self = some (.error .MEMORY, pool)) ∨
      ∃ i after, i < LENGTH.toNat ∧ live i = 0 ∧
        pool.alloc buffer LENGTH self =
          some (.ok ⟨some self, buffer + UInt32.ofNat i⟩, after) ∧
        Counts LENGTH after (Function.update live i 1) := by
  rcases hfind : pool.findFree LENGTH with - | i
  · refine .inl ⟨fun i hi hnone => ?_, by rw [AllocableObjects.alloc, hfind]⟩
    have hused := List.find?_eq_none.mp hfind i (List.mem_range.mpr hi)
    have hcnt := h.referenceCnt_eq i hi
    rw [hnone] at hcnt
    exact hused (by simpa using UInt32.toNat_inj.mp hcnt)
  · have hi : i < LENGTH.toNat := List.mem_range.mp (List.mem_of_find?_eq_some hfind)
    have hcnt : pool.referenceCnt i = 0 := by simpa using List.find?_some hfind
    have hlive : live i = 0 := by rw [← h.referenceCnt_eq i hi, hcnt]; rfl
    have hfreeCnt : 0 < pool.freeCnt.toNat := by
      rw [h.freeCnt_eq]
      exact census_pos (Finset.mem_range.mpr hi) hlive
    have htaken : Counts LENGTH ⟨Function.update pool.referenceCnt i 1, pool.freeCnt - 1⟩
        (Function.update live i 1) := by
      apply h.update hi
      rw [if_pos hlive, UInt32.toNat_sub_of_le]
      · exact Nat.sub_add_cancel hfreeCnt
      · exact UInt32.le_iff_toNat_le.mpr hfreeCnt
    obtain ⟨copied, hcopied, hboth⟩ := htaken.copyReference buffer hi (by simp) (by simp)
    obtain ⟨freed, hfreed, hone⟩ := hboth.free buffer hi (by simp)
    refine .inr ⟨i, freed, hi, hlive, ?_, ?_⟩
    · rw [AllocableObjects.alloc, hfind]
      simp only [hcopied, hfreed]
    · simpa using hone

end counts

end AllocableObjects

open AllocableObjects

section pointers

variable {buffer LENGTH : PoolAddress → UInt32} {pools : Pools}
  {live total : PoolAddress → Nat → Nat} {ptr : SharedPtr} {pool : PoolAddress} {i : Nat}

/-- What a place, where a pointer can live, contributes to the references of an object. -/
def weight (buffer : PoolAddress → UInt32) (ptr : Option SharedPtr) (pool : PoolAddress) (i : Nat) :
    Nat :=
  if ptr = some ⟨some pool, buffer pool + UInt32.ofNat i⟩ then 1 else 0

/-- A pointer to a pool is one to an object of it. -/
def Pointing (buffer LENGTH : PoolAddress → UInt32) (ptr : SharedPtr) : Prop :=
  ∀ pool, ptr.objectsPool = some pool →
    ∃ i < (LENGTH pool).toNat, ptr.objectPointer = buffer pool + UInt32.ofNat i

def Counted (LENGTH : PoolAddress → UInt32) (pools : Pools) (live : PoolAddress → Nat → Nat) :
    Prop :=
  ∀ pool, Counts (LENGTH pool) (pools pool) (live pool)

theorem weight_none (pool : PoolAddress) (i : Nat) : weight buffer none pool i = 0 :=
  if_neg nofun

theorem weight_of_invalid (hinvalid : ptr.objectsPool = none) (pool : PoolAddress) (i : Nat) :
    weight buffer (some ptr) pool i = 0 := by
  refine if_neg fun hsame => ?_
  rw [Option.some.inj hsame] at hinvalid
  cases hinvalid

theorem weight_self (buffer : PoolAddress → UInt32) (pool : PoolAddress) (i : Nat) :
    weight buffer (some ⟨some pool, buffer pool + UInt32.ofNat i⟩) pool i = 1 :=
  if_pos rfl

theorem weight_item (hi : i < (LENGTH pool).toNat) {j : Nat} (hj : j < (LENGTH pool).toNat) :
    weight buffer (some ⟨some pool, buffer pool + UInt32.ofNat i⟩) pool j =
      if j = i then 1 else 0 := by
  by_cases hsame : j = i
  · rw [hsame, weight_self, if_pos rfl]
  · rw [weight, if_neg hsame, if_neg]
    intro hitem
    exact hsame (item_inj hj hi (SharedPtr.mk.inj (Option.some.inj hitem)).2.symm)

theorem weight_other {other : PoolAddress} (hother : other ≠ pool) (item : UInt32) (j : Nat) :
    weight buffer (some ⟨some pool, item⟩) other j = 0 := by
  refine if_neg fun hsame => hother ?_
  exact (Option.some.inj (SharedPtr.mk.inj (Option.some.inj hsame)).1).symm

/-- Only one count of one pool is changed. -/
theorem Counted.update (h : Counted LENGTH pools live) {live' : PoolAddress → Nat → Nat}
    {next : AllocableObjects} (hnext : Counts (LENGTH pool) next (live' pool))
    (hrest : ∀ other, other ≠ pool → ∀ i, live other i = live' other i) :
    Counted LENGTH (Function.update pools pool next) live' := by
  intro other
  by_cases hother : other = pool
  · subst hother
    rw [Function.update_self]
    exact hnext
  · rw [Function.update_of_ne hother]
    exact (h other).congr fun i _ => hrest other hother i

/-- A pointer lets its object go, which has one reference less then. -/
theorem Counted.free (h : Counted LENGTH pools total) (hptr : Pointing buffer LENGTH ptr)
    (htotal : ∀ pool i, total pool i = live pool i + weight buffer (some ptr) pool i) :
    ∃ after, ptr.free buffer LENGTH pools = some after ∧ Counted LENGTH after live := by
  obtain ⟨- | pool, item⟩ := ptr
  · refine ⟨pools, rfl, fun pool => (h pool).congr fun i _ => ?_⟩
    exact (htotal pool i).trans (congrArg (live pool i + ·) (weight_of_invalid rfl pool i))
  · obtain ⟨i, hi, hitem⟩ := hptr pool rfl
    change item = _ at hitem
    subst hitem
    have hone : total pool i = live pool i + 1 := by rw [htotal, weight_self]
    have hpos : 0 < total pool i := hone ▸ Nat.succ_pos _
    obtain ⟨next, hfree, hnext⟩ := (h pool).free (buffer pool) hi hpos
    refine ⟨Function.update pools pool next, ?_, ?_⟩
    · simp only [SharedPtr.free, hfree, Option.map_some]
    · refine h.update (hnext.congr fun j hj => ?_) fun other hother j => ?_
      · by_cases hsame : j = i
        · rw [hsame, Function.update_self, hone, Nat.add_sub_cancel]
        · rw [Function.update_of_ne hsame, htotal, weight_item hi hj, if_neg hsame, Nat.add_zero]
      · rw [htotal, weight_other hother, Nat.add_zero]

/-- A pointer takes an object that another one holds, which has one reference more then. -/
theorem Counted.copyReference (h : Counted LENGTH pools live) (hptr : Pointing buffer LENGTH ptr)
    (htotal : ∀ pool i, total pool i = live pool i + weight buffer (some ptr) pool i)
    (hroom : ∀ pool i, weight buffer (some ptr) pool i = 1 →
      0 < live pool i ∧ total pool i < 2 ^ 32) :
    ∃ after, ptr.copyReference buffer LENGTH pools = some after ∧ Counted LENGTH after total := by
  obtain ⟨- | pool, item⟩ := ptr
  · refine ⟨pools, rfl, fun pool => (h pool).congr fun i _ => ?_⟩
    exact ((htotal pool i).trans (congrArg (live pool i + ·) (weight_of_invalid rfl pool i))).symm
  · obtain ⟨i, hi, hitem⟩ := hptr pool rfl
    change item = _ at hitem
    subst hitem
    have hone : total pool i = live pool i + 1 := by rw [htotal, weight_self]
    obtain ⟨hpos, hfew⟩ := hroom pool i (weight_self buffer pool i)
    rw [hone] at hfew
    obtain ⟨next, hcopy, hnext⟩ := (h pool).copyReference (buffer pool) hi hpos hfew
    refine ⟨Function.update pools pool next, ?_, ?_⟩
    · simp only [SharedPtr.copyReference, hcopy, Option.map_some]
    · refine h.update (hnext.congr fun j hj => ?_) fun other hother j => ?_
      · by_cases hsame : j = i
        · rw [hsame, Function.update_self, hone]
        · rw [Function.update_of_ne hsame, htotal, weight_item hi hj, if_neg hsame, Nat.add_zero]
      · rw [htotal, weight_other hother, Nat.add_zero]

end pointers

namespace SharedMemory

variable {buffer LENGTH : PoolAddress → UInt32} {memory : SharedMemory} {pool : PoolAddress}
  {this : PointerAddress} {old other : SharedPtr}

theorem references_store (buffer : PoolAddress → UInt32) (memory : SharedMemory)
    (this : PointerAddress) (ptr : Option SharedPtr) (pool : PoolAddress) (i : Nat) :
    (memory.store this ptr).references buffer pool i + weight buffer (memory.pointers this) pool i =
      memory.references buffer pool i + weight buffer ptr pool i :=
  census_update (Finset.mem_univ this) ptr

theorem pointers_store (memory : SharedMemory) (this : PointerAddress) (ptr : Option SharedPtr) :
    (memory.store this ptr).pointers this = ptr :=
  Function.update_self _ _ _

/-- The store of a new value replaces that of an earlier one. -/
theorem store_store (memory : SharedMemory) (this : PointerAddress) (first ptr : Option SharedPtr) :
    (memory.store this first).store this ptr = memory.store this ptr := by
  simp [store]

theorem copyConstruct_store (memory : SharedMemory) (this : PointerAddress)
    (first : Option SharedPtr) (other : SharedPtr) :
    (memory.store this first).copyConstruct buffer LENGTH this other =
      memory.copyConstruct buffer LENGTH this other := by
  rw [SharedMemory.copyConstruct, SharedMemory.copyConstruct]
  refine congrArg (Option.map · _) (funext fun pools => ?_)
  exact store_store { memory with pools := pools } this first (some other)

/-- The invariant: the counts are those of the pointers that are alive. -/
structure Counting (buffer LENGTH : PoolAddress → UInt32) (memory : SharedMemory) : Prop where
  counted : Counted LENGTH memory.pools (memory.references buffer)
  pointing : ∀ address ptr, memory.pointers address = some ptr → Pointing buffer LENGTH ptr

theorem counting_constructed (buffer LENGTH : PoolAddress → UInt32) :
    Counting buffer LENGTH (constructed LENGTH) where
  counted pool := (counts_constructed (LENGTH pool)).congr fun i _ => by
    have hnone : (constructed LENGTH).references buffer pool i = 0 :=
      census_eq_zero.mpr fun _ _ => nofun
    exact hnone.symm
  pointing _ _ := nofun

theorem pointing_null : Pointing buffer LENGTH {} := fun _ => nofun

/-- The pointers that are alive after one of them has been stored. -/
theorem pointing_store {ptr : Option SharedPtr}
    (h : ∀ address ptr, memory.pointers address = some ptr → Pointing buffer LENGTH ptr)
    (hptr : ∀ new, ptr = some new → Pointing buffer LENGTH new) (address : PointerAddress)
    (found : SharedPtr) (hfound : (memory.store this ptr).pointers address = some found) :
    Pointing buffer LENGTH found := by
  change Function.update memory.pointers this ptr address = some found at hfound
  by_cases hthis : address = this
  · rw [hthis, Function.update_self] at hfound
    exact hptr found hfound
  · rw [Function.update_of_ne hthis] at hfound
    exact h address found hfound

namespace Counting

theorem store_null (h : Counting buffer LENGTH memory) (hnew : memory.pointers this = none) :
    Counting buffer LENGTH (memory.store this (some {})) where
  counted pool := (h.counted pool).congr fun i _ => by
    have hreferences := references_store buffer memory this (some {}) pool i
    rw [hnew, weight_none, weight_of_invalid rfl, Nat.add_zero, Nat.add_zero] at hreferences
    exact hreferences.symm
  pointing := pointing_store h.pointing fun _ hsame => Option.some.inj hsame ▸ pointing_null

/-- A pointer dies, and what it pointed to has one reference less. -/
theorem free (h : Counting buffer LENGTH memory) (hold : memory.pointers this = some old) :
    ∃ pools, old.free buffer LENGTH memory.pools = some pools ∧
      Counting buffer LENGTH ({ memory with pools := pools }.store this none) := by
  have htotal (pool : PoolAddress) (i : Nat) : memory.references buffer pool i =
      (memory.store this none).references buffer pool i + weight buffer (some old) pool i := by
    rw [← hold, references_store, weight_none, Nat.add_zero]
  obtain ⟨pools, hfree, hafter⟩ := h.counted.free (h.pointing this old hold) htotal
  exact ⟨pools, hfree, hafter, pointing_store h.pointing nofun⟩

theorem copyConstruct (h : Counting buffer LENGTH memory) (hnew : memory.pointers this = none)
    {address : PointerAddress} (hother : memory.pointers address = some other) :
    ∃ after, memory.copyConstruct buffer LENGTH this other = some after ∧
      Counting buffer LENGTH after := by
  have hstore (pool : PoolAddress) (i : Nat) :
      (memory.store this (some other)).references buffer pool i =
        memory.references buffer pool i + weight buffer (some other) pool i := by
    rw [← references_store, hnew, weight_none, Nat.add_zero]
  have hpointing := h.pointing address other hother
  have hroom (pool : PoolAddress) (i : Nat) (hone : weight buffer (some other) pool i = 1) :
      0 < memory.references buffer pool i ∧
        (memory.store this (some other)).references buffer pool i < 2 ^ 32 := by
    have hitem : some other = some ⟨some pool, buffer pool + UInt32.ofNat i⟩ := by
      by_contra hdiffers
      rw [weight, if_neg hdiffers] at hone
      cases hone
    have hmost : (memory.store this (some other)).references buffer pool i ≤ 0xFFFFFFFF :=
      census_le.trans_eq (Finset.card_fin _)
    exact ⟨census_pos (Finset.mem_univ address) (hother.trans hitem),
      Nat.lt_of_le_pred (by simp) hmost⟩
  obtain ⟨pools, hcopy, hafter⟩ := h.counted.copyReference hpointing hstore hroom
  refine ⟨_, by rw [SharedMemory.copyConstruct, hcopy]; rfl, hafter, ?_⟩
  exact pointing_store h.pointing fun _ hsame => Option.some.inj hsame ▸ hpointing

theorem clear (h : Counting buffer LENGTH memory) (hold : memory.pointers this = some old) :
    ∃ after, memory.clear buffer LENGTH this old = some after ∧ Counting buffer LENGTH after := by
  obtain ⟨pools, hfree, hafter⟩ := h.free hold
  have hnull := hafter.store_null (pointers_store _ this none)
  rw [store_store] at hnull
  exact ⟨_, by rw [SharedMemory.clear, hfree]; rfl, hnull⟩

theorem destruct (h : Counting buffer LENGTH memory) (hold : memory.pointers this = some old) :
    ∃ after, memory.destruct buffer LENGTH this old = some after ∧
      Counting buffer LENGTH after := by
  obtain ⟨pools, hfree, hafter⟩ := h.free hold
  exact ⟨_, by rw [SharedMemory.destruct, hfree]; rfl, hafter⟩

/-- The other pointer keeps its object alive while the old one is let go, even if both were the
same. -/
theorem assign (h : Counting buffer LENGTH memory) {address : PointerAddress}
    (hold : memory.pointers this = some old) (hother : memory.pointers address = some other) :
    ∃ after, memory.assign buffer LENGTH this address old other = some after ∧
      Counting buffer LENGTH after := by
  rw [SharedMemory.assign]
  by_cases hself : this = address
  · rw [if_pos hself]
    exact ⟨memory, rfl, h⟩
  · rw [if_neg hself]
    obtain ⟨pools, hfree, hafter⟩ := h.free hold
    have hstill : ({ memory with pools := pools }.store this none).pointers address = some other :=
      (Function.update_of_ne (Ne.symm hself) _ _).trans hother
    obtain ⟨after, hcopy, hcounting⟩ := hafter.copyConstruct (pointers_store _ this none) hstill
    rw [copyConstruct_store] at hcopy
    exact ⟨after, by rw [hfree]; exact hcopy, hcounting⟩

theorem alloc (h : Counting buffer LENGTH memory) (pool : PoolAddress) :
    ((∀ i < (LENGTH pool).toNat, memory.references buffer pool i ≠ 0) ∧
        memory.alloc buffer LENGTH pool = some (.error .MEMORY, memory)) ∨
      ∃ i after, i < (LENGTH pool).toNat ∧ memory.references buffer pool i = 0 ∧
        memory.alloc buffer LENGTH pool =
          some (.ok ⟨some pool, buffer pool + UInt32.ofNat i⟩, after) ∧
        ∀ this, memory.pointers this = none →
          Counting buffer LENGTH
            (after.store this (some ⟨some pool, buffer pool + UInt32.ofNat i⟩)) := by
  obtain ⟨hused, hfails⟩ | ⟨i, next, hi, hfree, halloc, hnext⟩ :=
    (h.counted pool).alloc (buffer pool) pool
  · refine .inl ⟨hused, ?_⟩
    rw [SharedMemory.alloc, hfails]
    simp only [Option.map_some, Function.update_eq_self]
  · refine .inr ⟨i, _, hi, hfree, by rw [SharedMemory.alloc, halloc]; rfl, fun this hnew => ?_⟩
    have hstore (other : PoolAddress) (j : Nat) :
        (memory.store this (some ⟨some pool, buffer pool + UInt32.ofNat i⟩)).references buffer
            other j =
          memory.references buffer other j +
            weight buffer (some ⟨some pool, buffer pool + UInt32.ofNat i⟩) other j := by
      rw [← references_store, hnew, weight_none, Nat.add_zero]
    refine ⟨h.counted.update (hnext.congr fun j hj => ?_) fun other hother j => ?_, ?_⟩
    · refine Eq.trans ?_ (hstore pool j).symm
      rw [weight_item hi hj]
      by_cases hsame : j = i
      · rw [hsame, Function.update_self, hfree, if_pos rfl]
      · rw [Function.update_of_ne hsame, if_neg hsame, Nat.add_zero]
    · refine Eq.trans ?_ (hstore other j).symm
      rw [weight_other hother, Nat.add_zero]
    · refine pointing_store h.pointing fun new hsame => ?_
      rw [← Option.some.inj hsame]
      rintro other hother
      cases hother
      exact ⟨i, hi, rfl⟩

/-- Every call that the users may make goes through and keeps the counts right. -/
theorem call (h : Counting buffer LENGTH memory) (call : PointerCall)
    (hallows : memory.Allows call) :
    ∃ after, memory.call buffer LENGTH call = some after ∧ Counting buffer LENGTH after := by
  cases call with
  | construct this => exact ⟨_, rfl, h.store_null hallows⟩
  | alloc pool this =>
    rw [SharedMemory.call]
    obtain ⟨-, hfails⟩ | ⟨i, next, -, -, halloc, hnext⟩ := h.alloc pool
    · rw [hfails]
      exact ⟨_, rfl, h.store_null hallows⟩
    · rw [halloc]
      exact ⟨_, rfl, hnext this hallows⟩
  | copyConstruct this address =>
    obtain ⟨other, hother⟩ := Option.isSome_iff_exists.mp hallows.2
    rw [SharedMemory.call, hother]
    exact h.copyConstruct hallows.1 hother
  | assign this address =>
    obtain ⟨old, hold⟩ := Option.isSome_iff_exists.mp hallows.1
    obtain ⟨other, hother⟩ := Option.isSome_iff_exists.mp hallows.2
    rw [SharedMemory.call, hold, hother]
    exact h.assign hold hother
  | clear this =>
    obtain ⟨old, hold⟩ := Option.isSome_iff_exists.mp hallows
    rw [SharedMemory.call, hold]
    exact h.clear hold
  | destruct this =>
    obtain ⟨old, hold⟩ := Option.isSome_iff_exists.mp hallows
    rw [SharedMemory.call, hold]
    exact h.destruct hold

end Counting

/-- After any calls, `referenceCnt` and `freeCnt` are right, an object is only handed out when
nothing points to it, and none is handed out only when there is no such object. -/
theorem counting_after_calls (buffer LENGTH : PoolAddress → UInt32) (calls : List PointerCall)
    (hallowed : Along (call buffer LENGTH) Allows (constructed LENGTH) calls) :
    ∃ memory, run (call buffer LENGTH) (constructed LENGTH) calls = some memory ∧
      (∀ address ptr, memory.pointers address = some ptr → Pointing buffer LENGTH ptr) ∧
      ∀ pool,
        (∀ i < (LENGTH pool).toNat,
          ((memory.pools pool).referenceCnt i).toNat = memory.references buffer pool i) ∧
        (memory.pools pool).freeCnt.toNat =
          census (Finset.range (LENGTH pool).toNat) (memory.references buffer pool) (· = 0) ∧
        ((∀ i < (LENGTH pool).toNat, memory.references buffer pool i ≠ 0) ∧
            memory.alloc buffer LENGTH pool = some (.error .MEMORY, memory) ∨
          ∃ i after, i < (LENGTH pool).toNat ∧ memory.references buffer pool i = 0 ∧
            memory.alloc buffer LENGTH pool =
              some (.ok ⟨some pool, buffer pool + UInt32.ofNat i⟩, after)) := by
  obtain ⟨memory, hrun, h⟩ := exists_run_along (fun _ call h hallows => h.call call hallows)
    (counting_constructed buffer LENGTH) hallowed
  refine ⟨memory, hrun, h.pointing, fun pool => ⟨(h.counted pool).referenceCnt_eq,
    (h.counted pool).freeCnt_eq, ?_⟩⟩
  obtain hfails | ⟨i, after, hi, hfree, halloc, -⟩ := h.alloc pool
  · exact .inl hfails
  · exact .inr ⟨i, after, hi, hfree, halloc⟩

theorem counting_after_calls_shared :
    let calls : List PointerCall := [.construct 0, .alloc 7 1, .copyConstruct 2 1, .assign 0 2,
      .assign 0 0, .alloc 7 3, .assign 1 3, .clear 2, .alloc 7 4, .destruct 0]
    (run (call (fun _ => 100) fun _ => 2) (constructed fun _ => 2) calls).map (fun memory =>
        ((memory.pools 7).referenceCnt 0, (memory.pools 7).referenceCnt 1, (memory.pools 7).freeCnt,
          memory.pointers 1, memory.pointers 4)) =
        some (0, 2, 1, some ⟨some 7, 101⟩, some {}) ∧
      ∃ memory, run (call (fun _ => 100) fun _ => 2) (constructed fun _ => 2) calls = some memory ∧
        (memory.pools 7).freeCnt.toNat =
          census (Finset.range 2) (memory.references (fun _ => 100) 7) (· = 0) := by
  refine ⟨by decide +kernel, ?_⟩
  obtain ⟨memory, hrun, -, hpools⟩ := counting_after_calls (fun _ => 100) (fun _ => 2)
    [.construct 0, .alloc 7 1, .copyConstruct 2 1, .assign 0 2, .assign 0 0, .alloc 7 3,
      .assign 1 3, .clear 2, .alloc 7 4, .destruct 0] (by decide +kernel)
  exact ⟨memory, hrun, (hpools 7).2.1⟩

end SharedMemory

end Rodos.Support
