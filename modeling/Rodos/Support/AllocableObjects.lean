import Rodos.Library.Census
import Rodos.Library.Runs
import Mathlib.Data.Fintype.Card

/-! `AllocableObjects` and `SharedPtr`: pools of objects that count the pointers to each of them.
The memory has 32-bit addresses, those of objects are counted in objects. -/
namespace Rodos.Support
open Library

inductive ErrorCode where
  | MEMORY
  | BAD_POINTER
deriving DecidableEq

/-- Stands for `AllocableObjectsBase*`. -/
abbrev PoolAddress := Nat

/-- Where a `SharedPtr` can live: at any address but null. -/
abbrev PointerAddress := Fin 0xFFFFFFFF

structure SharedPtr where
  objectsPool : Option PoolAddress := none
  objectPointer : UInt32 := 0
deriving DecidableEq

structure AllocableObjects where
  referenceCnt : Nat → UInt32
  freeCnt : UInt32

namespace AllocableObjects

section pool

-- a pool of so many objects, the first of them at `buffer`
variable (buffer LENGTH : UInt32) (pool : AllocableObjects)

def constructed : AllocableObjects where
  referenceCnt _ := 0
  freeCnt := LENGTH

def indexOf (item : UInt32) : Except ErrorCode UInt32 :=
  let index := item - buffer
  if index > LENGTH then .error .BAD_POINTER else .ok index

/-- Nothing when `referenceCnt` is read behind its end, which the check of `indexOf` lets pass. -/
def free (item : UInt32) : Option (Bool × AllocableObjects) :=
  match indexOf buffer LENGTH item with
  | .error _ => some (false, pool)
  | .ok index =>
    if LENGTH ≤ index then none
    else if pool.referenceCnt index.toNat < 1 then some (false, pool)
    else
      let referenceCnt := Function.update pool.referenceCnt index.toNat
        (pool.referenceCnt index.toNat - 1)
      let freeCnt := if referenceCnt index.toNat = 0 then pool.freeCnt + 1 else pool.freeCnt
      some (true, ⟨referenceCnt, freeCnt⟩)

/-- The same item, or null if it is invalid. -/
def copyReference (item : UInt32) : Option (UInt32 × AllocableObjects) :=
  match indexOf buffer LENGTH item with
  | .error _ => some (0, pool)
  | .ok index =>
    if LENGTH ≤ index then none
    else if pool.referenceCnt index.toNat = 0 then some (0, pool)
    else
      let referenceCnt := Function.update pool.referenceCnt index.toNat
        (pool.referenceCnt index.toNat + 1)
      some (item, ⟨referenceCnt, pool.freeCnt⟩)

/-- The loop of `alloc`. -/
def findFree : Option Nat :=
  (List.range LENGTH.toNat).find? fun i => pool.referenceCnt i = 0

def alloc (self : PoolAddress) : Option (Except ErrorCode SharedPtr × AllocableObjects) :=
  match pool.findFree LENGTH with
  | none => some (.error .MEMORY, pool)
  | some i =>
    let pool : AllocableObjects := ⟨Function.update pool.referenceCnt i 1, pool.freeCnt - 1⟩
    let item := buffer + UInt32.ofNat i
    -- the result holds a copy of a temporary pointer, which is destroyed then
    match pool.copyReference buffer LENGTH item with
    | none => none
    | some (_, pool) =>
      match pool.free buffer LENGTH item with
      | none => none
      | some (_, pool) => some (.ok ⟨some self, item⟩, pool)

end pool

end AllocableObjects

abbrev Pools := PoolAddress → AllocableObjects

namespace SharedPtr

variable (buffer LENGTH : PoolAddress → UInt32)

/-- What a pointer does when it lets its object go. -/
def free (pools : Pools) (ptr : SharedPtr) : Option Pools :=
  match ptr.objectsPool with
  | none => some pools
  | some pool =>
    ((pools pool).free (buffer pool) (LENGTH pool) ptr.objectPointer).map fun (_, next) =>
      Function.update pools pool next

/-- What a pointer does when it has taken the values of another one. -/
def copyReference (pools : Pools) (ptr : SharedPtr) : Option Pools :=
  match ptr.objectsPool with
  | none => some pools
  | some pool =>
    ((pools pool).copyReference (buffer pool) (LENGTH pool) ptr.objectPointer).map fun (_, next) =>
      Function.update pools pool next

end SharedPtr

/-- The pools and the pointers that are alive. -/
structure SharedMemory where
  pools : Pools
  pointers : PointerAddress → Option SharedPtr := fun _ => none

/-- The calls of the users. A pointer is alive from its construction to its destruction; what
`alloc` returns is a result whose value is a pointer. -/
inductive PointerCall where
  | construct (this : PointerAddress)
  | alloc (pool : PoolAddress) (this : PointerAddress)
  | copyConstruct (this other : PointerAddress)
  | assign (this other : PointerAddress)
  | clear (this : PointerAddress)
  | destruct (this : PointerAddress)

namespace SharedMemory

section calls

variable (buffer LENGTH : PoolAddress → UInt32) (memory : SharedMemory)

def constructed : SharedMemory where
  pools pool := AllocableObjects.constructed (LENGTH pool)

def store (this : PointerAddress) (ptr : Option SharedPtr) : SharedMemory :=
  { memory with pointers := Function.update memory.pointers this ptr }

/-- The value of a result. -/
def value : Except ErrorCode SharedPtr → SharedPtr
  | .error _ => {}
  | .ok ptr => ptr

def alloc (pool : PoolAddress) : Option (Except ErrorCode SharedPtr × SharedMemory) :=
  ((memory.pools pool).alloc (buffer pool) (LENGTH pool) pool).map fun (result, next) =>
    (result, { memory with pools := Function.update memory.pools pool next })

def copyConstruct (this : PointerAddress) (other : SharedPtr) : Option SharedMemory :=
  (other.copyReference buffer LENGTH memory.pools).map fun pools =>
    { memory with pools := pools }.store this (some other)

def assign (this otherAddress : PointerAddress) (old other : SharedPtr) : Option SharedMemory :=
  if this = otherAddress then some memory
  else
    match old.free buffer LENGTH memory.pools with
    | none => none
    | some pools => { memory with pools := pools }.copyConstruct buffer LENGTH this other

def clear (this : PointerAddress) (old : SharedPtr) : Option SharedMemory :=
  (old.free buffer LENGTH memory.pools).map fun pools =>
    { memory with pools := pools }.store this (some {})

def destruct (this : PointerAddress) (old : SharedPtr) : Option SharedMemory :=
  (old.free buffer LENGTH memory.pools).map fun pools =>
    { memory with pools := pools }.store this none

/-- Which pointers a call needs to be alive, and which not. -/
def Allows : PointerCall → Prop
  | .construct this => memory.pointers this = none
  | .alloc _ this => memory.pointers this = none
  | .copyConstruct this other =>
    memory.pointers this = none ∧ (memory.pointers other).isSome
  | .assign this other => (memory.pointers this).isSome ∧ (memory.pointers other).isSome
  | .clear this => (memory.pointers this).isSome
  | .destruct this => (memory.pointers this).isSome

instance : (call : PointerCall) → Decidable (memory.Allows call)
  | .construct _ => inferInstanceAs (Decidable (_ = _))
  | .alloc _ _ => inferInstanceAs (Decidable (_ = _))
  | .copyConstruct _ _ => inferInstanceAs (Decidable (_ ∧ _))
  | .assign _ _ => inferInstanceAs (Decidable (_ ∧ _))
  | .clear _ => inferInstanceAs (Decidable (_ = _))
  | .destruct _ => inferInstanceAs (Decidable (_ = _))

def call : PointerCall → Option SharedMemory
  | .construct this => some (memory.store this (some {}))
  | .alloc pool this =>
    (memory.alloc buffer LENGTH pool).map fun (result, memory) =>
      memory.store this (some (value result))
  | .copyConstruct this other =>
    (memory.pointers other).bind fun other => memory.copyConstruct buffer LENGTH this other
  | .assign this other =>
    match memory.pointers this, memory.pointers other with
    | some old, some ptr => memory.assign buffer LENGTH this other old ptr
    | _, _ => none
  | .clear this => (memory.pointers this).bind fun old => memory.clear buffer LENGTH this old
  | .destruct this => (memory.pointers this).bind fun old => memory.destruct buffer LENGTH this old

/-- The pointers that are alive and point to an object. -/
def references (pool : PoolAddress) (i : Nat) : Nat :=
  census Finset.univ memory.pointers
    (· = some ⟨some pool, buffer pool + UInt32.ofNat i⟩)

end calls

end SharedMemory

end Rodos.Support
