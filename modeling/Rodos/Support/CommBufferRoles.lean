import Rodos.Support.CommBuffer

/-! The roles of the three buffers: `reader` holds the latest value, the next one is stored into
the spare buffer, and the third is set aside. They are distinct between any two accesses. -/
namespace Rodos.Support
open Library

variable {Cell : Type} {size : Nat}

/-- `reader` has been replaced, and the buffer it left is not set aside yet. -/
def Put.swapping : Put Cell size → Bool
  | .writerGetsSwap _ | .ifReadingNow | .swapGetsWriter | .writerGetsIntermediate _ => true
  | _ => false

/-- The buffer that was replaced last has not been stored into. -/
def Put.beforeStoring : Put Cell size → Bool
  | .storeData _ stored => stored = 0
  | .intermediateGetsSwap _ | .countWrite | .setNewDataAvailable | .returned => true
  | _ => false

namespace Exchange

variable {self next : Exchange Cell size}

def spare (self : Exchange Cell size) : Fin 3 :=
  match self.put with
  | .writerGetsSwap swap => swap
  | _ => self.comm.writer

def aside (self : Exchange Cell size) : Fin 3 :=
  match self.put with
  | .intermediateGetsSwap swap => swap
  | _ => self.comm.intermediate

structure Roles (exchange : Exchange Cell size) : Prop where
  spare_ne_reader : exchange.spare ≠ exchange.comm.reader
  aside_ne_reader : exchange.aside ≠ exchange.comm.reader
  spare_ne_aside : exchange.spare ≠ exchange.aside
  swap : match exchange.put with
    | .readerGetsWriter swap => swap = exchange.comm.reader
    | .writerGetsIntermediate swap => swap = exchange.comm.writer
    | _ => True

theorem roles_start (buffer : Fin 3 → Value Cell size) : (start buffer).Roles := by
  constructor
  · show (0 : Fin 3) ≠ 1
    decide
  · show (2 : Fin 3) ≠ 1
    decide
  · show (0 : Fin 3) ≠ 2
    decide
  · trivial

/-- The roles depend on nothing but the pointers and the next statement of `put`. -/
theorem Roles.congr (h : self.Roles) (hput : next.put = self.put)
    (hwriter : next.comm.writer = self.comm.writer)
    (hreader : next.comm.reader = self.comm.reader)
    (hintermediate : next.comm.intermediate = self.comm.intermediate) : next.Roles := by
  obtain ⟨hspare, haside, hdistinct, hswap⟩ := h
  unfold spare at hspare hdistinct
  unfold aside at haside hdistinct
  constructor
  · unfold spare
    rw [hput, hwriter, hreader]
    exact hspare
  · unfold aside
    rw [hput, hreader, hintermediate]
    exact haside
  · unfold spare aside
    rw [hput, hwriter, hintermediate]
    exact hdistinct
  · rw [hput, hwriter, hreader]
    exact hswap

theorem Roles.putStep (h : self.Roles) (hstep : self.putStep = some next) : next.Roles := by
  obtain ⟨comm, put, get, passed, gotten, replaced⟩ := self
  obtain ⟨hspare, haside, hdistinct, hswap⟩ := h
  cases put with
  | returned => cases hstep
  | storeData data stored =>
    rw [Exchange.putStep] at hstep
    dsimp only at hstep
    split at hstep <;> cases hstep <;> exact ⟨hspare, haside, hdistinct, trivial⟩
  | swapGetsReader =>
    cases hstep
    exact ⟨hspare, haside, hdistinct, rfl⟩
  | readerGetsWriter swap =>
    cases hstep
    obtain rfl : swap = comm.reader := hswap
    exact ⟨hspare.symm, hdistinct.symm, haside.symm, trivial⟩
  | ifReadingNow =>
    cases hstep
    show Roles { put := if comm.readingNow then _ else _, .. }
    split <;> exact ⟨hspare, haside, hdistinct, trivial⟩
  | swapGetsWriter =>
    cases hstep
    exact ⟨hspare, haside, hdistinct, rfl⟩
  | writerGetsIntermediate swap =>
    cases hstep
    obtain rfl : swap = comm.writer := hswap
    exact ⟨haside, hspare, hdistinct.symm, trivial⟩
  | writerGetsSwap swap | intermediateGetsSwap swap | countWrite | setNewDataAvailable =>
    cases hstep
    exact ⟨hspare, haside, hdistinct, trivial⟩

end Exchange

end Rodos.Support
