import Rodos.Support.CommBufferRoles
import Mathlib.Data.Fintype.Basic

/-! A `CommBuffer` without new data has handed out the latest value: no put goes unnoticed, however
its accesses and those of `get` alternate. -/
namespace Rodos.Support
open Library

variable {Cell : Type} {size : Nat}

/-- `reader` does not point at the new value yet. -/
def Put.unpublished : Put Cell size → Bool
  | .storeData _ _ | .swapGetsReader | .readerGetsWriter _ => true
  | _ => false

/-- `reader` points at the new value, and `newDataAvailable` is not set yet. -/
def Put.unnoticed : Put Cell size → Bool
  | .writerGetsSwap _ | .ifReadingNow | .swapGetsWriter | .writerGetsIntermediate _
  | .intermediateGetsSwap _ | .countWrite | .setNewDataAvailable => true
  | _ => false

namespace Exchange

variable {self next : Exchange Cell size} {initial : Value Cell size}

/-- The last value that `reader` was made to point at. -/
def latest (self : Exchange Cell size) (initial : Value Cell size) : Value Cell size :=
  (if self.put.unpublished then self.passed.dropLast else self.passed).getLastD initial

/-- The reader has been told that there is a value it may not have, or will be. -/
def Noticed (self : Exchange Cell size) : Prop :=
  self.comm.newDataAvailable = true ∨ self.put.unnoticed = true

/-- What `put` has stored of the new value. -/
def Storing (self : Exchange Cell size) : Prop :=
  match self.put with
  | .storeData data stored =>
    self.passed.getLast? = some data ∧
      ∀ cell : Fin size, cell < stored → self.comm.buffer self.comm.writer cell = data cell
  | .swapGetsReader | .readerGetsWriter _ =>
    self.passed.getLast? = some (self.comm.buffer self.comm.writer)
  | _ => True

/-- What `get` holds, is copying or has returned is the latest value, or a later one is noticed. -/
def Copying (self : Exchange Cell size) (initial : Value Cell size) : Prop :=
  match self.get with
  | .setReadingNow _ | .readerTmpGetsReader _ => True
  | .copyData readerTmp data copied =>
    self.Noticed ∨ readerTmp = self.comm.reader ∧
      ∀ cell : Fin size, cell < copied → data cell = self.latest initial cell
  | .clearReadingNow data | .countRead data => self.Noticed ∨ data = self.latest initial
  | .returned | .clearNewDataAvailable _ =>
    self.Noticed ∨ self.gotten.getLastD initial = self.latest initial

structure Fresh (exchange : Exchange Cell size) (initial : Value Cell size) : Prop where
  roles : exchange.Roles
  latest : exchange.comm.buffer exchange.comm.reader = exchange.latest initial
  storing : exchange.Storing
  copying : exchange.Copying initial

theorem fresh_start (buffer : Fin 3 → Value Cell size) : (start buffer).Fresh (buffer 1) :=
  ⟨roles_start buffer, rfl, trivial, Or.inr rfl⟩

theorem Copying.of_noticed (h : self.Noticed) : self.Copying initial := by
  unfold Copying
  split <;> first | trivial | exact Or.inl h

/-- What `get` holds depends on nothing that most accesses of `put` change. -/
theorem Copying.congr (h : self.Copying initial) (hget : next.get = self.get)
    (hgotten : next.gotten = self.gotten) (hreader : next.comm.reader = self.comm.reader)
    (hlatest : next.latest initial = self.latest initial)
    (hnoticed : self.Noticed → next.Noticed) : next.Copying initial := by
  unfold Copying at h ⊢
  rw [hget, hgotten, hreader, hlatest]
  split at h
  · exact h
  · exact h
  · exact h.imp_left hnoticed
  · exact h.imp_left hnoticed
  · exact h.imp_left hnoticed
  · exact h.imp_left hnoticed
  · exact h.imp_left hnoticed

theorem Fresh.putStep (h : self.Fresh initial) (hstep : self.putStep = some next) :
    next.Fresh initial := by
  have hroles := h.roles.putStep hstep
  obtain ⟨comm, put, get, passed, gotten, replaced⟩ := self
  obtain ⟨hbefore, hlatest, hstoring, hcopying⟩ := h
  cases put with
  | returned => cases hstep
  | storeData data stored =>
    rw [Exchange.putStep] at hstep
    dsimp only at hstep
    obtain ⟨hlast, hcells⟩ := hstoring
    split at hstep
    · next hmore =>
      cases hstep
      have hother : comm.reader ≠ comm.writer := hbefore.spare_ne_reader.symm
      refine ⟨hroles, ?_, ⟨hlast, fun cell hcell => ?_⟩, hcopying.congr rfl rfl rfl rfl id⟩
      · show Function.update comm.buffer comm.writer _ comm.reader = _
        rw [Function.update_of_ne hother]
        exact hlatest
      · show Function.update comm.buffer comm.writer _ comm.writer cell = data cell
        rw [Function.update_self]
        by_cases hnew : cell = ⟨stored, hmore⟩
        · rw [hnew, Function.update_self]
        · rw [Function.update_of_ne hnew]
          have hold : cell.val ≠ stored := fun hval => hnew (Fin.ext hval)
          exact hcells cell (by omega)
    · next hall =>
      cases hstep
      have hwhole : comm.buffer comm.writer = data :=
        funext fun cell => hcells cell (by omega)
      exact ⟨hroles, hlatest, hlast.trans (congrArg some hwhole.symm),
        hcopying.congr rfl rfl rfl rfl id⟩
  | readerGetsWriter swap =>
    cases hstep
    refine ⟨hroles, ?_, trivial, Copying.of_noticed (Or.inr rfl)⟩
    show comm.buffer comm.writer = passed.getLastD initial
    rw [List.getLastD_eq_getLast?, hstoring]
    rfl
  | ifReadingNow =>
    rw [Exchange.putStep] at hstep
    dsimp only at hstep
    split at hstep <;> cases hstep <;>
      exact ⟨hroles, hlatest, trivial, hcopying.congr rfl rfl rfl rfl id⟩
  | swapGetsReader | writerGetsSwap swap | swapGetsWriter | writerGetsIntermediate swap
  | intermediateGetsSwap swap | countWrite =>
    cases hstep
    exact ⟨hroles, hlatest, hstoring, hcopying.congr rfl rfl rfl rfl id⟩
  | setNewDataAvailable =>
    cases hstep
    exact ⟨hroles, hlatest, hstoring, Copying.of_noticed (Or.inl rfl)⟩

/-- Accesses of `get` leave the values alone that `put` deals with. -/
theorem Storing.congr (h : self.Storing) (hput : next.put = self.put)
    (hpassed : next.passed = self.passed) (hbuffer : next.comm.buffer = self.comm.buffer)
    (hwriter : next.comm.writer = self.comm.writer) : next.Storing := by
  unfold Storing at h ⊢
  rw [hput, hpassed, hbuffer, hwriter]
  exact h

theorem Fresh.getStep (h : self.Fresh initial) (hstep : self.getStep = some next) :
    next.Fresh initial := by
  obtain ⟨comm, put, get, passed, gotten, replaced⟩ := self
  obtain ⟨hroles, hlatest, hstoring, hcopying⟩ := h
  cases get with
  | returned => cases hstep
  | clearNewDataAvailable data =>
    cases hstep
    exact ⟨hroles.congr rfl rfl rfl rfl, hlatest, hstoring.congr rfl rfl rfl rfl, trivial⟩
  | setReadingNow data =>
    cases hstep
    exact ⟨hroles.congr rfl rfl rfl rfl, hlatest, hstoring.congr rfl rfl rfl rfl, trivial⟩
  | readerTmpGetsReader data =>
    cases hstep
    exact ⟨hroles.congr rfl rfl rfl rfl, hlatest, hstoring.congr rfl rfl rfl rfl,
      Or.inr ⟨rfl, fun cell hcell => absurd hcell (Nat.not_lt_zero _)⟩⟩
  | copyData readerTmp data copied =>
    rw [Exchange.getStep] at hstep
    dsimp only at hstep
    split at hstep
    · next hmore =>
      cases hstep
      refine ⟨hroles.congr rfl rfl rfl rfl, hlatest, hstoring.congr rfl rfl rfl rfl,
        hcopying.imp_right fun hcells => ⟨hcells.1, fun cell hcell => ?_⟩⟩
      by_cases hnew : cell = ⟨copied, hmore⟩
      · rw [hnew, Function.update_self, hcells.1]
        exact congrFun hlatest _
      · rw [Function.update_of_ne hnew]
        have hold : cell.val ≠ copied := fun hval => hnew (Fin.ext hval)
        exact hcells.2 cell (by omega)
    · next hall =>
      cases hstep
      exact ⟨hroles.congr rfl rfl rfl rfl, hlatest, hstoring.congr rfl rfl rfl rfl,
        hcopying.imp_right fun hcells => funext fun cell => hcells.2 cell (by omega)⟩
  | clearReadingNow data =>
    cases hstep
    exact ⟨hroles.congr rfl rfl rfl rfl, hlatest, hstoring.congr rfl rfl rfl rfl, hcopying⟩
  | countRead data =>
    cases hstep
    refine ⟨hroles.congr rfl rfl rfl rfl, hlatest, hstoring.congr rfl rfl rfl rfl,
      hcopying.imp_right fun hdata => ?_⟩
    show (gotten ++ [data]).getLastD initial = _
    rw [List.getLastD_concat]
    exact hdata

theorem Fresh.put (h : self.Fresh initial) (hreturned : self.put = .returned)
    (data : Value Cell size) :
    ({ self with put := .storeData data 0, passed := self.passed ++ [data] } :
      Exchange Cell size).Fresh initial := by
  have hlast : (self.passed ++ [data]).dropLast.getLastD initial = self.latest initial := by
    rw [List.dropLast_concat, Exchange.latest, hreturned]
    rfl
  have hnoticed : self.Noticed → self.comm.newDataAvailable = true := fun hnoticed =>
    hnoticed.resolve_right (by rw [hreturned]; exact Bool.false_ne_true)
  obtain ⟨hspare, haside, hdistinct, -⟩ := h.roles
  rw [spare, hreturned] at hspare
  rw [aside, hreturned] at haside
  rw [spare, aside, hreturned] at hdistinct
  refine ⟨⟨hspare, haside, hdistinct, trivial⟩, h.latest.trans hlast.symm, ⟨?_, ?_⟩,
    h.copying.congr rfl rfl rfl hlast fun hnow => Or.inl (hnoticed hnow)⟩
  · exact List.getLast?_concat
  · exact fun cell hcell => absurd hcell (Nat.not_lt_zero _)

theorem Fresh.step {access : Access Cell size} (h : self.Fresh initial)
    (hstep : self.step access = some next) : next.Fresh initial := by
  cases access with
  | put data =>
    rw [Exchange.step] at hstep
    split at hstep
    · next hreturned =>
      cases hstep
      exact h.put hreturned data
    · cases hstep
  | putStep => exact h.putStep hstep
  | get data =>
    rw [Exchange.step] at hstep
    split at hstep
    · next hreturned =>
      cases hstep
      have hcopying := h.copying
      rw [Copying, hreturned] at hcopying
      exact ⟨h.roles.congr rfl rfl rfl rfl, h.latest, h.storing.congr rfl rfl rfl rfl, hcopying⟩
    · cases hstep
  | getStep => exact h.getStep hstep

/-- Where there is no new data, and no `put` is between its new `reader` and its flag, the last
value gotten is the one that `reader` points at. -/
theorem latest_is_gotten (buffer : Fin 3 → Value Cell size)
    {accesses : List (Access Cell size)} {final : Exchange Cell size}
    (hrun : run step (start buffer) accesses = some final) (hget : final.get = .returned)
    (hput : final.put.unnoticed = false) (hnothing : final.comm.newDataAvailable = false) :
    final.gotten.getLastD (buffer 1) = final.latest (buffer 1) := by
  have hkeeps : ∀ (now : Exchange Cell size) (access : Access Cell size)
      (later : Exchange Cell size), now.Fresh (buffer 1) → now.step access = some later →
        later.Fresh (buffer 1) := fun _ _ _ hnow hstep => hnow.step hstep
  have hcopying := (run_invariant hkeeps (fresh_start buffer) hrun).copying
  rw [Copying, hget] at hcopying
  apply hcopying.resolve_left
  rintro (hflag | hunnoticed)
  · rw [hnothing] at hflag
    cases hflag
  · rw [hput] at hunnoticed
    cases hunnoticed

/-- A whole put within a get, and one more get. -/
def crossing : List (Access Nat 1) :=
  .get (fun _ => 0) :: List.replicate 4 .getStep ++ .put (fun _ => 5) ::
    List.replicate 11 .putStep ++ List.replicate 3 .getStep ++ .get (fun _ => 0) ::
    List.replicate 7 .getStep

theorem latest_is_gotten_crossing :
    ∃ final, run step (start fun _ _ => 0) crossing = some final ∧
      final.gotten = [fun _ => 0, fun _ => 5] ∧
      final.gotten.getLastD (fun _ => 0) = final.latest (fun _ => 0) := by
  have hshown : (run step (start fun _ _ => 0) crossing).map Exchange.gotten =
      some [fun _ => 0, fun _ => 5] := by decide
  refine ⟨_, rfl, Option.some.inj hshown, ?_⟩
  exact latest_is_gotten (fun _ _ => 0) (show run step _ crossing = _ from rfl) rfl rfl rfl

end Exchange

end Rodos.Support
