import Rodos.Support.CommBufferRoles
import Mathlib.Data.Fintype.Basic

/-! When `get` returns a value that was put: always, unless a `put` stores into the buffer that is
being copied, and that takes a third `put` within one copy. -/
namespace Rodos.Support
open Library

variable {Cell : Type} {size : Nat}

namespace Exchange

variable {self next : Exchange Cell size} {initial : Value Cell size} {readerTmp : Fin 3}

/-- One of the values that were put, or the one before them. -/
def Known (self : Exchange Cell size) (initial value : Value Cell size) : Prop :=
  value = initial ∨ value ∈ self.passed

structure Contents (exchange : Exchange Cell size) (initial : Value Cell size) : Prop where
  latest : exchange.Known initial (exchange.comm.buffer exchange.comm.reader)
  stored : match exchange.put with
    | .storeData data stored =>
      data ∈ exchange.passed ∧
        ∀ cell : Fin size, cell < stored →
          exchange.comm.buffer exchange.comm.writer cell = data cell
    | .swapGetsReader | .readerGetsWriter _ =>
      exchange.Known initial (exchange.comm.buffer exchange.comm.writer)
    | _ => True

/-- Where the buffer that `get` has read from `reader` is now. -/
def IsSource (self : Exchange Cell size) (readerTmp : Fin 3) : Prop :=
  match self.replaced with
  | 0 => readerTmp = self.comm.reader
  | 1 => readerTmp = if self.put.swapping then self.spare else self.aside
  | 2 => (readerTmp = if self.put.swapping then self.aside else self.spare) ∧
      (self.put.swapping || self.put.beforeStoring)
  | _ => False

/-- The first `copied` cells are those of a known value, and the others still can be. -/
def Reading (self : Exchange Cell size) (initial : Value Cell size) : Prop :=
  match self.get with
  | .readerTmpGetsReader _ => self.comm.readingNow = true
  | .copyData readerTmp data copied =>
    self.comm.readingNow = true ∧ ∃ value, self.Known initial value ∧
      (∀ cell : Fin size, cell < copied → data cell = value cell) ∧
      (copied < size → self.comm.buffer readerTmp = value ∧ self.IsSource readerTmp)
  | .clearReadingNow data | .countRead data => self.Known initial data
  | _ => True

structure Consistent (exchange : Exchange Cell size) (initial : Value Cell size) : Prop where
  roles : exchange.Roles
  contents : exchange.Contents initial
  reading : exchange.Reading initial
  gotten : ∀ value ∈ exchange.gotten, exchange.Known initial value

theorem Contents.putStep (hroles : self.Roles) (h : self.Contents initial)
    (hstep : self.putStep = some next) : next.Contents initial := by
  obtain ⟨comm, put, get, passed, gotten, replaced⟩ := self
  obtain ⟨hlatest, hstored⟩ := h
  cases put with
  | returned => cases hstep
  | storeData data stored =>
    rw [Exchange.putStep] at hstep
    dsimp only at hstep
    obtain ⟨hpassed, hcells⟩ := hstored
    split at hstep
    · next hmore =>
      cases hstep
      have hother : comm.reader ≠ comm.writer := hroles.spare_ne_reader.symm
      refine ⟨?_, hpassed, fun cell hcell => ?_⟩
      · show Known _ initial (Function.update comm.buffer comm.writer _ comm.reader)
        rw [Function.update_of_ne hother]
        exact hlatest
      · show Function.update comm.buffer comm.writer _ comm.writer cell = data cell
        rw [Function.update_self]
        by_cases hnew : cell = ⟨stored, hmore⟩
        · rw [hnew, Function.update_self]
        · rw [Function.update_of_ne hnew]
          have hold : cell.val ≠ stored := fun hval => hnew (Fin.ext hval)
          exact hcells cell (by omega)
    · next hall =>
      cases hstep
      refine ⟨hlatest, Or.inr ?_⟩
      have hwhole : comm.buffer comm.writer = data :=
        funext fun cell => hcells cell (by omega)
      show comm.buffer comm.writer ∈ passed
      rw [hwhole]
      exact hpassed
  | swapGetsReader =>
    cases hstep
    exact ⟨hlatest, hstored⟩
  | readerGetsWriter swap =>
    cases hstep
    exact ⟨hstored, trivial⟩
  | ifReadingNow =>
    cases hstep
    show Contents { put := if comm.readingNow then _ else _, .. } initial
    split <;> exact ⟨hlatest, trivial⟩
  | writerGetsSwap swap | swapGetsWriter | writerGetsIntermediate swap
  | intermediateGetsSwap swap | countWrite | setNewDataAvailable =>
    cases hstep
    exact ⟨hlatest, trivial⟩

/-- A store goes to the buffer that is being copied exactly when two puts have replaced it. -/
theorem IsSource.eq_writer_iff (hroles : self.Roles) (h : self.IsSource readerTmp)
    {data : Value Cell size} {stored : Nat} (hput : self.put = .storeData data stored) :
    readerTmp = self.comm.writer ↔ 2 ≤ self.replaced := by
  have hspare : self.spare = self.comm.writer := by rw [spare, hput]
  have hswapping : self.put.swapping = false := by rw [hput]; rfl
  rw [IsSource, hswapping] at h
  rw [← hspare]
  split at h
  · next hnone =>
    rw [hnone, h]
    exact ⟨fun hsame => absurd hsame.symm hroles.spare_ne_reader, fun htwo => by omega⟩
  · next hone =>
    rw [hone, h]
    exact ⟨fun hsame => absurd hsame.symm hroles.spare_ne_aside, fun htwo => by omega⟩
  · next htwo =>
    rw [htwo]
    exact ⟨fun _ => Nat.le_refl 2, fun _ => h.1⟩
  · cases h

theorem IsSource.putStep (hroles : self.Roles) (h : self.IsSource readerTmp)
    (hreading : self.comm.readingNow = true) (hsize : 0 < size)
    (hbehind : ∀ data stored, self.put = .storeData data stored → stored < size →
      self.replaced < 2)
    (hstep : self.putStep = some next) : next.IsSource readerTmp := by
  obtain ⟨comm, put, get, passed, gotten, replaced⟩ := self
  cases put with
  | returned => cases hstep
  | storeData data stored =>
    rw [Exchange.putStep] at hstep
    dsimp only at hstep
    split at hstep
    · next hmore =>
      cases hstep
      have hfew := hbehind data stored rfl hmore
      rcases replaced with _ | _ | replaced
      · exact h
      · exact h
      · exact absurd hfew (Nat.not_lt.mpr (Nat.le_add_left 2 replaced))
    · next hall =>
      cases hstep
      rcases replaced with _ | _ | _ | _
      · exact h
      · exact h
      · have hzero : stored = 0 := of_decide_eq_true h.2
        omega
      · exact h
  | swapGetsReader =>
    cases hstep
    rcases replaced with _ | _ | _ | _
    · exact h
    · exact h
    · cases h.2
    · exact h
  | readerGetsWriter swap =>
    cases hstep
    obtain rfl : swap = comm.reader := hroles.swap
    rcases replaced with _ | _ | _ | _
    · exact h
    · exact ⟨h, rfl⟩
    · cases h.2
    · exact h
  | ifReadingNow =>
    cases hstep
    have htaken : (if comm.readingNow then Put.swapGetsWriter else Put.countWrite) =
        (Put.swapGetsWriter : Put Cell size) := if_pos hreading
    show IsSource { put := if comm.readingNow then _ else _, .. } readerTmp
    rw [htaken]
    exact h
  | writerGetsIntermediate swap =>
    cases hstep
    obtain rfl : swap = comm.writer := hroles.swap
    rcases replaced with _ | _ | _ | _
    · exact h
    · exact h
    · exact ⟨h.1, rfl⟩
    · exact h
  | writerGetsSwap swap | swapGetsWriter | intermediateGetsSwap swap | countWrite
  | setNewDataAvailable =>
    cases hstep
    exact h

/-- What an access of `put` leaves alone. -/
structure PutFrame (exchange next : Exchange Cell size) : Prop where
  get : next.get = exchange.get
  passed : next.passed = exchange.passed
  gotten : next.gotten = exchange.gotten
  readingNow : next.comm.readingNow = exchange.comm.readingNow
  buffer : next.comm.buffer = exchange.comm.buffer ∨
    ∃ data stored, exchange.put = .storeData data stored ∧ stored < size ∧
      ∀ other, other ≠ exchange.comm.writer →
        next.comm.buffer other = exchange.comm.buffer other

theorem putFrame (hstep : self.putStep = some next) : PutFrame self next := by
  obtain ⟨comm, put, get, passed, gotten, replaced⟩ := self
  cases put with
  | returned => cases hstep
  | storeData data stored =>
    rw [Exchange.putStep] at hstep
    dsimp only at hstep
    split at hstep
    · next hmore =>
      cases hstep
      refine ⟨rfl, rfl, rfl, rfl, Or.inr ⟨data, stored, rfl, hmore, fun other hother => ?_⟩⟩
      exact Function.update_of_ne hother _ _
    · cases hstep
      exact ⟨rfl, rfl, rfl, rfl, Or.inl rfl⟩
  | swapGetsReader | readerGetsWriter swap | writerGetsSwap swap | ifReadingNow | swapGetsWriter
  | writerGetsIntermediate swap | intermediateGetsSwap swap | countWrite | setNewDataAvailable =>
    cases hstep
    exact ⟨rfl, rfl, rfl, rfl, Or.inl rfl⟩

theorem Consistent.putStep (h : self.Consistent initial) (hbehind : self.overtakes = false)
    (hstep : self.putStep = some next) : next.Consistent initial := by
  have hframe := putFrame hstep
  have hknown : ∀ value, self.Known initial value → next.Known initial value := by
    intro value hvalue
    rw [Known, hframe.passed]
    exact hvalue
  refine ⟨h.roles.putStep hstep, h.contents.putStep h.roles hstep, ?_, ?_⟩
  · have hreading := h.reading
    unfold Reading at hreading ⊢
    rw [hframe.get, hframe.readingNow]
    split at hreading
    · exact hreading
    · next readerTmp data copied hget =>
      obtain ⟨hnow, value, hvalue, hcells, hsource⟩ := hreading
      refine ⟨hnow, value, hknown value hvalue, hcells, fun hmore => ?_⟩
      obtain ⟨hbuffer, hsource⟩ := hsource hmore
      have hfew : ∀ data stored, self.put = .storeData data stored → stored < size →
          self.replaced < 2 := by
        intro data stored hput hstore
        simp only [overtakes, hput, hget, hstore, hmore, decide_true, Bool.true_and,
          decide_eq_false_iff_not] at hbehind
        omega
      refine ⟨?_, hsource.putStep h.roles hnow (Nat.zero_lt_of_lt hmore) hfew hstep⟩
      cases hframe.buffer with
      | inl hsame =>
        rw [hsame]
        exact hbuffer
      | inr hstored =>
        obtain ⟨stored, count, hput, hstore, hothers⟩ := hstored
        have hne : readerTmp ≠ self.comm.writer := by
          intro heq
          have htwo := (hsource.eq_writer_iff h.roles hput).mp heq
          have hless := hfew stored count hput hstore
          omega
        rw [hothers readerTmp hne]
        exact hbuffer
    · exact hknown _ hreading
    · exact hknown _ hreading
    · trivial
  · rw [hframe.gotten]
    exact fun value hmem => hknown value (h.gotten value hmem)

theorem Contents.congr (h : self.Contents initial) (hput : next.put = self.put)
    (hbuffer : next.comm.buffer = self.comm.buffer)
    (hwriter : next.comm.writer = self.comm.writer)
    (hreader : next.comm.reader = self.comm.reader) (hpassed : next.passed = self.passed) :
    next.Contents initial := by
  obtain ⟨hlatest, hstored⟩ := h
  unfold Known at hlatest hstored
  constructor
  · unfold Known
    rw [hbuffer, hreader, hpassed]
    exact hlatest
  · unfold Known
    rw [hput, hbuffer, hwriter, hpassed]
    exact hstored

theorem Consistent.getStep (h : self.Consistent initial) (hstep : self.getStep = some next) :
    next.Consistent initial := by
  obtain ⟨comm, put, get, passed, gotten, replaced⟩ := self
  have hreading := h.reading
  have hgotten := h.gotten
  cases get with
  | returned => cases hstep
  | clearNewDataAvailable data =>
    cases hstep
    exact ⟨h.roles.congr rfl rfl rfl rfl, h.contents.congr rfl rfl rfl rfl rfl, trivial, hgotten⟩
  | setReadingNow data =>
    cases hstep
    exact ⟨h.roles.congr rfl rfl rfl rfl, h.contents.congr rfl rfl rfl rfl rfl, rfl, hgotten⟩
  | readerTmpGetsReader data =>
    cases hstep
    refine ⟨h.roles.congr rfl rfl rfl rfl, h.contents.congr rfl rfl rfl rfl rfl, ?_, hgotten⟩
    refine ⟨hreading, _, h.contents.latest, fun cell hcell => ?_, fun _ => ⟨rfl, rfl⟩⟩
    exact absurd hcell (Nat.not_lt_zero _)
  | copyData readerTmp data copied =>
    obtain ⟨hnow, value, hvalue, hcells, hsource⟩ := hreading
    rw [Exchange.getStep] at hstep
    dsimp only at hstep
    split at hstep
    · next hmore =>
      cases hstep
      obtain ⟨hbuffer, hsource⟩ := hsource hmore
      refine ⟨h.roles.congr rfl rfl rfl rfl, h.contents.congr rfl rfl rfl rfl rfl, ?_, hgotten⟩
      refine ⟨hnow, value, hvalue, fun cell hcell => ?_, fun _ => ⟨hbuffer, hsource⟩⟩
      by_cases hnew : cell = ⟨copied, hmore⟩
      · rw [hnew, Function.update_self, hbuffer]
      · rw [Function.update_of_ne hnew]
        have hold : cell.val ≠ copied := fun hval => hnew (Fin.ext hval)
        exact hcells cell (by omega)
    · next hall =>
      cases hstep
      refine ⟨h.roles.congr rfl rfl rfl rfl, h.contents.congr rfl rfl rfl rfl rfl, ?_, hgotten⟩
      have hwhole : data = value := funext fun cell => hcells cell (by omega)
      show Known _ initial data
      rw [hwhole]
      exact hvalue
  | clearReadingNow data =>
    cases hstep
    exact ⟨h.roles.congr rfl rfl rfl rfl, h.contents.congr rfl rfl rfl rfl rfl, hreading, hgotten⟩
  | countRead data =>
    cases hstep
    refine ⟨h.roles.congr rfl rfl rfl rfl, h.contents.congr rfl rfl rfl rfl rfl, trivial, ?_⟩
    intro value hmem
    cases List.mem_append.mp hmem with
    | inl hold => exact hgotten value hold
    | inr hnew =>
      rw [List.mem_singleton.mp hnew]
      exact hreading

theorem IsSource.put (h : self.IsSource readerTmp) (hreturned : self.put = .returned)
    (data : Value Cell size) (passed : List (Value Cell size)) :
    ({ self with put := .storeData data 0, passed := passed } :
      Exchange Cell size).IsSource readerTmp := by
  obtain ⟨comm, put, get, _, gotten, replaced⟩ := self
  cases hreturned
  rcases replaced with _ | _ | _ | _
  · exact h
  · exact h
  · exact h
  · exact h

theorem Consistent.put (h : self.Consistent initial) (hreturned : self.put = .returned)
    (data : Value Cell size) :
    ({ self with put := .storeData data 0, passed := self.passed ++ [data] } :
      Exchange Cell size).Consistent initial := by
  have hknown : ∀ value, self.Known initial value →
      value = initial ∨ value ∈ self.passed ++ [data] := fun value hvalue =>
    hvalue.imp_right (List.mem_append_left [data])
  obtain ⟨hspare, haside, hdistinct, _⟩ := h.roles
  rw [spare, hreturned] at hspare
  rw [aside, hreturned] at haside
  rw [spare, aside, hreturned] at hdistinct
  refine ⟨⟨hspare, haside, hdistinct, trivial⟩, ⟨hknown _ h.contents.latest, ?_⟩, ?_,
    fun value hmem => hknown value (h.gotten value hmem)⟩
  · exact ⟨List.mem_append_right _ List.mem_cons_self, fun cell hcell => by cases hcell⟩
  · have hreading := h.reading
    unfold Reading at hreading ⊢
    dsimp only
    split at hreading
    · exact hreading
    · obtain ⟨hnow, value, hvalue, hcells, hsource⟩ := hreading
      refine ⟨hnow, value, hknown value hvalue, hcells, fun hmore => ?_⟩
      exact ⟨(hsource hmore).1, (hsource hmore).2.put hreturned data _⟩
    · exact hknown _ hreading
    · exact hknown _ hreading
    · trivial

theorem Consistent.step {access : Access Cell size} (h : self.Consistent initial)
    (hbehind : self.KeepsBehind access) (hstep : self.step access = some next) :
    next.Consistent initial := by
  cases access with
  | put data =>
    rw [Exchange.step] at hstep
    split at hstep
    · next hreturned =>
      cases hstep
      exact h.put hreturned data
    · cases hstep
  | putStep => exact h.putStep (hbehind rfl) hstep
  | get data =>
    rw [Exchange.step] at hstep
    split at hstep
    · cases hstep
      exact ⟨h.roles.congr rfl rfl rfl rfl, h.contents.congr rfl rfl rfl rfl rfl, trivial,
        h.gotten⟩
    · cases hstep
  | getStep => exact h.getStep hstep

theorem consistent_start (buffer : Fin 3 → Value Cell size) :
    (start buffer).Consistent (buffer 1) :=
  ⟨roles_start buffer, ⟨Or.inl rfl, trivial⟩, trivial, fun value hmem => by cases hmem⟩

theorem consistent_run {buffer : Fin 3 → Value Cell size} {accesses : List (Access Cell size)}
    {final : Exchange Cell size} (hbehind : Along step KeepsBehind (start buffer) accesses)
    (hrun : run step (start buffer) accesses = some final) : final.Consistent (buffer 1) := by
  have hkeeps : ∀ (exchange : Exchange Cell size) (access : Access Cell size)
      (next : Exchange Cell size), exchange.Consistent (buffer 1) → exchange.KeepsBehind access →
      exchange.step access = some next → next.Consistent (buffer 1) :=
    fun _ _ _ h hallowed hstep => h.step hallowed hstep
  exact run_invariant_along hkeeps (consistent_start buffer) hbehind hrun

/-- No store overtakes a copy: every `get` returns a value that was put, or the initial one. -/
theorem gets_whole_values (buffer : Fin 3 → Value Cell size)
    (accesses : List (Access Cell size)) (final : Exchange Cell size)
    (hbehind : Along step KeepsBehind (start buffer) accesses)
    (hrun : run step (start buffer) accesses = some final) :
    ∀ value ∈ final.gotten, value = buffer 1 ∨ value ∈ final.passed :=
  (consistent_run hbehind hrun).gotten

/-- A get of two cells that is interrupted after the first one. -/
def interrupted (between : List (Access Nat 2)) : List (Access Nat 2) :=
  .get (fun _ => 0) :: List.replicate 4 .getStep ++ between ++ List.replicate 4 .getStep

/-- A put of the same number in both cells. -/
def wholePut (number : Nat) : List (Access Nat 2) :=
  .put (fun _ => number) :: List.replicate 12 .putStep

theorem gets_whole_values_twoPuts :
    ∃ final, run step (start fun _ _ => 0) (interrupted (wholePut 1 ++ wholePut 2)) = some final ∧
      ∀ value ∈ final.gotten, value = (fun _ => 0) ∨ value ∈ final.passed :=
  ⟨_, rfl, gets_whole_values (fun _ _ => 0) (interrupted (wholePut 1 ++ wholePut 2)) _
    (by decide) rfl⟩

def torn : Value Nat 2 := fun cell => if cell = 0 then 0 else 3

/-- Two puts and the beginning of a third. -/
def overtaken : List (Access Nat 2) :=
  interrupted (wholePut 1 ++ wholePut 2 ++ (wholePut 3).take 3)

set_option maxRecDepth 4000 in
/-- The third put stores into the buffer that is being copied. -/
theorem get_torn :
    (run step (start fun _ _ => 0) overtaken).map Exchange.gotten = some [torn] ∧
      (run step (start fun _ _ => 0) overtaken).map Exchange.passed =
        some [fun _ => 1, fun _ => 2, fun _ => 3] ∧
      torn ≠ (fun _ => 0) ∧ torn ∉ ([fun _ => 1, fun _ => 2, fun _ => 3] : List (Value Nat 2)) := by
  decide

/-- The condition leaves out no store but those into the buffer that is being copied. -/
theorem overtakes_iff_hits {buffer : Fin 3 → Value Cell size}
    {accesses : List (Access Cell size)} {final : Exchange Cell size}
    (hbehind : Along step KeepsBehind (start buffer) accesses)
    (hrun : run step (start buffer) accesses = some final) {data copy : Value Cell size}
    {stored copied : Nat} {readerTmp : Fin 3} (hput : final.put = .storeData data stored)
    (hget : final.get = .copyData readerTmp copy copied) (hstore : stored < size)
    (hmore : copied < size) : final.overtakes = true ↔ final.comm.writer = readerTmp := by
  have hconsistent := consistent_run hbehind hrun
  have hreading := hconsistent.reading
  rw [Reading, hget] at hreading
  obtain ⟨_, _, _, _, hsource⟩ := hreading
  rw [eq_comm (a := final.comm.writer), (hsource hmore).2.eq_writer_iff hconsistent.roles hput]
  simp only [overtakes, hput, hget, hstore, hmore, decide_true, Bool.true_and, decide_eq_true_iff]

end Exchange

end Rodos.Support
