import Rodos.BareMetal.HalCanFilters
import Rodos.Library.Outcome

/-! Which filter `setupFilters` puts where. -/
namespace Rodos.BareMetal.CanFilters
open Library

inductive Kind where
  | mask32
  | list32
  | mask16
  | list16
deriving DecidableEq

namespace Kind

/-- How many filters of the kind are in a bank. -/
def capacity : Kind → Nat
  | .mask32 => 1
  | .list32 => 2
  | .mask16 => 2
  | .list16 => 4

theorem capacity_pos (kind : Kind) : 0 < kind.capacity := by
  cases kind <;> decide

def mode : Kind → FilterMode
  | .mask32 | .mask16 => .IdMask
  | .list32 | .list16 => .IdList

def scale : Kind → FilterScale
  | .mask32 | .list32 => .scale32bit
  | .mask16 | .list16 => .scale16bit

variable {Owner : Type}

/-- What the filter contributes to its bank. -/
def words (f : CAN_Filter Owner) : Kind → List (BitVec 16)
  | .mask32 => [f.idLow32, f.idHigh32, f.maskLow32, f.maskHigh32]
  | .list32 => [f.idLow32, f.idHigh32]
  | .mask16 => [f.id16, f.mask16]
  | .list16 => [f.id16]

end Kind

variable {Owner : Type}

def CAN_Filter.kind (f : CAN_Filter Owner) : Kind :=
  match f.is16Bit, f.isSingleIdWhen16, f.isSingleIdWhen32 with
  | false, _, false => .mask32
  | false, _, true => .list32
  | true, false, _ => .mask16
  | true, true, _ => .list16

/-- In the order in which `setupFilters` fills them in. -/
def CAN_FilterInitTypeDef.fields (init : CAN_FilterInitTypeDef) : List (BitVec 16) :=
  [init.CAN_FilterIdLow, init.CAN_FilterIdHigh, init.CAN_FilterMaskIdLow,
    init.CAN_FilterMaskIdHigh]

/-- A bank and the filters that are in it. -/
structure Bank (Owner : Type) where
  kind : Kind
  entries : List (CAN_Filter Owner)

/-- What the registers of the bank are to be. -/
def Bank.configured (bank : Bank Owner) : FilterBank :=
  match bank.entries.flatMap fun f => bank.kind.words f with
  | [idLow, idHigh, maskIdLow, maskIdHigh] =>
    CAN_FilterInitTypeDef.configured {
      CAN_FilterIdLow := idLow
      CAN_FilterIdHigh := idHigh
      CAN_FilterMaskIdLow := maskIdLow
      CAN_FilterMaskIdHigh := maskIdHigh
      CAN_FilterNumber := 0
      CAN_FilterMode := bank.kind.mode
      CAN_FilterScale := bank.kind.scale }
  | _ => {}

theorem configured_of_fields {init : CAN_FilterInitTypeDef} {bank : Bank Owner}
    (hfields : init.fields = bank.entries.flatMap fun f => bank.kind.words f)
    (hmode : init.CAN_FilterMode = bank.kind.mode)
    (hscale : init.CAN_FilterScale = bank.kind.scale) : init.configured = bank.configured := by
  rw [Bank.configured, ← hfields, ← hmode, ← hscale]
  rfl

def listed (banks : List (Bank Owner)) : List (CAN_Filter Owner) := banks.flatMap Bank.entries

@[simp] theorem listed_append (banks later : List (Bank Owner)) :
    listed (banks ++ later) = listed banks ++ listed later := List.flatMap_append

/-- The banks that the filters of one kind take. -/
def banksOf (kind : Kind) (filters : List (CAN_Filter Owner)) : List (Bank Owner) :=
  (Packing.pack kind.capacity (filters.filter fun f => f.kind = kind)).map (Bank.mk kind)

def layout (filters : List (CAN_Filter Owner)) : List (Bank Owner) :=
  banksOf .mask32 filters ++ banksOf .list32 filters ++ banksOf .mask16 filters ++
    banksOf .list16 filters

/-! ### One bank after the other -/

/-- The banks are set up and their filters listed; the rest of the registers is as it was, and so
is `hwFilterOrder` from `filterIndex` on. -/
structure Loaded (bankOffset : Nat) (start : FilterSetup Owner) (banks : List (Bank Owner))
    (setup : FilterSetup Owner) : Prop where
  fits : banks.length ≤ numBanks
  registers : ∀ number bank, banks[number]? = some bank →
    setup.sFilterRegister (bankOffset + number) = bank.configured
  otherBanks : ∀ number, number < bankOffset ∨ bankOffset + banks.length ≤ number →
    setup.sFilterRegister number = start.sFilterRegister number
  listed_le : (listed banks).length ≤ setup.filterIndex
  order : setup.hwFilterOrder.front (listed banks).length = (listed banks).map some
  behind : ∀ index, setup.filterIndex ≤ index →
    setup.hwFilterOrder index = start.hwFilterOrder index

/-- `setupFilters` comes to the end of one of its loops. -/
structure Settled (bankOffset : Nat) (start : FilterSetup Owner) (banks : List (Bank Owner))
    (setup : FilterSetup Owner) : Prop extends Loaded bankOffset start banks setup where
  bank_eq : setup.bank = banks.length
  filterIndex_eq : setup.filterIndex = (listed banks).length

/-- It gives up in front of a bank that it would need. -/
def GivesUp (bankOffset : Nat) (start : FilterSetup Owner) (wanted : List (Bank Owner))
    (setup : FilterSetup Owner) : Prop :=
  ∃ banks more, wanted = banks ++ more ∧ more ≠ [] ∧ banks.length = numBanks ∧
    Loaded bankOffset start banks setup ∧ setup.filterIndex ≤ (listed wanted).length

theorem GivesUp.append {bankOffset : Nat} {start setup : FilterSetup Owner}
    {wanted : List (Bank Owner)} (h : GivesUp bankOffset start wanted setup)
    (later : List (Bank Owner)) : GivesUp bankOffset start (wanted ++ later) setup := by
  obtain ⟨banks, more, rfl, hmore, hlength, hloaded, hindex⟩ := h
  refine ⟨banks, more ++ later, List.append_assoc _ _ _, ?_, hlength, hloaded, ?_⟩
  · exact fun hnil => hmore (List.append_eq_nil_iff.mp hnil).1
  · rw [listed_append, List.length_append]
    exact Nat.le_add_right_of_le hindex

/-- In the loop for one kind, behind the banks that are `done`. -/
structure Filling (bankOffset : Nat) (start : FilterSetup Owner) (done : List (Bank Owner))
    (kind : Kind) (packing : Packing (CAN_Filter Owner)) (setup : FilterSetup Owner) : Prop
    extends Loaded bankOffset start (done ++ packing.closed.map (Bank.mk kind)) setup where
  bank_eq : setup.bank = done.length + packing.closed.length
  filterIndex_eq : setup.filterIndex =
    (listed (done ++ packing.closed.map (Bank.mk kind))).length + packing.opened.length
  opened : setup.hwFilterOrder.front setup.filterIndex =
    (listed (done ++ packing.closed.map (Bank.mk kind)) ++ packing.opened).map some
  fields : (packing.opened.flatMap fun f => kind.words f) <+: setup.filterInit.fields
  mode_eq : setup.filterInit.CAN_FilterMode = kind.mode
  scale_eq : setup.filterInit.CAN_FilterScale = kind.scale
  /-- The first loop does without `subBank`. -/
  subBank_eq : kind ≠ .mask32 → setup.subBank = packing.opened.length

section filling

variable {bankOffset : Nat} {start self : FilterSetup Owner} {done : List (Bank Owner)}
  {kind : Kind} {closed : List (List (CAN_Filter Owner))} {opened : List (CAN_Filter Owner)}

/-- One more filter is in the open bank. -/
theorem Filling.opens (h : Filling bankOffset start done kind ⟨closed, opened⟩ self)
    {f : CAN_Filter Owner} {filterInit : CAN_FilterInitTypeDef} {subBank : Nat}
    (hfields : ((opened ++ [f]).flatMap fun f => kind.words f) <+: filterInit.fields)
    (hmode : filterInit.CAN_FilterMode = kind.mode)
    (hscale : filterInit.CAN_FilterScale = kind.scale)
    (hsubBank : kind ≠ .mask32 → subBank = opened.length + 1) :
    Filling bankOffset start done kind ⟨closed, opened ++ [f]⟩
      { self with
        subBank := subBank
        filterIndex := self.filterIndex + 1
        filterInit := filterInit
        hwFilterOrder := self.hwFilterOrder.store self.filterIndex (some f) } where
  fits := h.fits
  registers := h.registers
  otherBanks := h.otherBanks
  listed_le := Nat.le_succ_of_le h.listed_le
  order := by
    rw [Memory.front_store_of_le _ _ h.listed_le]
    exact h.order
  behind index hindex := by
    dsimp only at hindex ⊢
    rw [Memory.store_other _ _ (Nat.ne_of_gt hindex)]
    exact h.behind index (Nat.le_of_succ_le hindex)
  bank_eq := h.bank_eq
  filterIndex_eq := by simp [h.filterIndex_eq, Nat.add_assoc]
  opened := by
    rw [Memory.front_store_end, h.opened]
    simp
  fields := hfields
  mode_eq := hmode
  scale_eq := hscale
  subBank_eq hkind := by simpa using hsubBank hkind

/-- The open bank is full and is set up. -/
theorem Filling.closes (h : Filling bankOffset start done kind ⟨closed, opened⟩ self)
    (hroom : self.bank < numBanks)
    (hfields : self.filterInit.fields = opened.flatMap fun f => kind.words f) {subBank : Nat}
    (hsubBank : kind ≠ .mask32 → subBank = 0) :
    Filling bankOffset start done kind ⟨closed ++ [opened], []⟩
      { self with
        bank := self.bank + 1
        subBank := subBank
        filterInit := { self.filterInit with CAN_FilterNumber := bankOffset + self.bank }
        sFilterRegister :=
          self.sFilterRegister.store (bankOffset + self.bank) self.filterInit.configured } := by
  have hbank : self.bank = (done ++ closed.map (Bank.mk kind)).length := by
    simpa using h.bank_eq
  have hbanks : done ++ (closed ++ [opened]).map (Bank.mk kind) =
      done ++ closed.map (Bank.mk kind) ++ [⟨kind, opened⟩] := by simp
  have hlisted : listed (done ++ (closed ++ [opened]).map (Bank.mk kind)) =
      listed (done ++ closed.map (Bank.mk kind)) ++ opened := by
    rw [hbanks, listed_append]
    simp [listed]
  have hindex : self.filterIndex =
      (listed (done ++ (closed ++ [opened]).map (Bank.mk kind))).length := by
    rw [hlisted, List.length_append]
    exact h.filterIndex_eq
  have horder : self.hwFilterOrder.front self.filterIndex =
      (listed (done ++ (closed ++ [opened]).map (Bank.mk kind))).map some := by
    rw [hlisted]
    exact h.opened
  constructor
  case toLoaded =>
    constructor
    case fits =>
      rw [hbanks, List.length_append, List.length_singleton, ← hbank]
      exact hroom
    case registers =>
      intro number bank hnumber
      dsimp only at hnumber ⊢
      rw [hbanks, List.getElem?_append] at hnumber
      split at hnumber
      · next hbefore =>
        rw [Memory.store_other _ _ (by omega)]
        exact h.registers number bank hnumber
      · have hzero : number - (done ++ closed.map (Bank.mk kind)).length = 0 := by
          have hlt := List.getElem?_eq_some_iff.mp hnumber |>.1
          rw [List.length_singleton] at hlt
          omega
        rw [hzero, List.getElem?_cons_zero, Option.some.injEq] at hnumber
        have heq : number = self.bank := by omega
        rw [heq, Memory.store_same, ← hnumber]
        exact configured_of_fields hfields h.mode_eq h.scale_eq
    case otherBanks =>
      intro number hnumber
      rw [hbanks, List.length_append, List.length_singleton, ← hbank] at hnumber
      dsimp only
      rw [Memory.store_other _ _ (by omega)]
      apply h.otherBanks
      dsimp only
      omega
    case listed_le => exact Nat.le_of_eq hindex.symm
    case order =>
      rw [← hindex]
      exact horder
    case behind => exact h.behind
  case bank_eq => simp [h.bank_eq, Nat.add_assoc]
  case filterIndex_eq => exact hindex
  case opened =>
    rw [List.append_nil]
    exact horder
  case fields => exact List.nil_prefix
  case mode_eq => exact h.mode_eq
  case scale_eq => exact h.scale_eq
  case subBank_eq => exact hsubBank

/-- One more filter fills the open bank. -/
theorem Filling.fills (h : Filling bankOffset start done kind ⟨closed, opened⟩ self)
    {f : CAN_Filter Owner} (hfull : opened.length + 1 = kind.capacity)
    (hroom : self.bank < numBanks) {filterInit : CAN_FilterInitTypeDef} {subBank : Nat}
    (hfields : filterInit.fields = (opened ++ [f]).flatMap fun f => kind.words f)
    (hmode : filterInit.CAN_FilterMode = kind.mode)
    (hscale : filterInit.CAN_FilterScale = kind.scale)
    (hsubBank : kind ≠ .mask32 → subBank = 0) :
    Filling bankOffset start done kind (Packing.add kind.capacity ⟨closed, opened⟩ f)
      { self with
        bank := self.bank + 1
        subBank := subBank
        filterIndex := self.filterIndex + 1
        filterInit := { filterInit with CAN_FilterNumber := bankOffset + self.bank }
        hwFilterOrder := self.hwFilterOrder.store self.filterIndex (some f)
        sFilterRegister :=
          self.sFilterRegister.store (bankOffset + self.bank) filterInit.configured } := by
  rw [Packing.add_of_full hfull]
  have hheld : ((opened ++ [f]).flatMap fun f => kind.words f) <+: filterInit.fields := by
    rw [hfields]
  have hopens := h.opens hheld hmode hscale fun _ => rfl
  exact hopens.closes hroom hfields hsubBank

theorem Filling.settled (h : Filling bankOffset start done kind ⟨closed, []⟩ self) :
    Settled bankOffset start (done ++ closed.map (Bank.mk kind)) self where
  toLoaded := h.toLoaded
  bank_eq := by simp [h.bank_eq]
  filterIndex_eq := h.filterIndex_eq

/-- There is no bank any more that the filter could go into. -/
structure Refuses (bankOffset : Nat) (start : FilterSetup Owner) (done : List (Bank Owner))
    (kind : Kind) (packing : Packing (CAN_Filter Owner)) (f : CAN_Filter Owner)
    (failed : FilterSetup Owner) : Prop
    extends Loaded bankOffset start (done ++ packing.closed.map (Bank.mk kind)) failed where
  kind_eq : f.kind = kind
  full : packing.opened.length + 1 = kind.capacity
  used : numBanks ≤ done.length + packing.closed.length
  filterIndex_le : failed.filterIndex ≤
    (listed (done ++ packing.closed.map (Bank.mk kind))).length + kind.capacity

/-! ### The loops -/

/-- What a loop for one kind makes of the next filter. -/
def advance (kind : Kind) (packing : Packing (CAN_Filter Owner)) (f : CAN_Filter Owner) :
    Packing (CAN_Filter Owner) :=
  if f.kind = kind then packing.add kind.capacity f else packing

theorem foldl_advance (filters : List (CAN_Filter Owner))
    (packing : Packing (CAN_Filter Owner)) : filters.foldl (advance kind) packing =
      (filters.filter fun f => f.kind = kind).foldl (Packing.add kind.capacity) packing := by
  rw [List.foldl_filter]
  simp only [decide_eq_true_eq]
  rfl

theorem Refuses.givesUp {before after : List (CAN_Filter Owner)} {f : CAN_Filter Owner}
    (h : Refuses bankOffset start done kind (before.foldl (advance kind) {}) f self) :
    GivesUp bankOffset start (done ++ banksOf kind (before ++ f :: after)) self := by
  have hused := h.used
  have hfits := h.fits
  generalize hpacking : before.foldl (advance kind) {} = packing at *
  obtain ⟨more, hmore⟩ : packing.closed ++ [packing.opened ++ [f]] <+:
      Packing.pack kind.capacity ((before ++ f :: after).filter fun f => f.kind = kind) := by
    rw [Packing.pack, ← foldl_advance, List.foldl_append, hpacking, List.foldl_cons, foldl_advance,
      advance, if_pos h.kind_eq, Packing.add_of_full h.full]
    change ({ closed := packing.closed ++ [packing.opened ++ [f]] } : Packing _).closed <+: _
    exact Packing.closed_prefix_foldl _
  have hbanks : done ++ banksOf kind (before ++ f :: after) =
      done ++ packing.closed.map (Bank.mk kind) ++
        ⟨kind, packing.opened ++ [f]⟩ :: more.map (Bank.mk kind) := by
    rw [banksOf, ← hmore]
    simp
  refine ⟨_, _, hbanks, List.cons_ne_nil _ _, ?_, h.toLoaded, ?_⟩
  · rw [List.length_append, List.length_map] at hfits ⊢
    omega
  · have hindex := h.filterIndex_le
    have hfull := h.full
    rw [hbanks]
    simp only [listed, List.flatMap_append, List.flatMap_cons, List.length_append,
      List.length_singleton] at hindex ⊢
    omega

/-- Every loop starts behind the banks of the loops before. -/
theorem Settled.filling (h : Settled bankOffset start done self) (kind : Kind) :
    Filling bankOffset start done kind {} (self.withMode kind.mode kind.scale) := by
  have hdone : done ++ ([] : List (List (CAN_Filter Owner))).map (Bank.mk kind) = done := by simp
  constructor
  case toLoaded =>
    rw [hdone]
    exact { h.toLoaded with }
  case bank_eq => exact h.bank_eq
  case filterIndex_eq =>
    rw [hdone]
    exact h.filterIndex_eq
  case opened =>
    rw [hdone, List.append_nil]
    exact (congrArg _ h.filterIndex_eq).trans h.order
  case fields => exact List.nil_prefix
  case mode_eq => rfl
  case scale_eq => rfl
  case subBank_eq => exact fun _ => rfl

theorem Settled.loop {step : FilterSetup Owner → CAN_Filter Owner →
      Except (FilterSetup Owner) (FilterSetup Owner)}
    (hstep : ∀ packing setup f, packing.opened.length < kind.capacity →
      Filling bankOffset start done kind packing setup →
        Outcome (Filling bankOffset start done kind (advance kind packing f))
          (Refuses bankOffset start done kind packing f) (step setup f))
    (h : Settled bankOffset start done self) (filters : List (CAN_Filter Owner)) :
    Outcome
      (fun setup => (filters.foldl (advance kind) {}).opened.length < kind.capacity ∧
        Filling bankOffset start done kind (filters.foldl (advance kind) {}) setup)
      (GivesUp bankOffset start (done ++ banksOf kind filters))
      (filters.foldlM step (self.withMode kind.mode kind.scale)) := by
  have hroom : (0 : Nat) < kind.capacity := by cases kind <;> decide
  have hadvance : ∀ (packing : Packing (CAN_Filter Owner)) f,
      packing.opened.length < kind.capacity →
        (advance kind packing f).opened.length < kind.capacity := by
    intro packing f hpacking
    rw [advance]
    split
    · exact Packing.room_add hpacking f
    · exact hpacking
  have hsteps : ∀ (packing : Packing (CAN_Filter Owner)) setup f,
      packing.opened.length < kind.capacity ∧ Filling bankOffset start done kind packing setup →
        Outcome (fun next => (advance kind packing f).opened.length < kind.capacity ∧
            Filling bankOffset start done kind (advance kind packing f) next)
          (Refuses bankOffset start done kind packing f) (step setup f) := by
    intro packing setup f hsetup
    apply (hstep packing setup f hsetup.1 hsetup.2).mono
    · exact fun next hnext => ⟨hadvance packing f hsetup.1, hnext⟩
    · exact fun failed => id
  have hstart : ({} : Packing (CAN_Filter Owner)).opened.length < kind.capacity ∧
      Filling bankOffset start done kind {} (self.withMode kind.mode kind.scale) :=
    ⟨hroom, h.filling kind⟩
  apply (Outcome.foldlM hsteps hstart filters).mono
  · exact fun setup hsetup => hsetup
  · rintro failed ⟨before, f, after, rfl, hrefuses⟩
    exact hrefuses.givesUp

theorem Filling.skips {packing : Packing (CAN_Filter Owner)} {f : CAN_Filter Owner}
    (h : Filling bankOffset start done kind packing self) (hkind : f.kind ≠ kind) :
    Filling bankOffset start done kind (advance kind packing f) self := by
  rwa [advance, if_neg hkind]

theorem is_mask32 (f : CAN_Filter Owner) :
    (!f.is16Bit && !f.isSingleIdWhen32) = decide (f.kind = .mask32) := by
  rw [CAN_Filter.kind]
  cases f.is16Bit <;> cases f.isSingleIdWhen16 <;> cases f.isSingleIdWhen32 <;> rfl

theorem is_list32 (f : CAN_Filter Owner) :
    (!f.is16Bit && f.isSingleIdWhen32) = decide (f.kind = .list32) := by
  rw [CAN_Filter.kind]
  cases f.is16Bit <;> cases f.isSingleIdWhen16 <;> cases f.isSingleIdWhen32 <;> rfl

theorem is_mask16 (f : CAN_Filter Owner) :
    (f.is16Bit && !f.isSingleIdWhen16) = decide (f.kind = .mask16) := by
  rw [CAN_Filter.kind]
  cases f.is16Bit <;> cases f.isSingleIdWhen16 <;> cases f.isSingleIdWhen32 <;> rfl

theorem is_list16 (f : CAN_Filter Owner) :
    (f.is16Bit && f.isSingleIdWhen16) = decide (f.kind = .list16) := by
  rw [CAN_Filter.kind]
  cases f.is16Bit <;> cases f.isSingleIdWhen16 <;> cases f.isSingleIdWhen32 <;> rfl

/-- `takeBank` where a bank is needed for the filter. -/
theorem Filling.refuses {f : CAN_Filter Owner}
    (h : Filling bankOffset start done kind ⟨closed, opened⟩ self) (hkind : f.kind = kind)
    (hfull : opened.length + 1 = kind.capacity) (hused : numBanks ≤ self.bank)
    {failed : FilterSetup Owner}
    (hloaded : Loaded bankOffset start (done ++ closed.map (Bank.mk kind)) failed)
    (hindex : failed.filterIndex ≤ self.filterIndex + 1) :
    Refuses bankOffset start done kind ⟨closed, opened⟩ f failed where
  toLoaded := hloaded
  kind_eq := hkind
  full := hfull
  used := h.bank_eq ▸ hused
  filterIndex_le := by
    have hopened := h.filterIndex_eq
    dsimp only at hopened ⊢
    omega

/-- The filter is listed already. -/
theorem Filling.refused {f : CAN_Filter Owner}
    (h : Filling bankOffset start done kind ⟨closed, opened⟩ self) (hkind : f.kind = kind)
    (hfull : opened.length + 1 = kind.capacity) (hused : numBanks ≤ self.bank)
    {filterInit : CAN_FilterInitTypeDef} {subBank : Nat}
    (hfields : filterInit.fields = (opened ++ [f]).flatMap fun f => kind.words f)
    (hmode : filterInit.CAN_FilterMode = kind.mode)
    (hscale : filterInit.CAN_FilterScale = kind.scale) :
    Refuses bankOffset start done kind ⟨closed, opened⟩ f
      { self with
        subBank := subBank
        filterIndex := self.filterIndex + 1
        filterInit := filterInit
        hwFilterOrder := self.hwFilterOrder.store self.filterIndex (some f) } := by
  have hheld : ((opened ++ [f]).flatMap fun f => kind.words f) <+: filterInit.fields := by
    rw [hfields]
  have hopens := h.opens hheld hmode hscale fun _ => rfl
  exact h.refuses hkind hfull hused { hopens.toLoaded with } (Nat.le_refl _)

theorem outcome_takeBank {good bad : FilterSetup Owner → Prop}
    {next : FilterSetup Owner → Except (FilterSetup Owner) (FilterSetup Owner)}
    (hused : numBanks ≤ self.bank → bad self)
    (hfree : self.bank < numBanks → Outcome good bad (next { self with
      filterInit := { self.filterInit with CAN_FilterNumber := bankOffset + self.bank }
      bank := self.bank + 1 })) :
    Outcome good bad (self.takeBank bankOffset >>= next) := by
  rw [FilterSetup.takeBank]
  split
  · next hbank => exact hused hbank
  · next hbank => exact hfree (Nat.not_le.mp hbank)

theorem Filling.addMask32 {packing : Packing (CAN_Filter Owner)}
    (h : Filling bankOffset start done .mask32 packing self)
    (hroom : packing.opened.length < Kind.capacity .mask32) (f : CAN_Filter Owner) :
    Outcome (Filling bankOffset start done .mask32 (advance .mask32 packing f))
      (Refuses bankOffset start done .mask32 packing f) (self.addMask32 bankOffset f) := by
  rw [FilterSetup.addMask32, is_mask32]
  by_cases hkind : f.kind = .mask32
  · obtain ⟨closed, opened⟩ := packing
    obtain rfl : opened = [] := List.length_eq_zero_iff.mp (Nat.lt_one_iff.mp hroom)
    rw [if_pos (decide_eq_true hkind), advance, if_pos hkind]
    apply outcome_takeBank
    · exact fun hused => h.refuses hkind rfl hused h.toLoaded (Nat.le_succ _)
    · intro hfree
      have hwhole : CAN_FilterInitTypeDef.fields { self.filterInit with
          CAN_FilterIdLow := f.idLow32
          CAN_FilterIdHigh := f.idHigh32
          CAN_FilterMaskIdLow := f.maskLow32
          CAN_FilterMaskIdHigh := f.maskHigh32 } =
          ([] ++ [f]).flatMap fun f => Kind.words f .mask32 := rfl
      exact .ok (h.fills rfl hfree hwhole h.mode_eq h.scale_eq fun hother => absurd rfl hother)
  · rw [if_neg (by simpa using hkind)]
    exact h.skips hkind

theorem Filling.addList32 {packing : Packing (CAN_Filter Owner)}
    (h : Filling bankOffset start done .list32 packing self)
    (hroom : packing.opened.length < Kind.capacity .list32) (f : CAN_Filter Owner) :
    Outcome (Filling bankOffset start done .list32 (advance .list32 packing f))
      (Refuses bankOffset start done .list32 packing f) (self.addList32 bankOffset f) := by
  rw [FilterSetup.addList32, is_list32]
  by_cases hkind : f.kind = .list32
  · obtain ⟨closed, opened⟩ := packing
    rw [if_pos (decide_eq_true hkind), advance, if_pos hkind]
    match opened, hroom with
    | [], _ =>
      have hsubBank : self.subBank = 0 := h.subBank_eq nofun
      have hheld : ([] ++ [f]).flatMap (fun f => Kind.words f .list32) <+:
          CAN_FilterInitTypeDef.fields { self.filterInit with
            CAN_FilterIdLow := f.idLow32
            CAN_FilterIdHigh := f.idHigh32 } := ⟨_, rfl⟩
      rw [if_pos hsubBank]
      exact .ok (h.opens hheld h.mode_eq h.scale_eq fun _ => congrArg (· + 1) hsubBank)
    | [first], _ =>
      have hsubBank : self.subBank = 1 := h.subBank_eq nofun
      have hwhole : CAN_FilterInitTypeDef.fields { self.filterInit with
          CAN_FilterMaskIdLow := f.idLow32
          CAN_FilterMaskIdHigh := f.idHigh32 } =
          ([first] ++ [f]).flatMap fun f => Kind.words f .list32 := by
        simpa [Kind.words, CAN_FilterInitTypeDef.fields, eq_comm] using h.fields
      rw [if_neg (by simp [hsubBank])]
      apply outcome_takeBank
      · exact fun hused => h.refuses hkind rfl hused { h.toLoaded with } (Nat.le_succ _)
      · exact fun hfree => .ok (h.fills rfl hfree hwhole h.mode_eq h.scale_eq fun _ => rfl)
  · rw [if_neg (by simpa using hkind)]
    exact h.skips hkind

theorem Filling.addMask16 {packing : Packing (CAN_Filter Owner)}
    (h : Filling bankOffset start done .mask16 packing self)
    (hroom : packing.opened.length < Kind.capacity .mask16) (f : CAN_Filter Owner) :
    Outcome (Filling bankOffset start done .mask16 (advance .mask16 packing f))
      (Refuses bankOffset start done .mask16 packing f) (self.addMask16 bankOffset f) := by
  rw [FilterSetup.addMask16, is_mask16]
  by_cases hkind : f.kind = .mask16
  · obtain ⟨closed, opened⟩ := packing
    rw [if_pos (decide_eq_true hkind), advance, if_pos hkind]
    match opened, hroom with
    | [], _ =>
      have hsubBank : self.subBank = 0 := h.subBank_eq nofun
      have hheld : ([] ++ [f]).flatMap (fun f => Kind.words f .mask16) <+:
          CAN_FilterInitTypeDef.fields { self.filterInit with
            CAN_FilterIdLow := f.id16
            CAN_FilterIdHigh := f.mask16 } := ⟨_, rfl⟩
      rw [if_pos hsubBank]
      exact .ok (h.opens hheld h.mode_eq h.scale_eq fun _ => congrArg (· + 1) hsubBank)
    | [first], _ =>
      have hsubBank : self.subBank = 1 := h.subBank_eq nofun
      have hwhole : CAN_FilterInitTypeDef.fields { self.filterInit with
          CAN_FilterMaskIdLow := f.id16
          CAN_FilterMaskIdHigh := f.mask16 } =
          ([first] ++ [f]).flatMap fun f => Kind.words f .mask16 := by
        simpa [Kind.words, CAN_FilterInitTypeDef.fields, eq_comm] using h.fields
      rw [if_neg (by simp [hsubBank])]
      apply outcome_takeBank
      · exact fun hused => h.refused hkind rfl hused hwhole h.mode_eq h.scale_eq
      · exact fun hfree => .ok (h.fills rfl hfree hwhole h.mode_eq h.scale_eq fun _ => rfl)
  · rw [if_neg (by simpa using hkind)]
    exact h.skips hkind

theorem Filling.addList16 {packing : Packing (CAN_Filter Owner)}
    (h : Filling bankOffset start done .list16 packing self)
    (hroom : packing.opened.length < Kind.capacity .list16) (f : CAN_Filter Owner) :
    Outcome (Filling bankOffset start done .list16 (advance .list16 packing f))
      (Refuses bankOffset start done .list16 packing f) (self.addList16 bankOffset f) := by
  rw [FilterSetup.addList16, is_list16]
  by_cases hkind : f.kind = .list16
  · obtain ⟨closed, opened⟩ := packing
    have hfields := h.fields
    rw [if_pos (decide_eq_true hkind), advance, if_pos hkind]
    match opened, hroom with
    | [], _ =>
      have hsubBank : self.subBank = 0 := h.subBank_eq nofun
      have hheld : ([] ++ [f]).flatMap (fun f => Kind.words f .list16) <+:
          CAN_FilterInitTypeDef.fields { self.filterInit with CAN_FilterIdLow := f.id16 } :=
        ⟨_, rfl⟩
      simp only [hsubBank]
      exact .ok (h.opens hheld h.mode_eq h.scale_eq fun _ => rfl)
    | [first], _ =>
      have hsubBank : self.subBank = 1 := h.subBank_eq nofun
      have hheld : ([first] ++ [f]).flatMap (fun f => Kind.words f .list16) <+:
          CAN_FilterInitTypeDef.fields { self.filterInit with CAN_FilterIdHigh := f.id16 } := by
        simpa [Kind.words, CAN_FilterInitTypeDef.fields] using hfields
      simp only [hsubBank]
      exact .ok (h.opens hheld h.mode_eq h.scale_eq fun _ => rfl)
    | [first, second], _ =>
      have hsubBank : self.subBank = 2 := h.subBank_eq nofun
      have hheld : ([first, second] ++ [f]).flatMap (fun f => Kind.words f .list16) <+:
          CAN_FilterInitTypeDef.fields { self.filterInit with CAN_FilterMaskIdLow := f.id16 } := by
        simpa [Kind.words, CAN_FilterInitTypeDef.fields] using hfields
      simp only [hsubBank]
      exact .ok (h.opens hheld h.mode_eq h.scale_eq fun _ => rfl)
    | [first, second, third], _ =>
      have hsubBank : self.subBank = 3 := h.subBank_eq nofun
      have hwhole : CAN_FilterInitTypeDef.fields { self.filterInit with
          CAN_FilterMaskIdHigh := f.id16 } =
          ([first, second, third] ++ [f]).flatMap fun f => Kind.words f .list16 := by
        simpa [Kind.words, CAN_FilterInitTypeDef.fields, eq_comm] using hfields
      simp only [hsubBank]
      apply outcome_takeBank
      · exact fun hused => h.refused hkind rfl hused hwhole h.mode_eq h.scale_eq
      · exact fun hfree => .ok (h.fills rfl hfree hwhole h.mode_eq h.scale_eq fun _ => rfl)
  · rw [if_neg (by simpa using hkind)]
    exact h.skips hkind

/-! ### Behind the loops -/

theorem Filling.lastBank (h : Filling bankOffset start done kind ⟨closed, opened⟩ self)
    (hwhole : self.filterInit.fields = opened.flatMap fun f => kind.words f) (subBank : Nat) :
    Outcome (Settled bankOffset start (done ++ (closed ++ [opened]).map (Bank.mk kind)))
      (GivesUp bankOffset start (done ++ (closed ++ [opened]).map (Bank.mk kind)))
      ({ self with subBank := subBank }.takeBank bankOffset >>= fun self =>
        pure self.CAN_FilterInit) := by
  apply outcome_takeBank
  · intro hused
    have hbanks := h.bank_eq
    have hfits := h.fits
    have hindex := h.filterIndex_eq
    refine ⟨done ++ closed.map (Bank.mk kind), [⟨kind, opened⟩], by simp, List.cons_ne_nil _ _, ?_,
      { h.toLoaded with }, ?_⟩
    · rw [List.length_append, List.length_map] at hfits ⊢
      dsimp only at hfits hbanks hused
      omega
    · simp [hindex, listed, Nat.add_assoc]
  · exact fun hfree => .ok { (h.closes hfree hwhole fun _ => rfl).settled with }

theorem Filling.last_listed (h : Filling bankOffset start done kind ⟨closed, opened⟩ self)
    {last : CAN_Filter Owner} (hlast : opened.getLast? = some last) :
    self.hwFilterOrder (self.filterIndex - 1) = some last := by
  obtain ⟨before, rfl⟩ := List.getLast?_eq_some_iff.mp hlast
  have hopened := congrArg List.getLast? h.opened
  have hindex := h.filterIndex_eq
  obtain ⟨count, hcount⟩ : ∃ count, self.filterIndex = count + 1 := by
    rw [List.length_append, ← Nat.add_assoc] at hindex
    exact ⟨_, hindex⟩
  rw [hcount, Memory.front_succ, List.getLast?_concat, ← List.append_assoc, List.map_append,
    List.map_singleton, List.getLast?_concat] at hopened
  rw [hcount]
  exact Option.some.inj hopened

theorem Filling.finishPair {packing : Packing (CAN_Filter Owner)}
    (h : Filling bankOffset start done kind packing self) (hcapacity : kind.capacity = 2)
    (hwords : ∀ f : CAN_Filter Owner, ∃ low high, kind.words f = [low, high])
    (hroom : packing.opened.length < kind.capacity) :
    Outcome (Settled bankOffset start (done ++ (packing.finish kind.capacity).map (Bank.mk kind)))
      (GivesUp bankOffset start (done ++ (packing.finish kind.capacity).map (Bank.mk kind)))
      (self.finishPair bankOffset) := by
  have hkind : kind ≠ .mask32 := by
    rintro rfl
    cases hcapacity
  obtain ⟨closed, opened⟩ := packing
  rw [hcapacity] at hroom ⊢
  rw [FilterSetup.finishPair]
  match opened, hroom with
  | [], _ =>
    have hsubBank : self.subBank = 0 := h.subBank_eq hkind
    rw [if_neg (by simp [hsubBank])]
    exact .ok h.settled
  | [first], _ =>
    have hsubBank : self.subBank = 1 := h.subBank_eq hkind
    have hwhole : CAN_FilterInitTypeDef.fields { self.filterInit with
        CAN_FilterMaskIdLow := self.filterInit.CAN_FilterIdLow
        CAN_FilterMaskIdHigh := self.filterInit.CAN_FilterIdHigh } =
        ([first] ++ [first]).flatMap fun f => kind.words f := by
      have hfields := h.fields
      obtain ⟨low, high, hfirst⟩ := hwords first
      simp only [List.flatMap_singleton, hfirst, CAN_FilterInitTypeDef.fields,
        List.cons_prefix_cons] at hfields
      simp [hfirst, CAN_FilterInitTypeDef.fields, hfields.1, hfields.2.1]
    have hheld : (([first] ++ [first]).flatMap fun f => kind.words f) <+:
        CAN_FilterInitTypeDef.fields { self.filterInit with
          CAN_FilterMaskIdLow := self.filterInit.CAN_FilterIdLow
          CAN_FilterMaskIdHigh := self.filterInit.CAN_FilterIdHigh } := by
      rw [hwhole]
    have hopens := h.opens hheld h.mode_eq h.scale_eq fun _ => rfl
    rw [← @Filling.last_listed _ _ _ _ _ _ _ _ h first rfl] at hopens
    rw [if_pos hsubBank]
    exact hopens.lastBank hwhole self.subBank

/-- The last word is repeated. -/
theorem Filling.padList16 (h : Filling bankOffset start done .list16 ⟨closed, opened⟩ self)
    {last : CAN_Filter Owner} (hlast : opened.getLast? = some last)
    (hroom : opened.length < Kind.capacity .list16) :
    Filling bankOffset start done .list16 ⟨closed, opened ++ [last]⟩ self.padList16 := by
  have hsubBank : self.subBank = opened.length := h.subBank_eq nofun
  have hfields := h.fields
  rw [FilterSetup.padList16, FilterSetup.repeatInOrder, h.last_listed hlast, hsubBank]
  match opened, hroom with
  | [first], _ =>
    obtain rfl : first = last := Option.some.inj hlast
    have hheld : ([first] ++ [first]).flatMap (fun f => Kind.words f .list16) <+:
        CAN_FilterInitTypeDef.fields { self.filterInit with
          CAN_FilterIdHigh := self.filterInit.CAN_FilterIdLow } := by
      simpa [Kind.words, CAN_FilterInitTypeDef.fields] using hfields
    exact h.opens hheld h.mode_eq h.scale_eq fun _ => rfl
  | [first, second], _ =>
    obtain rfl : second = last := Option.some.inj hlast
    have hheld : ([first, second] ++ [second]).flatMap (fun f => Kind.words f .list16) <+:
        CAN_FilterInitTypeDef.fields { self.filterInit with
          CAN_FilterMaskIdLow := self.filterInit.CAN_FilterIdHigh } := by
      simpa [Kind.words, CAN_FilterInitTypeDef.fields] using hfields
    exact h.opens hheld h.mode_eq h.scale_eq fun _ => rfl
  | [first, second, third], _ =>
    obtain rfl : third = last := Option.some.inj hlast
    have hheld : ([first, second, third] ++ [third]).flatMap (fun f => Kind.words f .list16) <+:
        CAN_FilterInitTypeDef.fields { self.filterInit with
          CAN_FilterMaskIdHigh := self.filterInit.CAN_FilterMaskIdLow } := by
      simpa [Kind.words, CAN_FilterInitTypeDef.fields] using hfields
    exact h.opens hheld h.mode_eq h.scale_eq fun _ => rfl

theorem Filling.padsList16 (h : Filling bankOffset start done .list16 ⟨closed, opened⟩ self)
    {last : CAN_Filter Owner} (hlast : opened.getLast? = some last) {count : Nat}
    (hroom : opened.length + count ≤ Kind.capacity .list16) :
    Filling bankOffset start done .list16 ⟨closed, opened ++ List.replicate count last⟩
      (FilterSetup.padList16^[count] self) := by
  induction count generalizing self opened with
  | zero => simpa using h
  | succ count ih =>
    have hpadded := h.padList16 hlast (by omega)
    have hless : (opened ++ [last]).length + count ≤ Kind.capacity .list16 := by
      simpa [Nat.add_assoc, Nat.add_comm] using hroom
    have hmore := ih hpadded List.getLast?_concat hless
    rw [List.append_assoc] at hmore
    exact hmore

theorem Filling.finishList16 {packing : Packing (CAN_Filter Owner)}
    (h : Filling bankOffset start done .list16 packing self)
    (hroom : packing.opened.length < Kind.capacity .list16) :
    Outcome
      (Settled bankOffset start
        (done ++ (packing.finish (Kind.capacity .list16)).map (Bank.mk .list16)))
      (GivesUp bankOffset start
        (done ++ (packing.finish (Kind.capacity .list16)).map (Bank.mk .list16)))
      (self.finishList16 bankOffset) := by
  have hsubBank : self.subBank = packing.opened.length := h.subBank_eq nofun
  obtain ⟨closed, opened⟩ := packing
  rw [FilterSetup.finishList16, hsubBank]
  dsimp only at hroom ⊢
  by_cases hopened : opened = []
  · subst hopened
    exact .ok h.settled
  · have hlength : opened.length + (4 - opened.length) = Kind.capacity .list16 :=
      Nat.add_sub_of_le (Nat.le_of_lt hroom)
    have hpadded := h.padsList16 (List.getLast?_eq_some_getLast hopened) (Nat.le_of_eq hlength)
    have hwhole := hpadded.fields.eq_of_length (by
      simp [Kind.words, CAN_FilterInitTypeDef.fields]
      exact hlength)
    rw [if_pos (List.length_pos_iff.mpr hopened), Packing.finish_of_opened hopened]
    exact hpadded.lastBank hwhole.symm _

end filling

/-! ### The whole of it -/

theorem banksOf_eq (kind : Kind) (filters : List (CAN_Filter Owner)) : banksOf kind filters =
    ((filters.foldl (advance kind) {}).finish kind.capacity).map (Bank.mk kind) := by
  rw [banksOf, Packing.pack, foldl_advance]

theorem FilterSetup.setupFilters_outcome (bankOffset : Nat) (filters : List (CAN_Filter Owner))
    {start : FilterSetup Owner} (hstart : Settled bankOffset start [] start) :
    Outcome (Settled bankOffset start (layout filters)) (GivesUp bankOffset start (layout filters))
      (start.setupFilters bankOffset filters) := by
  rw [FilterSetup.setupFilters, layout]
  apply Outcome.bind ((hstart.loop (fun _ _ f hroom h => h.addMask32 hroom f) filters).mono
    (fun _ => id) fun _ h => ((h.append _).append _).append _)
  rintro setup ⟨hroom, h⟩
  have hmask32 : Settled bankOffset start (banksOf .mask32 filters) setup := by
    rw [banksOf_eq]
    generalize filters.foldl (advance .mask32) {} = packing at hroom h
    obtain ⟨closed, opened⟩ := packing
    obtain rfl : opened = [] := List.length_eq_zero_iff.mp (Nat.lt_one_iff.mp hroom)
    exact h.settled
  apply Outcome.bind ((hmask32.loop (fun _ _ f hroom h => h.addList32 hroom f) filters).mono
    (fun _ => id) fun _ h => (h.append _).append _)
  rintro setup ⟨hroom, h⟩
  have hlist32 := h.finishPair rfl (fun f => ⟨_, _, rfl⟩) hroom
  rw [← banksOf_eq] at hlist32
  apply Outcome.bind (hlist32.mono (fun _ => id) fun _ h => (h.append _).append _)
  intro setup h
  apply Outcome.bind ((h.loop (fun _ _ f hroom h => h.addMask16 hroom f) filters).mono
    (fun _ => id) fun _ h => h.append _)
  rintro setup ⟨hroom, h⟩
  have hmask16 := h.finishPair rfl (fun f => ⟨_, _, rfl⟩) hroom
  rw [← banksOf_eq] at hmask16
  apply Outcome.bind (hmask16.mono (fun _ => id) fun _ h => h.append _)
  intro setup h
  apply Outcome.bind (h.loop (fun _ _ f hroom h => h.addList16 hroom f) filters)
  rintro setup ⟨hroom, h⟩
  have hlist16 := h.finishList16 hroom
  rwa [← banksOf_eq] at hlist16

/-- As many filters of a kind as there are. -/
def countOf (kind : Kind) (filters : List (CAN_Filter Owner)) : Nat :=
  (filters.filter fun f => f.kind = kind).length

theorem length_banksOf (kind : Kind) (filters : List (CAN_Filter Owner)) :
    (banksOf kind filters).length =
      (countOf kind filters + (kind.capacity - 1)) / kind.capacity := by
  rw [banksOf, List.length_map, Packing.length_pack kind.capacity_pos, countOf]

/-- The banks that the filters need. -/
def banksNeeded (filters : List (CAN_Filter Owner)) : Nat :=
  countOf .mask32 filters + (countOf .list32 filters + 1) / 2 +
    (countOf .mask16 filters + 1) / 2 + (countOf .list16 filters + 3) / 4

theorem length_layout (filters : List (CAN_Filter Owner)) :
    (layout filters).length = banksNeeded filters := by
  simp [layout, length_banksOf, banksNeeded, Kind.capacity, Nat.add_assoc]

theorem banksNeeded_le_append (filters later : List (CAN_Filter Owner)) :
    banksNeeded filters ≤ banksNeeded (filters ++ later) := by
  have hcount : ∀ kind, countOf kind filters ≤ countOf kind (filters ++ later) := by
    intro kind
    simp [countOf]
  have hmask32 := hcount .mask32
  have hlist32 := hcount .list32
  have hmask16 := hcount .mask16
  have hlist16 := hcount .list16
  rw [banksNeeded, banksNeeded]
  omega

theorem sum_countOf (filters : List (CAN_Filter Owner)) :
    countOf .mask32 filters + countOf .list32 filters + countOf .mask16 filters +
      countOf .list16 filters = filters.length := by
  induction filters with
  | nil => rfl
  | cons f filters ih =>
    simp only [countOf, List.filter_cons] at ih ⊢
    cases f.kind <;> simp <;> omega

theorem length_listed_banksOf (kind : Kind) (filters : List (CAN_Filter Owner)) :
    (listed (banksOf kind filters)).length ≤ countOf kind filters + (kind.capacity - 1) := by
  have hflatten : listed (banksOf kind filters) =
      (Packing.pack kind.capacity (filters.filter fun f => f.kind = kind)).flatten := by
    rw [listed, banksOf, List.flatMap_map]
    exact List.flatMap_id
  rw [hflatten]
  exact Packing.length_flatten_pack kind.capacity_pos

/-- The last bank of each kind is filled up. -/
theorem length_listed_layout (filters : List (CAN_Filter Owner)) :
    (listed (layout filters)).length ≤ filters.length + 5 := by
  have hmask32 := length_listed_banksOf .mask32 filters
  have hlist32 := length_listed_banksOf .list32 filters
  have hmask16 := length_listed_banksOf .mask16 filters
  have hlist16 := length_listed_banksOf .list16 filters
  have hsum := sum_countOf filters
  simp only [Kind.capacity] at hmask32 hlist32 hmask16 hlist16
  simp only [layout, listed_append, List.length_append]
  omega

end Rodos.BareMetal.CanFilters
