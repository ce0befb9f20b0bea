import Rodos.BareMetal.HalCanIncomingFilter

/-! Whose filter has matched: the controller reports the index of a filter in its banks, and the
interrupt takes the owner of what `hwFilterOrder` holds under this index. -/
namespace Rodos.BareMetal.CanFilters
open Library

inductive HwFilter where
  | mask32 (id mask : BitVec 32)
  | list32 (id : BitVec 32)
  | mask16 (id mask : BitVec 16)
  | list16 (id : BitVec 16)

/-- The filters in a bank, as the comments of `CAN_FilterInit` have them. -/
def FilterBank.hwFilters (bank : FilterBank) : List HwFilter :=
  match bank.scale, bank.mode with
  | .scale32bit, .IdMask => [.mask32 bank.FR1 bank.FR2]
  | .scale32bit, .IdList => [.list32 bank.FR1, .list32 bank.FR2]
  | .scale16bit, .IdMask =>
    [.mask16 (bank.FR1.extractLsb' 0 16) (bank.FR1.extractLsb' 16 16),
      .mask16 (bank.FR2.extractLsb' 0 16) (bank.FR2.extractLsb' 16 16)]
  | .scale16bit, .IdList =>
    [.list16 (bank.FR1.extractLsb' 0 16), .list16 (bank.FR1.extractLsb' 16 16),
      .list16 (bank.FR2.extractLsb' 0 16), .list16 (bank.FR2.extractLsb' 16 16)]

variable {Owner : Type}

/-- What the bank is to have of the filter. -/
def CAN_Filter.hwFilter (f : CAN_Filter Owner) : HwFilter :=
  match f.kind with
  | .mask32 => .mask32 (f.idHigh32 ++ f.idLow32) (f.maskHigh32 ++ f.maskLow32)
  | .list32 => .list32 (f.idHigh32 ++ f.idLow32)
  | .mask16 => .mask16 f.id16 f.mask16
  | .list16 => .list16 f.id16

/-- The filters of the controller, numbered as it reports them. -/
def Controllers.hwFilters (self : Controllers Owner) (canIdx : CAN_IDX) : List HwFilter :=
  ((Memory.front (fun number => self.sFilterRegister (canIdx.bankOffset + number)) numBanks).filter
    FilterBank.isActive).flatMap FilterBank.hwFilters

/-- The index of a filter that matches leads to the filter that it was made from. -/
def Controllers.NamesMatched (self : Controllers Owner) (canIdx : CAN_IDX) : Prop :=
  ∀ index hwFilter, (self.hwFilters canIdx)[index]? = some hwFilter →
    ∃ f, (self.CANs canIdx).hwFilterOrder index = some f ∧ f.hwFilter = hwFilter

/-! ### One bank -/

theorem joined_eq (high low : BitVec 16) :
    (0xFFFF#32 &&& high.setWidth 32) <<< 16 ||| (0xFFFF#32 &&& low.setWidth 32) = high ++ low := by
  have hhalf : ∀ half : BitVec 16, (0xFFFF#32 &&& half.setWidth 32).toNat = half.toNat := by
    intro half
    have hlt := half.isLt
    rw [BitVec.toNat_and, BitVec.toNat_setWidth, Nat.and_comm]
    exact (Nat.and_two_pow_sub_one_eq_mod _ 16).trans (by omega)
  have hshifted : high.toNat <<< 16 < 2 ^ 32 := by
    have hlt := high.isLt
    rw [Nat.shiftLeft_eq]
    omega
  apply BitVec.eq_of_toNat_eq
  rw [BitVec.toNat_or, BitVec.toNat_shiftLeft, hhalf, hhalf, Nat.mod_eq_of_lt hshifted,
    BitVec.toNat_append]

/-- Where `CAN_FilterInit` takes the fields from. -/
theorem hwFilters_configured (init : CAN_FilterInitTypeDef) : init.configured.hwFilters =
    match init.CAN_FilterScale, init.CAN_FilterMode with
    | .scale32bit, .IdMask =>
      [.mask32 (init.CAN_FilterIdHigh ++ init.CAN_FilterIdLow)
        (init.CAN_FilterMaskIdHigh ++ init.CAN_FilterMaskIdLow)]
    | .scale32bit, .IdList =>
      [.list32 (init.CAN_FilterIdHigh ++ init.CAN_FilterIdLow),
        .list32 (init.CAN_FilterMaskIdHigh ++ init.CAN_FilterMaskIdLow)]
    | .scale16bit, .IdMask =>
      [.mask16 init.CAN_FilterIdLow init.CAN_FilterMaskIdLow,
        .mask16 init.CAN_FilterIdHigh init.CAN_FilterMaskIdHigh]
    | .scale16bit, .IdList =>
      [.list16 init.CAN_FilterIdLow, .list16 init.CAN_FilterMaskIdLow,
        .list16 init.CAN_FilterIdHigh, .list16 init.CAN_FilterMaskIdHigh] := by
  have hlow : ∀ high low : BitVec 16, (high ++ low : BitVec 32).extractLsb' 0 16 = low :=
    fun _ _ => BitVec.extractLsb'_append_eq_right
  have hhigh : ∀ high low : BitVec 16, (high ++ low : BitVec 32).extractLsb' 16 16 = high :=
    fun _ _ => BitVec.extractLsb'_append_eq_left
  obtain ⟨idLow, idHigh, maskIdLow, maskIdHigh, number, mode, scale⟩ := init
  cases scale <;> cases mode <;>
    simp [CAN_FilterInitTypeDef.configured, FilterBank.hwFilters, joined_eq, hlow, hhigh]

/-- No mask leaves the low bits of an extended identifier out, since `canIDmask` has zeros above
them. -/
theorem CAN_Filter.is16Bit_eq (f : CAN_Filter Owner) : f.is16Bit = !f.isExtID := by
  have hbit : (~~~(f.canIDmask &&& 0x7FFF) == 0) = false := by
    rw [beq_eq_false_iff_ne]
    intro hzero
    have htop := congrArg (·.getLsbD 31) hzero
    simp at htop
  rw [is16Bit, hbit, Bool.or_false]

theorem CAN_Filter.kind_mask16_iff (f : CAN_Filter Owner) :
    f.kind = .mask16 ↔ f.isExtID = false ∧ f.isSingleIdWhen16 = false := by
  rw [kind, f.is16Bit_eq]
  cases f.isExtID <;> cases f.isSingleIdWhen16 <;> cases f.isSingleIdWhen32 <;> simp

theorem CAN_Filter.kind_list16_iff (f : CAN_Filter Owner) :
    f.kind = .list16 ↔ f.isExtID = false ∧ f.isSingleIdWhen16 = true := by
  rw [kind, f.is16Bit_eq]
  cases f.isExtID <;> cases f.isSingleIdWhen16 <;> cases f.isSingleIdWhen32 <;> simp

/-- The bit tells extended identifiers from standard ones. -/
theorem CAN_Filter.id16_ne_mask16 {f other : CAN_Filter Owner} (hstandard : f.isExtID = false) :
    f.id16 ≠ other.mask16 := by
  have hid : f.id16.getLsbD 3 = false := by
    rw [id16, hstandard]
    cases f.rtr <;> simp
  have hmask : other.mask16.getLsbD 3 = true := by
    rw [mask16]
    simp
  intro heq
  rw [heq, hmask] at hid
  cases hid

namespace Bank

/-- The registers of the bank have its filters, one after the other. -/
def Matches (bank : Bank Owner) : Prop :=
  bank.configured.hwFilters = bank.entries.map CAN_Filter.hwFilter

section matching

variable {f second third fourth : CAN_Filter Owner}

theorem matches_mask32 (hkind : f.kind = .mask32) : Matches ⟨.mask32, [f]⟩ := by
  simp [Matches, configured, Kind.words, Kind.mode, Kind.scale, hwFilters_configured,
    CAN_Filter.hwFilter, hkind]

theorem matches_list32 (hkind : f.kind = .list32) (hsecond : second.kind = .list32) :
    Matches ⟨.list32, [f, second]⟩ := by
  simp [Matches, configured, Kind.words, Kind.mode, Kind.scale, hwFilters_configured,
    CAN_Filter.hwFilter, hkind, hsecond]

/-- `setupFilters` puts the second identifier where `CAN_FilterInit` has the first mask. -/
theorem not_matches_mask16 (hkind : f.kind = .mask16) (hsecond : second.kind = .mask16) :
    ¬Matches ⟨.mask16, [f, second]⟩ := by
  have hne : second.id16 ≠ f.mask16 :=
    CAN_Filter.id16_ne_mask16 (second.kind_mask16_iff.mp hsecond).1
  simp [Matches, configured, Kind.words, Kind.mode, Kind.scale, hwFilters_configured,
    CAN_Filter.hwFilter, hkind, hsecond, hne]

/-- And the third identifier where it has the second. -/
theorem matches_list16_iff (hkind : f.kind = .list16) (hsecond : second.kind = .list16)
    (hthird : third.kind = .list16) (hfourth : fourth.kind = .list16) :
    Matches ⟨.list16, [f, second, third, fourth]⟩ ↔ second.id16 = third.id16 := by
  simp [Matches, configured, Kind.words, Kind.mode, Kind.scale, hwFilters_configured,
    CAN_Filter.hwFilter, hkind, hsecond, hthird, hfourth, eq_comm]

end matching

end Bank

/-! ### All banks -/

theorem mem_layout_iff {filters : List (CAN_Filter Owner)} {bank : Bank Owner} :
    bank ∈ layout filters ↔ bank.entries ∈
      Packing.pack bank.kind.capacity (filters.filter fun f => f.kind = bank.kind) := by
  obtain ⟨kind, entries⟩ := bank
  cases kind <;> simp [layout, banksOf]

section layout

variable {filters : List (CAN_Filter Owner)} {bank : Bank Owner} (hbank : bank ∈ layout filters)
include hbank

theorem length_entries : bank.entries.length = bank.kind.capacity :=
  Packing.length_of_mem_pack bank.kind.capacity_pos (mem_layout_iff.mp hbank)

theorem mem_of_mem_entries {f : CAN_Filter Owner} (hf : f ∈ bank.entries) : f ∈ filters := by
  have hmem := (Packing.mem_pack_iff bank.kind.capacity_pos).mp ⟨_, mem_layout_iff.mp hbank, hf⟩
  exact (List.mem_filter.mp hmem).1

theorem kind_of_mem_entries {f : CAN_Filter Owner} (hf : f ∈ bank.entries) :
    f.kind = bank.kind := by
  have hmem := (Packing.mem_pack_iff bank.kind.capacity_pos).mp ⟨_, mem_layout_iff.mp hbank, hf⟩
  simpa using (List.mem_filter.mp hmem).2

/-- A bank is full, and of filters of one kind. -/
theorem layout_cases {motive : Bank Owner → Prop}
    (mask32 : ∀ f, f.kind = .mask32 → motive ⟨.mask32, [f]⟩)
    (list32 : ∀ f second, f.kind = .list32 → second.kind = .list32 → motive ⟨.list32, [f, second]⟩)
    (mask16 : ∀ f second, f.kind = .mask16 → second.kind = .mask16 → motive ⟨.mask16, [f, second]⟩)
    (list16 : ∀ f second third fourth, f.kind = .list16 → second.kind = .list16 →
      third.kind = .list16 → fourth.kind = .list16 →
        motive ⟨.list16, [f, second, third, fourth]⟩) : motive bank := by
  have hlength := length_entries hbank
  have hkind : ∀ f ∈ bank.entries, f.kind = bank.kind := fun _ => kind_of_mem_entries hbank
  obtain ⟨kind, entries⟩ := bank
  cases kind
  case mask32 =>
    obtain ⟨f, rfl⟩ := List.length_eq_one_iff.mp hlength
    exact mask32 f (hkind f (by simp))
  case list32 =>
    obtain ⟨f, second, rfl⟩ := List.length_eq_two.mp hlength
    exact list32 f second (hkind f (by simp)) (hkind second (by simp))
  case mask16 =>
    obtain ⟨f, second, rfl⟩ := List.length_eq_two.mp hlength
    exact mask16 f second (hkind f (by simp)) (hkind second (by simp))
  case list16 =>
    match entries, hlength with
    | [f, second, third, fourth], _ =>
      exact list16 f second third fourth (hkind f (by simp)) (hkind second (by simp))
        (hkind third (by simp)) (hkind fourth (by simp))

theorem isActive_configured : bank.configured.isActive = true := by
  apply layout_cases hbank <;> intros <;> rfl

theorem length_hwFilters : bank.configured.hwFilters.length = bank.entries.length := by
  apply layout_cases hbank <;> intros <;> rfl

end layout

theorem flatMap_eq_iff {α β : Type} {items : List α} {left right : α → List β}
    (hlength : ∀ item ∈ items, (left item).length = (right item).length) :
    items.flatMap left = items.flatMap right ↔ ∀ item ∈ items, left item = right item := by
  induction items with
  | nil => simp
  | cons item items ih =>
    rw [List.forall_mem_cons] at hlength ⊢
    rw [List.flatMap_cons, List.flatMap_cons, ← ih hlength.2]
    constructor
    · intro heq
      exact List.append_inj heq hlength.1
    · rintro ⟨hitem, hitems⟩
      rw [hitem, hitems]

theorem banksOfCtrl_eq {filters : List (CAN_Filter Owner)}
    (hgranted : banksNeeded filters ≤ numBanks) : banksOfCtrl filters = layout filters := by
  rw [banksOfCtrl, List.take_of_length_le]
  rwa [length_layout]

section matching

variable {controllers : Controllers Owner} {canIdx : CAN_IDX}

/-- The active banks are those of the layout. -/
theorem SetUp.hwFilters_eq (h : SetUp controllers canIdx)
    (hgranted : banksNeeded (controllers.CANs canIdx).filters ≤ numBanks) :
    controllers.hwFilters canIdx =
      (layout (controllers.CANs canIdx).filters).flatMap fun bank => bank.configured.hwFilters := by
  have hregisters := h.registers
  have hrest := h.inactive
  rw [banksOfCtrl_eq hgranted] at hregisters
  have hlength := length_layout (controllers.CANs canIdx).filters
  generalize hfilters : (controllers.CANs canIdx).filters = filters at *
  have hactive : ((Memory.front (fun number =>
      controllers.sFilterRegister (canIdx.bankOffset + number)) numBanks).take
        (banksNeeded filters)) = (layout filters).map Bank.configured := by
    apply List.ext_getElem?
    intro number
    rw [Memory.take_front, Memory.getElem?_front, Nat.min_eq_left hgranted, List.getElem?_map]
    split
    · next hnumber =>
      rw [← hlength] at hnumber
      rw [List.getElem?_eq_getElem hnumber, Option.map_some]
      exact congrArg some (hregisters number _ (List.getElem?_eq_getElem hnumber))
    · next hnumber =>
      rw [List.getElem?_eq_none (by omega), Option.map_none]
  have hinactive : ((Memory.front (fun number =>
      controllers.sFilterRegister (canIdx.bankOffset + number)) numBanks).drop
        (banksNeeded filters)).filter FilterBank.isActive = [] := by
    rw [List.filter_eq_nil_iff]
    intro bank hbank
    obtain ⟨number, hnumber⟩ := List.mem_iff_getElem?.mp hbank
    rw [List.getElem?_drop, Memory.getElem?_front] at hnumber
    split at hnumber
    · next hlt =>
      rw [← Option.some.inj hnumber, hrest _ hlt (by omega)]
      exact Bool.false_ne_true
    · cases hnumber
  rw [Controllers.hwFilters, ← List.take_append_drop (banksNeeded filters) (Memory.front _ _),
    List.filter_append, hinactive, List.append_nil, hactive, List.filter_eq_self.mpr,
    List.flatMap_map]
  intro bank hbank
  obtain ⟨bank, hmem, rfl⟩ := List.mem_map.mp hbank
  exact isActive_configured hmem

theorem SetUp.hwFilterOrder_eq (h : SetUp controllers canIdx)
    (hgranted : banksNeeded (controllers.CANs canIdx).filters ≤ numBanks) {index : Nat}
    (hindex : index < (listed (layout (controllers.CANs canIdx).filters)).length) :
    (controllers.CANs canIdx).hwFilterOrder index =
      (listed (layout (controllers.CANs canIdx).filters))[index]? := by
  have horder := congrArg (·[index]?) h.order
  rw [banksOfCtrl_eq hgranted] at horder
  simp only [Memory.getElem?_front, List.getElem?_map, if_pos hindex,
    List.getElem?_eq_getElem hindex, Option.map_some, Option.some.injEq] at horder
  rw [List.getElem?_eq_getElem hindex]
  exact horder

theorem SetUp.length_hwFilters_eq (h : SetUp controllers canIdx)
    (hgranted : banksNeeded (controllers.CANs canIdx).filters ≤ numBanks) :
    (controllers.hwFilters canIdx).length =
      (listed (layout (controllers.CANs canIdx).filters)).length := by
  rw [h.hwFilters_eq hgranted, listed, List.length_flatMap, List.length_flatMap]
  exact congrArg List.sum (List.map_congr_left fun _ => length_hwFilters)

theorem SetUp.mem_filters (h : SetUp controllers canIdx)
    (hgranted : banksNeeded (controllers.CANs canIdx).filters ≤ numBanks) {index : Nat}
    (hindex : index < (controllers.hwFilters canIdx).length) {f : CAN_Filter Owner}
    (hf : (controllers.CANs canIdx).hwFilterOrder index = some f) :
    f ∈ (controllers.CANs canIdx).filters := by
  rw [h.length_hwFilters_eq hgranted] at hindex
  rw [h.hwFilterOrder_eq hgranted hindex] at hf
  obtain ⟨bank, hbank, hmem⟩ := List.mem_flatMap.mp (List.mem_of_getElem? hf)
  exact mem_of_mem_entries hbank hmem

theorem SetUp.exists_filter (h : SetUp controllers canIdx)
    (hgranted : banksNeeded (controllers.CANs canIdx).filters ≤ numBanks)
    (hnames : controllers.NamesMatched canIdx) {index : Nat}
    (hindex : index < (controllers.hwFilters canIdx).length) :
    ∃ f ∈ (controllers.CANs canIdx).filters,
      (controllers.CANs canIdx).hwFilterOrder index = some f ∧
        (controllers.hwFilters canIdx)[index]? = some f.hwFilter := by
  obtain ⟨f, hf, hfilter⟩ := hnames index _ (List.getElem?_eq_getElem hindex)
  refine ⟨f, h.mem_filters hgranted hindex hf, hf, ?_⟩
  rw [List.getElem?_eq_getElem hindex, hfilter]

theorem SetUp.namesMatched_iff_matches (h : SetUp controllers canIdx)
    (hgranted : banksNeeded (controllers.CANs canIdx).filters ≤ numBanks) :
    controllers.NamesMatched canIdx ↔
      ∀ bank ∈ layout (controllers.CANs canIdx).filters, bank.Matches := by
  have hbank : ∀ bank ∈ layout (controllers.CANs canIdx).filters,
      bank.configured.hwFilters.length = (bank.entries.map CAN_Filter.hwFilter).length := by
    intro bank hbank
    rw [List.length_map]
    exact length_hwFilters hbank
  have hmap : (layout (controllers.CANs canIdx).filters).flatMap
      (fun bank => bank.entries.map CAN_Filter.hwFilter) =
        (listed (layout (controllers.CANs canIdx).filters)).map CAN_Filter.hwFilter :=
    List.map_flatMap.symm
  have hlength := h.length_hwFilters_eq hgranted
  have horder : ∀ index < (controllers.hwFilters canIdx).length,
      (controllers.CANs canIdx).hwFilterOrder index =
        (listed (layout (controllers.CANs canIdx).filters))[index]? := by
    intro index hindex
    rw [hlength] at hindex
    exact h.hwFilterOrder_eq hgranted hindex
  unfold Bank.Matches
  rw [← flatMap_eq_iff hbank, hmap, ← h.hwFilters_eq hgranted, Controllers.NamesMatched]
  constructor
  · intro hnames
    apply List.ext_getElem?
    intro index
    by_cases hindex : index < (controllers.hwFilters canIdx).length
    · obtain ⟨f, hf, hmatched⟩ := hnames index _ (List.getElem?_eq_getElem hindex)
      rw [horder index hindex] at hf
      rw [List.getElem?_eq_getElem hindex, List.getElem?_map, hf, Option.map_some, hmatched]
    · rw [List.getElem?_eq_none (Nat.not_lt.mp hindex), List.getElem?_eq_none]
      rw [List.length_map, ← hlength]
      exact Nat.not_lt.mp hindex
  · intro hall index hwFilter hmatched
    have hindex := (List.getElem?_eq_some_iff.mp hmatched).1
    rw [hall, List.getElem?_map, Option.map_eq_some_iff] at hmatched
    rw [horder index hindex]
    exact hmatched

end matching

theorem kind_ne_of_matches {filters : List (CAN_Filter Owner)} {bank : Bank Owner}
    (hbank : bank ∈ layout filters) : bank.Matches → bank.kind ≠ .mask16 := by
  apply layout_cases hbank
  case mask16 =>
    intro f second hkind hsecond h
    exact absurd h (Bank.not_matches_mask16 hkind hsecond)
  all_goals
    intros
    exact Kind.noConfusion

/-- Of up to two items, the second fills the group up. -/
theorem third_eq_second {α : Type} {items : List α} (hfew : items.length ≤ 2)
    {first second third fourth : α}
    (hgroup : [first, second, third, fourth] ∈ Packing.pack 4 items) : third = second := by
  match items, hfew with
  | [], _ => simp [Packing.pack, Packing.finish] at hgroup
  | [a], _ =>
    simp [Packing.pack, Packing.finish, Packing.add] at hgroup
    rw [hgroup.2.1, hgroup.2.2.1]
  | [a, b], _ =>
    simp [Packing.pack, Packing.finish, Packing.add] at hgroup
    rw [hgroup.2.1, hgroup.2.2.1]

/-- Three items or more begin the first group. -/
theorem begins_group {α : Type} {items : List α} (hmany : 2 < items.length) :
    ∃ first second third fourth rest, items = first :: second :: third :: rest ∧
      [first, second, third, fourth] ∈ Packing.pack 4 items := by
  obtain ⟨later, hlater⟩ : items <+: (Packing.pack 4 items).flatten :=
    Packing.items_isPrefix_pack (by decide)
  have hlength : ∀ group ∈ Packing.pack 4 items, group.length = 4 :=
    fun _ => Packing.length_of_mem_pack (by decide)
  match items, hmany with
  | first :: second :: third :: rest, _ =>
    cases hpack : Packing.pack 4 (first :: second :: third :: rest) with
    | nil =>
      rw [hpack] at hlater
      cases hlater
    | cons group groups =>
      rw [hpack] at hlater hlength
      match group, hlength group List.mem_cons_self with
      | [w, x, y, z], _ =>
        rw [List.flatten_cons] at hlater
        simp only [List.cons_append, List.cons.injEq] at hlater
        obtain ⟨rfl, rfl, rfl, -⟩ := hlater
        exact ⟨_, _, _, z, rest, rfl, List.mem_cons_self⟩

section iff

variable {filters : List (CAN_Filter Owner)}

theorem kind_ne_mask16 (hall : ∀ bank ∈ layout filters, bank.Matches) {f : CAN_Filter Owner}
    (hf : f ∈ filters) : f.kind ≠ .mask16 := by
  intro hkind
  have hmem : f ∈ filters.filter fun f => f.kind = .mask16 :=
    List.mem_filter.mpr ⟨hf, decide_eq_true hkind⟩
  obtain ⟨group, hgroup, -⟩ := (Packing.mem_pack_iff (Kind.capacity_pos .mask16)).mpr hmem
  have hbank : ⟨.mask16, group⟩ ∈ layout filters := mem_layout_iff.mpr hgroup
  exact kind_ne_of_matches hbank (hall _ hbank) rfl

theorem countOf_list16_le (hall : ∀ bank ∈ layout filters, bank.Matches)
    (hdifferent : (filters.filter fun f => f.kind = .list16).Pairwise fun f g => f.id16 ≠ g.id16) :
    countOf .list16 filters ≤ 2 := by
  rw [countOf]
  by_contra hmany
  obtain ⟨first, second, third, fourth, rest, hitems, hgroup⟩ := begins_group (Nat.not_le.mp hmany)
  have hbank : ⟨.list16, [first, second, third, fourth]⟩ ∈ layout filters :=
    mem_layout_iff.mpr hgroup
  have hkind : ∀ f ∈ [first, second, third, fourth], f.kind = .list16 :=
    fun _ => kind_of_mem_entries hbank
  have hequal := (Bank.matches_list16_iff (hkind first (by simp)) (hkind second (by simp))
    (hkind third (by simp)) (hkind fourth (by simp))).mp (hall _ hbank)
  rw [hitems] at hdifferent
  have hthird := (List.pairwise_cons.mp (List.pairwise_cons.mp hdifferent).2).1 third
  exact hthird List.mem_cons_self hequal

theorem matches_of_few (hnone : ∀ f ∈ filters, f.kind ≠ .mask16)
    (hfew : countOf .list16 filters ≤ 2) {bank : Bank Owner} (hbank : bank ∈ layout filters) :
    bank.Matches := by
  have hentries := mem_layout_iff.mp hbank
  have hmem : ∀ f ∈ bank.entries, f ∈ filters := fun _ => mem_of_mem_entries hbank
  revert hentries hmem
  apply layout_cases hbank
  case mask32 => exact fun f hkind _ _ => Bank.matches_mask32 hkind
  case list32 => exact fun f second hkind hsecond _ _ => Bank.matches_list32 hkind hsecond
  case mask16 =>
    intro f second hkind _ _ hmem
    exact absurd hkind (hnone f (hmem f List.mem_cons_self))
  case list16 =>
    intro f second third fourth hkind hsecond hthird hfourth hentries _
    rw [Bank.matches_list16_iff hkind hsecond hthird hfourth, third_eq_second hfew hentries]

end iff

/-- For a controller that has banks for all its filters, and different identifiers to list in banks
of 16 bits: the interrupt finds the owner of the filter that has matched exactly when no standard
identifier comes with a mask and at most two without. -/
theorem namesMatched_iff {calls : List (IncomingFilter Owner)} {controllers : Controllers Owner}
    (hrun : run Controllers.step {} calls = some controllers) (canIdx : CAN_IDX)
    (hgranted : banksNeeded (controllers.CANs canIdx).filters ≤ numBanks)
    (hdifferent : ((controllers.CANs canIdx).filters.filter fun f => f.kind = .list16).Pairwise
      fun f g => f.id16 ≠ g.id16) :
    controllers.NamesMatched canIdx ↔
      (∀ f ∈ (controllers.CANs canIdx).filters, f.isExtID = false → f.isSingleIdWhen16 = true) ∧
        ((controllers.CANs canIdx).filters.countP fun f => !f.isExtID) ≤ 2 := by
  have hmasked : (∀ f ∈ (controllers.CANs canIdx).filters,
      f.isExtID = false → f.isSingleIdWhen16 = true) ↔
        ∀ f ∈ (controllers.CANs canIdx).filters, f.kind ≠ .mask16 := by
    simp only [ne_eq, CAN_Filter.kind_mask16_iff, not_and, Bool.not_eq_false]
  rw [(setUp_of_run hrun canIdx).namesMatched_iff_matches hgranted, hmasked]
  have hcount : (∀ f ∈ (controllers.CANs canIdx).filters, f.kind ≠ .mask16) →
      ((controllers.CANs canIdx).filters.countP fun f => !f.isExtID) =
        countOf .list16 (controllers.CANs canIdx).filters := by
    intro hnone
    rw [countOf, ← List.countP_eq_length_filter]
    apply List.countP_congr
    intro f hf
    rw [← hmasked] at hnone
    simpa [CAN_Filter.kind_list16_iff] using hnone f hf
  constructor
  · intro hall
    have hnone := fun f hf => kind_ne_mask16 (f := f) hall hf
    refine ⟨hnone, ?_⟩
    rw [hcount hnone]
    exact countOf_list16_le hall hdifferent
  · rintro ⟨hnone, hfew⟩ bank
    rw [hcount hnone] at hfew
    exact matches_of_few hnone hfew

theorem namesMatched_iff_threeFilters :
    (({} : Controllers Unit).addIncomingFilter (standardFilter 0x12)).2.NamesMatched .CAN_IDX0 ∧
      ¬(((({} : Controllers Unit).addIncomingFilter (standardFilter 0x12)).2.addIncomingFilter
        (standardFilter 0x34)).2.addIncomingFilter (standardFilter 0x56)).2.NamesMatched
          .CAN_IDX0 := by
  have hone : run Controllers.step {} [standardFilter 0x12] =
      some (({} : Controllers Unit).addIncomingFilter (standardFilter 0x12)).2 := rfl
  have hthree : run Controllers.step {}
      [standardFilter 0x12, standardFilter 0x34, standardFilter 0x56] =
        some (((({} : Controllers Unit).addIncomingFilter (standardFilter 0x12)).2.addIncomingFilter
          (standardFilter 0x34)).2.addIncomingFilter (standardFilter 0x56)).2 := rfl
  constructor
  · exact (namesMatched_iff hone .CAN_IDX0 (by decide) (by decide)).mpr ⟨by decide, by decide⟩
  · intro h
    have hfew := ((namesMatched_iff hthree .CAN_IDX0 (by decide) (by decide)).mp h).2
    exact absurd hfew (by decide)

end Rodos.BareMetal.CanFilters
