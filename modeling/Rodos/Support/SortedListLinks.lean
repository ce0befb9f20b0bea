import Rodos.Support.SortedList
import Mathlib.Data.List.Induction

/-! What the methods of `SortedList` do to the links: each list stays one circle with its
entries. -/
namespace Rodos.Support
open Library

namespace SortedLists

def next (lists : SortedLists) (address : ChainableAddress) : ChainableAddress :=
  (lists.chainable address).next

def prev (lists : SortedLists) (address : ChainableAddress) : ChainableAddress :=
  (lists.chainable address).prev

def currentList (lists : SortedLists) (address : ChainableAddress) : Option ListAddress :=
  (lists.chainable address).currentList

def sortField (lists : SortedLists) (address : ChainableAddress) : Int64 :=
  (lists.chainable address).sortField

section fields

variable (lists : SortedLists) (self : ListAddress) {entry beforeThis newEntry : ChainableAddress}

theorem chainable_modify (address other : ChainableAddress)
    (change : SortedChainable → SortedChainable) :
    (lists.modify address change).chainable other =
      if other = address then change (lists.chainable other) else lists.chainable other := by
  by_cases hsame : other = address
  · subst hsame
    simp [modify]
  · simp [modify, hsame]

/-- Where the links of an item lead that is taken out. -/
structure Unlinked (lists : SortedLists) (list : ListAddress) (entry : ChainableAddress)
    (after : SortedLists) : Prop where
  next_eq : after.next = Function.update lists.next (lists.prev entry) (lists.next entry)
  prev_eq : after.prev = Function.update lists.prev (lists.next entry) (lists.prev entry)
  currentList_eq : after.currentList = Function.update lists.currentList entry none
  sortField_eq : after.sortField = lists.sortField
  numberOfElements_eq : after.numberOfElements =
    Function.update lists.numberOfElements list (lists.numberOfElements list - 1)

theorem unlink_spec (hnext : lists.next entry ≠ entry) :
    Unlinked lists self entry (lists.unlink self entry) := by
  have hentry : entry ≠ (lists.chainable entry).next := hnext.symm
  refine ⟨?_, ?_, ?_, ?_, rfl⟩
  all_goals
    funext address
    simp only [unlink, next, prev, currentList, sortField, chainable_modify, Function.update_apply,
      if_true, if_neg hentry]
    grind

/-- Where the links of an item lead that is put in. -/
structure Inserted (lists : SortedLists) (list : ListAddress)
    (beforeThis newEntry : ChainableAddress) (after : SortedLists) : Prop where
  next_eq : after.next = Function.update (Function.update lists.next newEntry beforeThis)
    (lists.prev beforeThis) newEntry
  prev_eq : after.prev = Function.update (Function.update lists.prev newEntry
    (lists.prev beforeThis)) beforeThis newEntry
  currentList_eq : after.currentList = Function.update lists.currentList newEntry (some list)
  sortField_eq : after.sortField = lists.sortField
  numberOfElements_eq : after.numberOfElements =
    Function.update lists.numberOfElements list (lists.numberOfElements list + 1)

theorem insertBefore_spec (hbefore : beforeThis ≠ newEntry)
    (hprev : lists.prev beforeThis ≠ newEntry) :
    Inserted lists self beforeThis newEntry (lists.insertBefore self beforeThis newEntry) := by
  have hlast : (lists.chainable beforeThis).prev ≠ newEntry := hprev
  refine ⟨?_, ?_, ?_, ?_, rfl⟩
  all_goals
    funext address
    simp only [insertBefore, next, prev, currentList, sortField, chainable_modify,
      Function.update_apply, if_neg hbefore]
    grind

end fields

/-- The circle of a list, its own member first. -/
def members (contents : ListAddress → List Nat) (list : ListAddress) : List ChainableAddress :=
  .headAndTail list :: (contents list).map .entry

/-- The lists have these entries, in this order. -/
structure WellLinked (lists : SortedLists) (contents : ListAddress → List Nat) : Prop where
  ring : ∀ list, Ring lists.next lists.prev (.headAndTail list) ((contents list).map .entry)
  nodup : ∀ list, (contents list).Nodup
  currentList_entry : ∀ id list, lists.currentList (.entry id) = some list ↔ id ∈ contents list
  currentList_head : ∀ list, lists.currentList (.headAndTail list) = none
  sortField_head : ∀ list, lists.sortField (.headAndTail list) = 0
  numberOfElements_eq :
    ∀ list, lists.numberOfElements list = Int32.ofNat (contents list).length

namespace WellLinked

variable {lists : SortedLists} {contents : ListAddress → List Nat} {self : ListAddress} {id : Nat}

theorem nodup_members (h : WellLinked lists contents) (list : ListAddress) :
    (members contents list).Nodup := by
  rw [members, List.nodup_cons]
  refine ⟨by simp, ?_⟩
  exact (h.nodup list).map fun _ _ hsame => ChainableAddress.entry.inj hsame

/-- No item is in the circles of two lists. -/
theorem members_disjoint (h : WellLinked lists contents) {list other : ListAddress}
    (hother : other ≠ list) {address : ChainableAddress}
    (hmember : address ∈ members contents list) :
    address ∉ members contents other := by
  intro hboth
  rw [members, List.mem_cons, List.mem_map] at hmember hboth
  obtain rfl | ⟨id, hid, rfl⟩ := hmember
  · obtain hsame | ⟨id, -, hsame⟩ := hboth
    · exact hother (ChainableAddress.headAndTail.inj hsame).symm
    · cases hsame
  · obtain hsame | ⟨id', hid', hsame⟩ := hboth
    · cases hsame
    · cases hsame
      have hlist := (h.currentList_entry id list).mpr hid
      rw [(h.currentList_entry id other).mpr hid'] at hlist
      exact hother (Option.some.inj hlist)

theorem notMem (h : WellLinked lists contents) (hfree : lists.currentList (.entry id) = none)
    (list : ListAddress) : id ∉ contents list := by
  intro hid
  rw [(h.currentList_entry id list).mpr hid] at hfree
  cases hfree

theorem entry_notMem_members (h : WellLinked lists contents)
    (hfree : lists.currentList (.entry id) = none) (list : ListAddress) :
    .entry id ∉ members contents list := by
  simpa [members] using h.notMem hfree list

/-- One list is chained anew, with one entry more or less, and the others are left alone. -/
theorem relink (h : WellLinked lists contents) (id : Nat) {after : SortedLists}
    {entries : List Nat}
    (hring : Ring after.next after.prev (.headAndTail self) (entries.map .entry))
    (hothers : ∀ list ≠ self, ∀ node ∈ members contents list,
      after.next node = lists.next node ∧ after.prev node = lists.prev node)
    (hnodup : entries.Nodup) (hkept : ∀ other ≠ id, other ∈ entries ↔ other ∈ contents self)
    (hoff : ∀ list ≠ self, id ∉ contents list)
    (hcurrentList : after.currentList = Function.update lists.currentList (.entry id)
      (if id ∈ entries then some self else none))
    (hsortField : after.sortField = lists.sortField)
    (hnumber : after.numberOfElements =
      Function.update lists.numberOfElements self (.ofNat entries.length)) :
    WellLinked after (Function.update contents self entries) := by
  constructor
  case ring =>
    intro list
    by_cases hlist : list = self
    · subst hlist
      rw [Function.update_self]
      exact hring
    · rw [Function.update_of_ne hlist]
      exact (h.ring list).congr (fun node hnode => (hothers list hlist node hnode).1)
        fun node hnode => (hothers list hlist node hnode).2
  case nodup =>
    intro list
    by_cases hlist : list = self
    · subst hlist
      rwa [Function.update_self]
    · rw [Function.update_of_ne hlist]
      exact h.nodup list
  case currentList_entry =>
    intro other list
    have hcurrent := h.currentList_entry other list
    rw [hcurrentList]
    by_cases hother : other = id <;> by_cases hlist : list = self
    · subst hother hlist
      simp
    · subst hother
      simp [Function.update_of_ne hlist, hoff list hlist, Ne.symm hlist]
    · subst hlist
      simp [hother, hcurrent, hkept other hother]
    · simp [hother, hcurrent, Function.update_of_ne hlist]
  case currentList_head =>
    intro list
    have hne : ChainableAddress.headAndTail list ≠ .entry id := nofun
    rw [hcurrentList, Function.update_of_ne hne]
    exact h.currentList_head list
  case sortField_head =>
    intro list
    rw [hsortField]
    exact h.sortField_head list
  case numberOfElements_eq =>
    intro list
    rw [hnumber]
    by_cases hlist : list = self
    · subst hlist
      rw [Function.update_self, Function.update_self]
    · rw [Function.update_of_ne hlist, Function.update_of_ne hlist]
      exact h.numberOfElements_eq list

theorem unlink (h : WellLinked lists contents) {front rest : List Nat}
    (hsplit : contents self = front ++ id :: rest) :
    WellLinked (lists.unlink self (.entry id)) (Function.update contents self (front ++ rest)) := by
  have hmem : id ∈ contents self := by simp [hsplit]
  have hmember : .entry id ∈ members contents self := by simpa [members] using hmem
  have hring := h.ring self
  have hnodup := h.nodup self
  have hmembers := h.nodup_members self
  have hspec := unlink_spec lists self (hring.next_ne hmembers (List.mem_map_of_mem hmem))
  have hnextMember : lists.next (.entry id) ∈ members contents self := hring.next_mem hmember
  have hprevMember : lists.prev (.entry id) ∈ members contents self := hring.prev_mem hmember
  have hlength : (contents self).length = (front ++ rest).length + 1 := by
    rw [hsplit, List.length_append, List.length_append, List.length_cons]
    omega
  rw [hsplit, List.nodup_middle] at hnodup
  obtain ⟨hgone, hstill⟩ := List.nodup_cons.mp hnodup
  refine h.relink id ?_ (fun list hlist node hnode => ⟨?_, ?_⟩) hstill (fun other hother => ?_)
    (fun list hlist hid => ?_) ?_ hspec.sortField_eq ?_
  · rw [hspec.next_eq, hspec.prev_eq, List.map_append]
    rw [members, hsplit, List.map_append, List.map_cons] at hmembers
    rw [hsplit, List.map_append, List.map_cons] at hring
    exact hring.remove hmembers
  · rw [hspec.next_eq, Function.update_of_ne]
    rintro rfl
    exact h.members_disjoint hlist hprevMember hnode
  · rw [hspec.prev_eq, Function.update_of_ne]
    rintro rfl
    exact h.members_disjoint hlist hnextMember hnode
  · simp [hsplit, hother]
  · apply h.members_disjoint hlist hmember
    simpa [members] using hid
  · rw [hspec.currentList_eq, if_neg hgone]
  · rw [hspec.numberOfElements_eq, h.numberOfElements_eq, hlength, Int32.ofNat_add]
    exact congrArg _ (Int32.add_sub_cancel _ 1)

theorem after_mem (h : WellLinked lists contents) {front rest : List Nat}
    (hsplit : contents self = front ++ rest) {after : ChainableAddress}
    {ahead : List ChainableAddress}
    (hafter : rest.map .entry ++ [.headAndTail self] = after :: ahead) :
    after ∈ members contents self ∧ lists.prev after ∈ members contents self := by
  have hmem : after ∈ rest.map .entry ++ [.headAndTail self] := by
    rw [hafter]
    exact List.mem_cons_self
  have hmember : after ∈ members contents self := by
    rw [members, hsplit, List.map_append, List.mem_cons, List.mem_append]
    obtain hrest | hhead := List.mem_append.mp hmem
    · exact .inr (.inr hrest)
    · exact .inl (List.mem_singleton.mp hhead)
  exact ⟨hmember, (h.ring self).prev_mem hmember⟩

/-- An entry that is in no list is not next to the place where it is put in. -/
theorem apart (h : WellLinked lists contents) {front rest : List Nat}
    (hsplit : contents self = front ++ rest) (hfree : lists.currentList (.entry id) = none)
    {after : ChainableAddress} {ahead : List ChainableAddress}
    (hafter : rest.map .entry ++ [.headAndTail self] = after :: ahead) :
    after ≠ .entry id ∧ lists.prev after ≠ .entry id := by
  obtain ⟨hmember, hprevMember⟩ := h.after_mem hsplit hafter
  have hnew := h.entry_notMem_members hfree self
  exact ⟨fun hsame => hnew (hsame ▸ hmember), fun hsame => hnew (hsame ▸ hprevMember)⟩

theorem insertBefore (h : WellLinked lists contents) {front rest : List Nat}
    (hsplit : contents self = front ++ rest) (hfree : lists.currentList (.entry id) = none)
    {after : ChainableAddress} {ahead : List ChainableAddress}
    (hafter : rest.map .entry ++ [.headAndTail self] = after :: ahead) :
    WellLinked (lists.insertBefore self after (.entry id))
      (Function.update contents self (front ++ id :: rest)) := by
  have hring := h.ring self
  have hnodup := h.nodup self
  have hmembers := h.nodup_members self
  have hnot := h.notMem hfree self
  have hnew := h.entry_notMem_members hfree
  obtain ⟨hafterMember, hprevMember⟩ := h.after_mem hsplit hafter
  obtain ⟨hafterNe, hprevNe⟩ := h.apart hsplit hfree hafter
  have hspec := insertBefore_spec lists self hafterNe hprevNe
  have hlength : (front ++ id :: rest).length = (contents self).length + 1 := by
    rw [hsplit, List.length_append, List.length_append, List.length_cons]
    omega
  rw [hsplit] at hnodup hnot
  refine h.relink id ?_ (fun list hlist node hnode => ⟨?_, ?_⟩)
    (List.nodup_middle.mpr (List.nodup_cons.mpr ⟨hnot, hnodup⟩)) (fun other hother => ?_)
    (fun list _ => h.notMem hfree list) ?_ hspec.sortField_eq ?_
  · rw [hspec.next_eq, hspec.prev_eq, List.map_append, List.map_cons]
    have hnewHere := hnew self
    rw [members, hsplit, List.map_append] at hmembers hnewHere
    rw [hsplit, List.map_append] at hring
    exact hring.insert hmembers hnewHere hafter
  · rw [hspec.next_eq, Function.update_of_ne, Function.update_of_ne]
    · rintro rfl
      exact hnew list hnode
    · rintro rfl
      exact h.members_disjoint hlist hprevMember hnode
  · rw [hspec.prev_eq, Function.update_of_ne, Function.update_of_ne]
    · rintro rfl
      exact hnew list hnode
    · rintro rfl
      exact h.members_disjoint hlist hafterMember hnode
  · simp [hsplit, hother]
  · rw [hspec.currentList_eq, if_pos (by simp)]
  · rw [hspec.numberOfElements_eq, h.numberOfElements_eq, hlength, Int32.ofNat_add]
    rfl

end WellLinked

theorem wellLinked_initial : WellLinked initial fun _ => [] where
  ring _ := ⟨rfl, rfl⟩
  nodup _ := List.nodup_nil
  currentList_entry _ _ := ⟨nofun, nofun⟩
  currentList_head _ := rfl
  sortField_head _ := rfl
  numberOfElements_eq _ := rfl

end SortedLists

end Rodos.Support
