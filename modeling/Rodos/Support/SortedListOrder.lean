import Rodos.Support.SortedListLinks

/-! `SortedList` as its users see it: whatever they call, every list stays one circle in the order
of the sort fields and, where these are equal, of the insertions. -/
namespace Rodos.Support
open Library

namespace SortedLists

section setters

variable {lists : SortedLists} {contents : ListAddress → List Nat} {self : ListAddress} {id : Nat}

/-- Only the fields that tie the lists together matter. -/
theorem WellLinked.of_fields (h : WellLinked lists contents) {other : SortedLists}
    (hnext : other.next = lists.next) (hprev : other.prev = lists.prev)
    (hcurrentList : other.currentList = lists.currentList)
    (hsortField : ∀ list, other.sortField (.headAndTail list) = 0)
    (hnumberOfElements : other.numberOfElements = lists.numberOfElements) :
    WellLinked other contents where
  ring list := by rw [hnext, hprev]; exact h.ring list
  nodup := h.nodup
  currentList_entry id list := by rw [hcurrentList]; exact h.currentList_entry id list
  currentList_head list := by rw [hcurrentList]; exact h.currentList_head list
  sortField_head := hsortField
  numberOfElements_eq list := by rw [hnumberOfElements]; exact h.numberOfElements_eq list

def setSortField (lists : SortedLists) (id : Nat) (sortVal : Int64) : SortedLists :=
  lists.modify (.entry id) fun item => { item with sortField := sortVal }

def setCurrentList (lists : SortedLists) (id : Nat) (list : ListAddress) : SortedLists :=
  lists.modify (.entry id) fun item => { item with currentList := some list }

section fields

variable (lists : SortedLists) (self : ListAddress) (id : Nat) (sortVal : Int64)

theorem setSortField_fields :
    (lists.setSortField id sortVal).next = lists.next ∧
      (lists.setSortField id sortVal).prev = lists.prev ∧
      (lists.setSortField id sortVal).currentList = lists.currentList ∧
      (lists.setSortField id sortVal).sortField =
        Function.update lists.sortField (.entry id) sortVal := by
  refine ⟨?_, ?_, ?_, ?_⟩
  all_goals
    funext address
    simp only [setSortField, next, prev, currentList, sortField, chainable_modify,
      Function.update_apply]
    split <;> rfl

theorem setCurrentList_fields :
    (lists.setCurrentList id self).next = lists.next ∧
      (lists.setCurrentList id self).prev = lists.prev ∧
      (lists.setCurrentList id self).currentList =
        Function.update lists.currentList (.entry id) (some self) ∧
      (lists.setCurrentList id self).sortField = lists.sortField := by
  refine ⟨?_, ?_, ?_, ?_⟩
  all_goals
    funext address
    simp only [setCurrentList, next, prev, currentList, sortField, chainable_modify,
      Function.update_apply]
    split <;> rfl

end fields

theorem WellLinked.setSortField (h : WellLinked lists contents) (id : Nat) (sortVal : Int64) :
    WellLinked (lists.setSortField id sortVal) contents := by
  obtain ⟨hnext, hprev, hcurrentList, hsortField⟩ := lists.setSortField_fields id sortVal
  refine h.of_fields hnext hprev hcurrentList (fun list => ?_) rfl
  have hne : ChainableAddress.headAndTail list ≠ .entry id := nofun
  rw [hsortField, Function.update_of_ne hne]
  exact h.sortField_head list

/-- An entry that is in no list may be chained in although it has been given the list before. -/
theorem WellLinked.insertBefore_claimed (h : WellLinked lists contents) {front rest : List Nat}
    (hsplit : contents self = front ++ rest) (hfree : lists.currentList (.entry id) = none)
    {after : ChainableAddress} {ahead : List ChainableAddress}
    (hafter : rest.map .entry ++ [.headAndTail self] = after :: ahead) :
    WellLinked ((lists.setCurrentList id self).insertBefore self after (.entry id))
      (Function.update contents self (front ++ id :: rest)) := by
  obtain ⟨hafterNe, hprevNe⟩ := h.apart hsplit hfree hafter
  obtain ⟨hnext, hprev, hcurrentList, hsortField⟩ := lists.setCurrentList_fields self id
  have hplain := insertBefore_spec lists self hafterNe hprevNe
  have hclaimed := insertBefore_spec (lists.setCurrentList id self) self hafterNe
    (by rw [hprev]; exact hprevNe)
  have hinserted := h.insertBefore hsplit hfree hafter
  refine hinserted.of_fields ?_ ?_ ?_ (fun list => ?_) ?_
  · rw [hclaimed.next_eq, hplain.next_eq, hnext, hprev]
  · rw [hclaimed.prev_eq, hplain.prev_eq, hprev]
  · rw [hclaimed.currentList_eq, hplain.currentList_eq, hcurrentList, Function.update_idem]
  · rw [hclaimed.sortField_eq, hsortField]
    exact h.sortField_head list
  · rw [hclaimed.numberOfElements_eq, hplain.numberOfElements_eq]
    rfl

theorem setSortField_setCurrentList (lists : SortedLists) (self : ListAddress) (id : Nat)
    (sortVal : Int64) : (lists.setCurrentList id self).setSortField id sortVal =
      (lists.setSortField id sortVal).setCurrentList id self := by
  simp [SortedLists.setSortField, setCurrentList, modify]

/-- The contents without an entry, whichever list it is in. -/
def without (contents : ListAddress → List Nat) (id : Nat) : ListAddress → List Nat :=
  fun list => (contents list).erase id

theorem without_eq_of_free (h : WellLinked lists contents)
    (hfree : lists.currentList (.entry id) = none) : without contents id = contents := by
  funext list
  exact List.erase_of_not_mem (h.notMem hfree list)

theorem without_eq_update (h : WellLinked lists contents) {front rest : List Nat}
    (hsplit : contents self = front ++ id :: rest) :
    without contents id = Function.update contents self (front ++ rest) := by
  funext list
  unfold without
  by_cases hlist : list = self
  · subst hlist
    have hnodup := h.nodup list
    rw [hsplit] at hnodup ⊢
    have hnot : id ∉ front := by
      intro hfront
      exact (List.nodup_middle.mp hnodup).notMem (List.mem_append_left rest hfront)
    rw [Function.update_self, List.erase_append_right _ hnot, List.erase_cons_head]
  · rw [Function.update_of_ne hlist]
    refine List.erase_of_not_mem fun hid => hlist ?_
    have hboth := (h.currentList_entry id list).mpr hid
    rw [(h.currentList_entry id self).mpr (by simp [hsplit])] at hboth
    exact (Option.some.inj hboth).symm

/-- What has become of the lists when an entry is in none of them any more. -/
structure TakenOut (lists : SortedLists) (contents : ListAddress → List Nat) (id : Nat)
    (after : SortedLists) : Prop where
  wellLinked : WellLinked after (without contents id)
  currentList_eq : after.currentList (.entry id) = none
  sortField_eq : after.sortField = lists.sortField

theorem WellLinked.takenOut_unlink (h : WellLinked lists contents)
    (hlist : lists.currentList (.entry id) = some self) :
    TakenOut lists contents id (lists.unlink self (.entry id)) := by
  have hid := (h.currentList_entry id self).mp hlist
  obtain ⟨front, rest, hsplit⟩ := List.append_of_mem hid
  have hmembers := h.nodup_members self
  have hspec := unlink_spec lists self
    ((h.ring self).next_ne hmembers (List.mem_map_of_mem hid))
  refine ⟨?_, ?_, hspec.sortField_eq⟩
  · rw [without_eq_update h hsplit]
    exact h.unlink hsplit
  · rw [hspec.currentList_eq, Function.update_self]

/-- An entry can be removed from the list that it is in, and from no other. -/
theorem WellLinked.remove (h : WellLinked lists contents) (self : ListAddress) (id : Nat) :
    (lists.currentList (.entry id) ≠ some self ∧
        lists.remove self (.entry id) = (false, lists)) ∨
      (lists.currentList (.entry id) = some self ∧ (lists.remove self (.entry id)).1 = true ∧
        TakenOut lists contents id (lists.remove self (.entry id)).2) := by
  by_cases hlist : lists.currentList (.entry id) = some self
  · refine .inr ⟨hlist, ?_⟩
    have hremove : lists.remove self (.entry id) = (true, lists.unlink self (.entry id)) := by
      have hhere : (lists.chainable (.entry id)).currentList = some self := hlist
      simp [SortedLists.remove, hhere]
    rw [hremove]
    exact ⟨rfl, h.takenOut_unlink hlist⟩
  · refine .inl ⟨hlist, ?_⟩
    have hother : (lists.chainable (.entry id)).currentList ≠ some self := hlist
    simp [SortedLists.remove, hother]

theorem WellLinked.removeFromCurrentList (h : WellLinked lists contents) (id : Nat) :
    TakenOut lists contents id (lists.removeFromCurrentList (.entry id)) := by
  rw [SortedLists.removeFromCurrentList]
  split
  · next hnone =>
    refine ⟨?_, hnone, rfl⟩
    rw [without_eq_of_free h hnone]
    exact h
  · next list hlist =>
    obtain ⟨hother, -⟩ | ⟨-, -, htaken⟩ := h.remove list id
    · exact absurd hlist hother
    · exact htaken

end setters

section order

variable {lists : SortedLists} {contents : ListAddress → List Nat} {self : ListAddress}

theorem WellLinked.getFirst (h : WellLinked lists contents) (self : ListAddress) :
    (contents self = [] ∧ lists.getFirst self = .null) ∨
      ∃ id rest, contents self = id :: rest ∧ lists.getFirst self = .entry id := by
  have hring := h.ring self
  rcases hcontents : contents self with - | ⟨id, rest⟩
  · rw [hcontents] at hring
    have hfirst : (lists.chainable (.headAndTail self)).next = .headAndTail self :=
      hring.next_head rfl
    exact .inl ⟨rfl, if_pos hfirst⟩
  · rw [hcontents] at hring
    have hfirst : (lists.chainable (.headAndTail self)).next = .entry id := hring.next_head rfl
    refine .inr ⟨id, rest, rfl, ?_⟩
    rw [SortedLists.getFirst, hfirst]
    rfl

/-- The loop of `insert` ends, and where it ends the entries split. By induction on those that are
still ahead of it. -/
theorem WellLinked.findGreater (h : WellLinked lists contents) (sortVal : Int64)
    {front rest : List Nat} (hsplit : contents self = front ++ rest) {rounds : Nat}
    (hrounds : rest.length < rounds) {iter : ChainableAddress} {ahead : List ChainableAddress}
    (hiter : rest.map .entry ++ [.headAndTail self] = iter :: ahead) :
    ((∀ id ∈ rest, lists.sortField (.entry id) ≤ sortVal) ∧
        lists.findGreater self sortVal rounds iter = some .null) ∨
      ∃ passed id behind, rest = passed ++ id :: behind ∧
        (∀ earlier ∈ passed, lists.sortField (.entry earlier) ≤ sortVal) ∧
        sortVal < lists.sortField (.entry id) ∧
        lists.findGreater self sortVal rounds iter = some (.entry id) := by
  induction rest generalizing front rounds iter ahead with
  | nil =>
    obtain ⟨rfl, -⟩ := List.cons.inj hiter
    obtain _ | rounds := rounds
    · cases hrounds
    · exact .inl ⟨nofun, by simp [SortedLists.findGreater, endOfList]⟩
  | cons id rest ih =>
    obtain ⟨rfl, -⟩ := List.cons.inj hiter
    obtain _ | rounds := rounds
    · cases hrounds
    have hbody : lists.findGreater self sortVal (rounds + 1) (.entry id) =
        if sortVal < lists.sortField (.entry id) then some (.entry id)
        else lists.findGreater self sortVal rounds (lists.next (.entry id)) := by
      rw [SortedLists.findGreater]
      rfl
    by_cases hgreater : sortVal < lists.sortField (.entry id)
    · refine .inr ⟨[], id, rest, rfl, nofun, hgreater, ?_⟩
      rw [hbody, if_pos hgreater]
    · have hle := Int64.not_lt.mp hgreater
      rw [hbody, if_neg hgreater]
      have hsplit' : contents self = (front ++ [id]) ++ rest := by simpa using hsplit
      obtain ⟨after, ahead', hafter⟩ := exists_first (.headAndTail self)
        (rest.map ChainableAddress.entry)
      have hring := h.ring self
      rw [hsplit', List.map_append, List.map_append] at hring
      have hnext : lists.next (.entry id) = after := (hring.cut List.cons_append.symm hafter).1
      rw [hnext]
      obtain ⟨hall, hfound⟩ | ⟨passed, other, behind, hrest, hpassed, hother, hfound⟩ :=
        ih hsplit' (Nat.lt_of_succ_lt_succ hrounds) hafter
      · exact .inl ⟨List.forall_mem_cons.mpr ⟨hle, hall⟩, hfound⟩
      · refine .inr ⟨id :: passed, other, behind, by rw [hrest]; rfl, ?_, hother, hfound⟩
        exact List.forall_mem_cons.mpr ⟨hle, hpassed⟩

theorem WellLinked.findGreater_getFirst (h : WellLinked lists contents) (self : ListAddress)
    (sortVal : Int64) {rounds : Nat} (hrounds : (contents self).length < rounds) :
    ((∀ id ∈ contents self, lists.sortField (.entry id) ≤ sortVal) ∧
        lists.findGreater self sortVal rounds (lists.getFirst self) = some .null) ∨
      ∃ passed id behind, contents self = passed ++ id :: behind ∧
        (∀ earlier ∈ passed, lists.sortField (.entry earlier) ≤ sortVal) ∧
        sortVal < lists.sortField (.entry id) ∧
        lists.findGreater self sortVal rounds (lists.getFirst self) = some (.entry id) := by
  obtain ⟨hempty, hfirst⟩ | ⟨id, rest, hcontents, hfirst⟩ := h.getFirst self
  · obtain _ | rounds := rounds
    · cases hrounds
    · rw [hempty, hfirst]
      exact .inl ⟨nofun, by simp [SortedLists.findGreater, endOfList]⟩
  · rw [hfirst]
    have hiter : (contents self).map ChainableAddress.entry ++ [.headAndTail self] =
        .entry id :: (rest.map ChainableAddress.entry ++ [.headAndTail self]) := by
      rw [hcontents]
      rfl
    exact h.findGreater sortVal (List.nil_append _).symm hrounds hiter

/-- The order of two entries of one list: by their sort fields, then by their times of insertion. -/
def Earlier (lists : SortedLists) (insertedAt : Nat → Nat) (id other : Nat) : Prop :=
  lists.sortField (.entry id) < lists.sortField (.entry other) ∨
    lists.sortField (.entry id) = lists.sortField (.entry other) ∧
      insertedAt id < insertedAt other

theorem Earlier.le {insertedAt : Nat → Nat} {id other : Nat}
    (h : Earlier lists insertedAt id other) :
    lists.sortField (.entry id) ≤ lists.sortField (.entry other) := by
  obtain hless | ⟨hsame, -⟩ := h
  · exact Int64.le_of_lt hless
  · exact Int64.le_of_eq hsame

/-- What has become of the lists when an entry has been put into one of them: it is behind all
entries with a sort field that is not greater, and before all others. -/
structure Placed (lists : SortedLists) (contents : ListAddress → List Nat) (list : ListAddress)
    (id : Nat) (sortVal : Int64) (front rest : List Nat) (after : SortedLists) : Prop where
  split : without contents id list = front ++ rest
  wellLinked : WellLinked after
    (Function.update (without contents id) list (front ++ id :: rest))
  sortField_eq : after.sortField = Function.update lists.sortField (.entry id) sortVal
  front_le : ∀ earlier ∈ front, lists.sortField (.entry earlier) ≤ sortVal
  lt_rest : ∀ later ∈ rest, sortVal < lists.sortField (.entry later)

/-- What has become of the lists when an entry is in none of them and has a sort field. -/
structure Ready (lists : SortedLists) (contents : ListAddress → List Nat) (id : Nat)
    (sortVal : Int64) (after : SortedLists) : Prop where
  wellLinked : WellLinked after (without contents id)
  currentList_eq : after.currentList (.entry id) = none
  sortField_eq : after.sortField = Function.update lists.sortField (.entry id) sortVal

theorem WellLinked.ready (h : WellLinked lists contents) (id : Nat) (sortVal : Int64) :
    Ready lists contents id sortVal
      ((lists.removeFromCurrentList (.entry id)).setSortField id sortVal) := by
  have htaken := h.removeFromCurrentList id
  obtain ⟨-, -, hcurrentList, hsortField⟩ :=
    (lists.removeFromCurrentList (.entry id)).setSortField_fields id sortVal
  refine ⟨htaken.wellLinked.setSortField id sortVal, ?_, ?_⟩
  · rw [hcurrentList]
    exact htaken.currentList_eq
  · rw [hsortField, htaken.sortField_eq]

theorem WellLinked.ne_of_mem_without (h : WellLinked lists contents) {id other : Nat}
    {list : ListAddress} (hmem : other ∈ without contents id list) : other ≠ id :=
  ((h.nodup list).mem_erase_iff.mp hmem).1

theorem WellLinked.mem_of_mem_without {id other : Nat} {list : ListAddress}
    (hmem : other ∈ without contents id list) : other ∈ contents list :=
  List.mem_of_mem_erase hmem

theorem update_sortField {id other : Nat} (hother : other ≠ id) (sortVal : Int64) :
    Function.update lists.sortField (.entry id) sortVal (.entry other) =
      lists.sortField (.entry other) :=
  Function.update_of_ne (fun hsame => hother (ChainableAddress.entry.inj hsame)) _ _

namespace Ready

variable {id : Nat} {sortVal : Int64} {ready : SortedLists} {front rest : List Nat}
  {beforeThis : ChainableAddress} {ahead : List ChainableAddress}

theorem placed (h : Ready lists contents id sortVal ready)
    (hsplit : without contents id self = front ++ rest)
    (hbefore : rest.map .entry ++ [.headAndTail self] = beforeThis :: ahead)
    (hfront : ∀ earlier ∈ front, lists.sortField (.entry earlier) ≤ sortVal)
    (hrest : ∀ later ∈ rest, sortVal < lists.sortField (.entry later)) :
    Placed lists contents self id sortVal front rest
      (ready.insertBefore self beforeThis (.entry id)) := by
  obtain ⟨hbeforeNe, hprevNe⟩ := h.wellLinked.apart hsplit h.currentList_eq hbefore
  refine ⟨hsplit, h.wellLinked.insertBefore hsplit h.currentList_eq hbefore, ?_, hfront, hrest⟩
  rw [(insertBefore_spec ready self hbeforeNe hprevNe).sortField_eq, h.sortField_eq]

theorem placed_claimed (h : Ready lists contents id sortVal ready)
    (hsplit : without contents id self = front ++ rest)
    (hbefore : rest.map .entry ++ [.headAndTail self] = beforeThis :: ahead)
    (hfront : ∀ earlier ∈ front, lists.sortField (.entry earlier) ≤ sortVal)
    (hrest : ∀ later ∈ rest, sortVal < lists.sortField (.entry later)) :
    Placed lists contents self id sortVal front rest
      ((ready.setCurrentList id self).insertBefore self beforeThis (.entry id)) := by
  obtain ⟨hbeforeNe, hprevNe⟩ := h.wellLinked.apart hsplit h.currentList_eq hbefore
  obtain ⟨-, hprev, -, hsortField⟩ := ready.setCurrentList_fields self id
  rw [← hprev] at hprevNe
  refine ⟨hsplit, h.wellLinked.insertBefore_claimed hsplit h.currentList_eq hbefore, ?_, hfront,
    hrest⟩
  rw [(insertBefore_spec (ready.setCurrentList id self) self hbeforeNe hprevNe).sortField_eq,
    hsortField, h.sortField_eq]

end Ready

/-- The sort fields of a list do not decrease. -/
def Sorted (lists : SortedLists) (ids : List Nat) : Prop :=
  ids.Pairwise fun id other =>
    lists.sortField (.entry id) ≤ lists.sortField (.entry other)

theorem WellLinked.le_last (h : WellLinked lists contents) (hsorted : Sorted lists (contents self))
    {id : Nat} (hid : id ∈ contents self) :
    lists.sortField (.entry id) ≤ lists.sortField (lists.prev (.headAndTail self)) := by
  have hne : contents self ≠ [] := List.ne_nil_of_mem hid
  have hlast := (List.dropLast_concat_getLast hne).symm
  have hring := h.ring self
  rw [hlast, List.map_append] at hring
  rw [hring.prev_head List.cons_append.symm]
  rw [Sorted, hlast] at hsorted
  rw [hlast] at hid
  obtain hinit | hsame := List.mem_append.mp hid
  · exact (List.pairwise_append.mp hsorted).2.2 id hinit _ List.mem_cons_self
  · rw [List.mem_singleton.mp hsame]
    exact Int64.le_refl _

/-- The last sort field of an empty list is the one of its own member. -/
theorem WellLinked.last_le (h : WellLinked lists contents) {sortVal : Int64}
    (hsortVal : 0 ≤ sortVal) (hall : ∀ id ∈ contents self, lists.sortField (.entry id) ≤ sortVal) :
    lists.sortField (lists.prev (.headAndTail self)) ≤ sortVal := by
  have hmember := (h.ring self).prev_mem List.mem_cons_self
  obtain hhead | hentry := List.mem_cons.mp hmember
  · rw [hhead, h.sortField_head]
    exact hsortVal
  · obtain ⟨id, hid, hlast⟩ := List.mem_map.mp hentry
    rw [← hlast]
    exact hall id hid

theorem WellLinked.append (h : WellLinked lists contents) (hsorted : Sorted lists (contents self))
    (id : Nat) (sortVal : Int64) :
    (sortVal < lists.sortField (lists.prev (.headAndTail self)) ∧
        lists.append self (.entry id) sortVal = (false, lists)) ∨
      (lists.append self (.entry id) sortVal).1 = true ∧
        Placed lists contents self id sortVal (without contents id self) []
          (lists.append self (.entry id) sortVal).2 := by
  by_cases hless : sortVal < lists.sortField (lists.prev (.headAndTail self))
  · refine .inl ⟨hless, ?_⟩
    have hbelow : sortVal <
        (lists.chainable (lists.chainable (.headAndTail self)).prev).sortField := hless
    simp [SortedLists.append, hbelow]
  · refine .inr ?_
    have happend : lists.append self (.entry id) sortVal =
        (true, (((lists.removeFromCurrentList (.entry id)).setCurrentList id self).setSortField id
          sortVal).insertBefore self (.headAndTail self) (.entry id)) := by
      have hbelow : ¬ sortVal <
          (lists.chainable (lists.chainable (.headAndTail self)).prev).sortField := hless
      rw [SortedLists.append, if_neg ChainableAddress.noConfusion,
        if_neg ChainableAddress.noConfusion, if_neg hbelow]
      rfl
    rw [happend, setSortField_setCurrentList]
    refine ⟨rfl, (h.ready id sortVal).placed_claimed (List.append_nil _).symm rfl ?_ nofun⟩
    intro earlier hearlier
    have hlast := h.le_last hsorted (mem_of_mem_without hearlier)
    exact Int64.le_trans hlast (Int64.not_lt.mp hless)

theorem WellLinked.appendForce (h : WellLinked lists contents)
    (hsorted : Sorted lists (contents self)) (id : Nat) (sortVal : Int64) :
    ∃ sortVal', (lists.sortField (lists.prev (.headAndTail self)) ≤ sortVal → sortVal' = sortVal) ∧
      (lists.appendForce self (.entry id) sortVal).1 = true ∧
      Placed lists contents self id sortVal' (without contents id self) []
        (lists.appendForce self (.entry id) sortVal).2 := by
  rw [SortedLists.appendForce]
  set sortVal' := if sortVal < _ then _ else sortVal with hsortVal'
  obtain ⟨hless, -⟩ | happended := h.append hsorted id sortVal'
  · have hlast : ¬ sortVal' < lists.sortField (lists.prev (.headAndTail self)) := by
      rw [hsortVal']
      split
      · exact Int64.lt_irrefl
      · next hnot => exact hnot
    exact absurd hless hlast
  · refine ⟨sortVal', fun hlast => ?_, happended⟩
    exact if_neg (Int64.not_lt.mpr hlast)

theorem Sorted.ready (hsorted : Sorted lists (contents self)) (h : WellLinked lists contents)
    {id : Nat} {sortVal : Int64} {ready : SortedLists}
    (hready : Ready lists contents id sortVal ready) :
    Sorted ready (without contents id self) := by
  have hwithout : Sorted lists (without contents id self) := hsorted.sublist List.erase_sublist
  refine hwithout.imp_of_mem fun hleft hright hle => ?_
  rw [hready.sortField_eq, update_sortField (h.ne_of_mem_without hleft),
    update_sortField (h.ne_of_mem_without hright)]
  exact hle

/-- What an entry's own sort field was does not matter for its new place. -/
theorem Placed.of_ready (h : WellLinked lists contents) {id : Nat} {sortVal sortVal' : Int64}
    {ready after : SortedLists} {front rest : List Nat}
    (hready : Ready lists contents id sortVal ready)
    (hplaced : Placed ready (without contents id) self id sortVal' front rest after) :
    Placed lists contents self id sortVal' front rest after := by
  have hsplit := hplaced.split
  have hwellLinked := hplaced.wellLinked
  rw [without_eq_of_free hready.wellLinked hready.currentList_eq] at hsplit hwellLinked
  have hsame {other : Nat} (hother : other ∈ front ++ rest) :
      lists.sortField (.entry other) = ready.sortField (.entry other) := by
    rw [← hsplit] at hother
    rw [hready.sortField_eq, update_sortField (h.ne_of_mem_without hother)]
  refine ⟨hsplit, hwellLinked, ?_, fun earlier hearlier => ?_, fun later hlater => ?_⟩
  · rw [hplaced.sortField_eq, hready.sortField_eq, Function.update_idem]
  · rw [hsame (List.mem_append_left rest hearlier)]
    exact hplaced.front_le earlier hearlier
  · rw [hsame (List.mem_append_right front hlater)]
    exact hplaced.lt_rest later hlater

theorem WellLinked.insert (h : WellLinked lists contents) (hsorted : Sorted lists (contents self))
    (id : Nat) (sortVal : Int64) {rounds : Nat} (hrounds : (contents self).length < rounds) :
    ∃ sortVal' front rest after, (0 ≤ sortVal → sortVal' = sortVal) ∧
      lists.insert self rounds (.entry id) sortVal = some (true, after) ∧
        Placed lists contents self id sortVal' front rest after := by
  have hready := h.ready id sortVal
  set ready := (lists.removeFromCurrentList (.entry id)).setSortField id sortVal with hdef
  have hinsert : lists.insert self rounds (.entry id) sortVal =
      (ready.findGreater self sortVal rounds (ready.getFirst self)).map fun iter =>
        if iter = .null then (true, (ready.appendForce self (.entry id) sortVal).2)
        else (true, ready.insertBefore self iter (.entry id)) := by
    rw [SortedLists.insert, if_neg ChainableAddress.noConfusion,
      if_neg ChainableAddress.noConfusion]
    rfl
  have hsortedReady := hsorted.ready h hready
  have hroundsReady : (without contents id self).length < rounds :=
    Nat.lt_of_le_of_lt List.erase_sublist.length_le hrounds
  obtain ⟨hall, hfound⟩ | ⟨passed, other, behind, hsplit, hpassed, hother, hfound⟩ :=
    hready.wellLinked.findGreater_getFirst self sortVal hroundsReady
  · obtain ⟨sortVal', hsame, -, hplaced⟩ :=
      hready.wellLinked.appendForce hsortedReady id sortVal
    refine ⟨sortVal', _, _, _, fun hsortVal => hsame (hready.wellLinked.last_le hsortVal hall), ?_,
      Placed.of_ready h hready hplaced⟩
    rw [hinsert, hfound]
    rfl
  · refine ⟨sortVal, passed, other :: behind, ready.insertBefore self (.entry other) (.entry id),
      fun _ => rfl, ?_, ?_⟩
    · rw [hinsert, hfound]
      rfl
    · have hsame {later : Nat} (hlater : later ∈ passed ++ other :: behind) :
          ready.sortField (.entry later) = lists.sortField (.entry later) := by
        rw [← hsplit] at hlater
        rw [hready.sortField_eq, update_sortField (h.ne_of_mem_without hlater)]
      rw [hsplit] at hsortedReady
      have hbehind := (List.pairwise_append.mp hsortedReady).2.1
      refine hready.placed hsplit rfl (fun earlier hearlier => ?_) fun later hlater => ?_
      · rw [← hsame (List.mem_append_left _ hearlier)]
        exact hpassed earlier hearlier
      · rw [← hsame (List.mem_append_right passed hlater)]
        obtain rfl | hlater := List.mem_cons.mp hlater
        · exact hother
        · have hle := (List.pairwise_cons.mp hbehind).1 later hlater
          exact Int64.lt_of_lt_of_le hother hle

end order

end SortedLists

end Rodos.Support
