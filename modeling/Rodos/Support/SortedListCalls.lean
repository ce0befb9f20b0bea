import Mathlib.Algebra.Group.Nat.Defs
import Rodos.Support.SortedListOrder

/-! All methods of `SortedList`, called for several lists in any order. Entries are stamped with the
number of the call that has chained them in, so that first come, first serve can be said. -/
namespace Rodos.Support
open Library

/-- What a user can pass: no entry, the fixed member that an iteration through the list ends with,
or an entry. -/
inductive Argument where
  | null
  | headAndTail
  | entry (id : Nat)

def Argument.address (self : ListAddress) : Argument → ChainableAddress
  | .null => .null
  | .headAndTail => .headAndTail self
  | .entry id => .entry id

def Argument.id : Argument → Option Nat
  | .null => none
  | .headAndTail => none
  | .entry id => some id

inductive ListCall where
  | insert (newEntry : Argument) (sortVal : Int64)
  | append (newEntry : Argument) (sortVal : Int64)
  | appendForce (newEntry : Argument) (sortVal : Int64)
  | remove (entry : Argument)
  | getAndRemoveTheFirst

/-- The entry that a call has to chain in. -/
def ListCall.newEntry : ListCall → Option Nat
  | .insert newEntry _ => newEntry.id
  | .append newEntry _ => newEntry.id
  | .appendForce newEntry _ => newEntry.id
  | .remove _ => none
  | .getAndRemoveTheFirst => none

namespace SortedLists

/-- Whether a call has done something, as it reports, and the lists after it. -/
def call (lists : SortedLists) (self : ListAddress) (rounds : Nat) :
    ListCall → Option (Bool × SortedLists)
  | .insert newEntry sortVal => lists.insert self rounds (newEntry.address self) sortVal
  | .append newEntry sortVal => some (lists.append self (newEntry.address self) sortVal)
  | .appendForce newEntry sortVal => some (lists.appendForce self (newEntry.address self) sortVal)
  | .remove entry => some (lists.remove self (entry.address self))
  | .getAndRemoveTheFirst =>
    let (entry, lists) := lists.getAndRemoveTheFirst self
    some (entry ≠ .null, lists)

structure Usage where
  lists : SortedLists := initial
  clock : Nat := 0
  insertedAt : Nat → Nat := fun _ => 0

/-- The stamps after a call that has put an entry in. -/
def Usage.stamp (usage : Usage) : Option Nat → Nat → Nat
  | none => usage.insertedAt
  | some id => Function.update usage.insertedAt id usage.clock

def Usage.call (rounds : Nat) (usage : Usage) : ListAddress × ListCall → Option Usage
  | (self, call) =>
    (usage.lists.call self rounds call).map fun (success, lists) =>
      { lists := lists
        clock := usage.clock + 1
        insertedAt := if success then usage.stamp call.newEntry else usage.insertedAt }

section effects

variable {lists after : SortedLists} {contents : ListAddress → List Nat}

/-- All that a call can do. -/
inductive Effect (lists : SortedLists) (contents : ListAddress → List Nat) (list : ListAddress)
    (newEntry : Option Nat) : Bool → SortedLists → Prop where
  | refused : Effect lists contents list newEntry false lists
  | takenOut (id : Nat) (after : SortedLists) (hnone : newEntry = none)
      (htaken : TakenOut lists contents id after) : Effect lists contents list newEntry true after
  | placed (id : Nat) (sortVal : Int64) (front rest : List Nat) (after : SortedLists)
      (hsome : newEntry = some id)
      (hplaced : Placed lists contents list id sortVal front rest after) :
      Effect lists contents list newEntry true after

theorem WellLinked.effect_remove (h : WellLinked lists contents) (self : ListAddress) (id : Nat) :
    Effect lists contents self none (lists.remove self (.entry id)).1
      (lists.remove self (.entry id)).2 := by
  obtain ⟨-, hrefused⟩ | ⟨-, hremoved, htaken⟩ := h.remove self id
  · rw [hrefused]
    exact .refused
  · rw [hremoved]
    exact .takenOut id _ rfl htaken

theorem WellLinked.effect (h : WellLinked lists contents)
    (hsorted : ∀ list, Sorted lists (contents list)) (self : ListAddress) {rounds : Nat}
    (hrounds : (contents self).length < rounds) (call : ListCall) :
    ∃ success after, lists.call self rounds call = some (success, after) ∧
      Effect lists contents self call.newEntry success after := by
  cases call with
  | insert newEntry sortVal =>
    cases newEntry with
    | null => exact ⟨false, lists, rfl, .refused⟩
    | headAndTail =>
      exact ⟨false, lists, by simp [SortedLists.call, SortedLists.insert, Argument.address],
        .refused⟩
    | entry id =>
      obtain ⟨sortVal', front, rest, after, -, hinsert, hplaced⟩ :=
        h.insert (hsorted self) id sortVal hrounds
      exact ⟨true, after, hinsert, .placed id sortVal' front rest after rfl hplaced⟩
  | append newEntry sortVal =>
    cases newEntry with
    | null => exact ⟨false, lists, rfl, .refused⟩
    | headAndTail =>
      exact ⟨false, lists, by simp [SortedLists.call, SortedLists.append, Argument.address],
        .refused⟩
    | entry id =>
      refine ⟨_, _, rfl, ?_⟩
      change Effect lists contents self (some id) (lists.append self (.entry id) sortVal).1
        (lists.append self (.entry id) sortVal).2
      obtain ⟨-, hrefused⟩ | ⟨happended, hplaced⟩ := h.append (hsorted self) id sortVal
      · rw [hrefused]
        exact .refused
      · rw [happended]
        exact .placed id sortVal _ [] _ rfl hplaced
  | appendForce newEntry sortVal =>
    cases newEntry with
    | null => exact ⟨false, lists, rfl, .refused⟩
    | headAndTail =>
      exact ⟨false, lists,
        by simp [SortedLists.call, SortedLists.appendForce, SortedLists.append, Argument.address],
        .refused⟩
    | entry id =>
      refine ⟨_, _, rfl, ?_⟩
      change Effect lists contents self (some id) (lists.appendForce self (.entry id) sortVal).1
        (lists.appendForce self (.entry id) sortVal).2
      obtain ⟨sortVal', -, happended, hplaced⟩ := h.appendForce (hsorted self) id sortVal
      rw [happended]
      exact .placed id sortVal' _ [] _ rfl hplaced
  | remove entry =>
    cases entry with
    | null => exact ⟨false, lists, rfl, .refused⟩
    | headAndTail =>
      exact ⟨false, lists, by simp [SortedLists.call, SortedLists.remove, Argument.address],
        .refused⟩
    | entry id => exact ⟨_, _, rfl, h.effect_remove self id⟩
  | getAndRemoveTheFirst =>
    refine ⟨_, _, rfl, ?_⟩
    change Effect lists contents self none (decide (lists.getFirst self ≠ .null))
      (lists.remove self (lists.getFirst self)).2
    obtain ⟨-, hfirst⟩ | ⟨id, rest, hcontents, hfirst⟩ := h.getFirst self
    · rw [hfirst]
      exact .refused
    · have hid := (h.currentList_entry id self).mpr (hcontents ▸ List.mem_cons_self)
      obtain ⟨hnot, -⟩ | ⟨-, -, htaken⟩ := h.remove self id
      · exact absurd hid hnot
      · rw [hfirst]
        exact .takenOut id _ rfl htaken

theorem Effect.unchanged {self : ListAddress} {newEntry : Option Nat}
    {success : Bool} (heffect : Effect lists contents self newEntry success after)
    (hfailed : success = false) : after = lists := by
  cases heffect with
  | refused => rfl
  | takenOut => cases hfailed
  | placed => cases hfailed

end effects

section order

variable {lists after : SortedLists} {contents : ListAddress → List Nat} {self : ListAddress}
  {insertedAt : Nat → Nat} {clock id : Nat} {sortVal : Int64} {front rest : List Nat}

theorem earlier_of_le {id other : Nat}
    (hle : lists.sortField (.entry id) ≤ lists.sortField (.entry other))
    (hat : insertedAt id < insertedAt other) : Earlier lists insertedAt id other := by
  by_cases hsame : lists.sortField (.entry id) = lists.sortField (.entry other)
  · exact .inr ⟨hsame, hat⟩
  · exact .inl (Int64.lt_of_le_of_ne hle hsame)

theorem sorted_of_pairwise {ids : List Nat} (h : ids.Pairwise (Earlier lists insertedAt)) :
    Sorted lists ids :=
  h.imp Earlier.le

theorem pairwise_without (h : ∀ list, (contents list).Pairwise (Earlier lists insertedAt))
    (hsame : after.sortField = lists.sortField) (id : Nat) (list : ListAddress) :
    (without contents id list).Pairwise (Earlier after insertedAt) := by
  refine ((h list).sublist List.erase_sublist).imp fun hearlier => ?_
  rw [Earlier, hsame]
  exact hearlier

/-- The new entry is behind those that it does not precede, and its stamp is the latest. -/
theorem Placed.pairwise (hplaced : Placed lists contents self id sortVal front rest after)
    (h : WellLinked lists contents)
    (hordered : ∀ list, (contents list).Pairwise (Earlier lists insertedAt))
    (hdated : ∀ list, ∀ other ∈ contents list, insertedAt other < clock) (list : ListAddress) :
    (Function.update (without contents id) self (front ++ id :: rest) list).Pairwise
      (Earlier after (Function.update insertedAt id clock)) := by
  have hsortField {other : Nat} (hother : other ≠ id) :
      after.sortField (.entry other) = lists.sortField (.entry other) := by
    rw [hplaced.sortField_eq, update_sortField hother]
  have hnew : after.sortField (.entry id) = sortVal := by
    rw [hplaced.sortField_eq, Function.update_self]
  have hkept : (without contents id list).Pairwise
      (Earlier after (Function.update insertedAt id clock)) := by
    refine ((hordered list).sublist List.erase_sublist).imp_of_mem fun hleft hright hearlier => ?_
    have hleftNe := h.ne_of_mem_without hleft
    have hrightNe := h.ne_of_mem_without hright
    rw [Earlier, hsortField hleftNe, hsortField hrightNe, Function.update_of_ne hleftNe,
      Function.update_of_ne hrightNe]
    exact hearlier
  by_cases hlist : list = self
  · subst hlist
    rw [Function.update_self]
    have hmem {other : Nat} (hother : other ∈ front ++ rest) :
        other ∈ without contents id list := by
      rw [hplaced.split]
      exact hother
    rw [hplaced.split] at hkept
    obtain ⟨hfront, hrest, hacross⟩ := List.pairwise_append.mp hkept
    refine List.pairwise_append.mpr ⟨hfront, List.pairwise_cons.mpr ⟨?_, hrest⟩, ?_⟩
    · intro later hlater
      have hne := h.ne_of_mem_without (hmem (List.mem_append_right front hlater))
      refine .inl ?_
      rw [hnew, hsortField hne]
      exact hplaced.lt_rest later hlater
    · intro earlier hearlier later hlater
      obtain rfl | hlater := List.mem_cons.mp hlater
      · have hwithout := hmem (List.mem_append_left rest hearlier)
        have hne := h.ne_of_mem_without hwithout
        refine earlier_of_le ?_ ?_
        · rw [hnew, hsortField hne]
          exact hplaced.front_le earlier hearlier
        · rw [Function.update_self, Function.update_of_ne hne]
          exact hdated list earlier (WellLinked.mem_of_mem_without hwithout)
      · exact hacross earlier hearlier later hlater
  · rw [Function.update_of_ne hlist]
    exact hkept

end order

section usage

variable {usage : Usage} {contents : ListAddress → List Nat}

/-- The lists have these entries, in their order. -/
structure Sound (usage : Usage) (contents : ListAddress → List Nat) : Prop where
  wellLinked : WellLinked usage.lists contents
  ordered : ∀ list, (contents list).Pairwise (Earlier usage.lists usage.insertedAt)
  dated : ∀ list, ∀ id ∈ contents list, usage.insertedAt id < usage.clock
  length_le : ∀ list, (contents list).length ≤ usage.clock

theorem Sound.initial : Sound {} fun _ => [] where
  wellLinked := wellLinked_initial
  ordered _ := List.Pairwise.nil
  dated _ := nofun
  length_le _ := Nat.zero_le _

namespace Sound

theorem effect (h : Sound usage contents) {self : ListAddress} {newEntry : Option Nat}
    {success : Bool} {after : SortedLists}
    (heffect : Effect usage.lists contents self newEntry success after) :
    ∃ contents', Sound ⟨after, usage.clock + 1,
      if success then usage.stamp newEntry else usage.insertedAt⟩ contents' := by
  have hlength (id : Nat) (list : ListAddress) :
      (without contents id list).length ≤ usage.clock :=
    Nat.le_trans List.erase_sublist.length_le (h.length_le list)
  cases heffect with
  | refused =>
    exact ⟨contents, h.wellLinked, h.ordered,
      fun list id hid => Nat.lt_succ_of_lt (h.dated list id hid),
      fun list => Nat.le_succ_of_le (h.length_le list)⟩
  | takenOut id after hnone htaken =>
    subst hnone
    refine ⟨without contents id, htaken.wellLinked, ?_, ?_,
      fun list => Nat.le_succ_of_le (hlength id list)⟩
    · exact pairwise_without h.ordered htaken.sortField_eq id
    · intro list other hother
      exact Nat.lt_succ_of_lt (h.dated list other (WellLinked.mem_of_mem_without hother))
  | placed id sortVal front rest after hsome hplaced =>
    subst hsome
    refine ⟨_, hplaced.wellLinked, hplaced.pairwise h.wellLinked h.ordered h.dated, ?_, ?_⟩
    · intro list other hother
      change Function.update usage.insertedAt id usage.clock other < usage.clock + 1
      by_cases hsame : other = id
      · rw [hsame, Function.update_self]
        exact Nat.lt_succ_self _
      · rw [Function.update_of_ne hsame]
        by_cases hlist : list = self
        · subst hlist
          rw [Function.update_self, List.mem_append, List.mem_cons] at hother
          have hwithout : other ∈ without contents id list := by
            rw [hplaced.split, List.mem_append]
            tauto
          exact Nat.lt_succ_of_lt (h.dated list other (WellLinked.mem_of_mem_without hwithout))
        · rw [Function.update_of_ne hlist] at hother
          exact Nat.lt_succ_of_lt (h.dated list other (WellLinked.mem_of_mem_without hother))
    · intro list
      by_cases hlist : list = self
      · subst hlist
        have hsplit := hlength id list
        rw [hplaced.split, List.length_append] at hsplit
        rw [Function.update_self, List.length_append, List.length_cons]
        exact Nat.succ_le_succ hsplit
      · rw [Function.update_of_ne hlist]
        exact Nat.le_succ_of_le (hlength id list)

theorem call_effect (h : Sound usage contents) {rounds : Nat} (hrounds : usage.clock < rounds)
    (self : ListAddress) (call : ListCall) :
    ∃ success after, usage.lists.call self rounds call = some (success, after) ∧
      Effect usage.lists contents self call.newEntry success after :=
  h.wellLinked.effect (fun list => sorted_of_pairwise (h.ordered list)) self
    (Nat.lt_of_le_of_lt (h.length_le self) hrounds) call

theorem call (h : Sound usage contents) {rounds : Nat} (hrounds : usage.clock < rounds)
    (label : ListAddress × ListCall) :
    ∃ next, usage.call rounds label = some next ∧ next.clock = usage.clock + 1 ∧
      ∃ contents', Sound next contents' := by
  obtain ⟨self, call⟩ := label
  obtain ⟨success, after, hcall, heffect⟩ := h.call_effect hrounds self call
  exact ⟨_, by rw [Usage.call, hcall]; rfl, rfl, h.effect heffect⟩

/-- No call runs out of rounds, and the lists stay sound. By induction on the calls. -/
theorem calls (h : Sound usage contents) {rounds : Nat} (calls : List (ListAddress × ListCall))
    (hrounds : usage.clock + calls.length < rounds) :
    ∃ final, run (Usage.call rounds) usage calls = some final ∧ final.clock < rounds ∧
      ∃ contents', Sound final contents' := by
  induction calls generalizing usage contents with
  | nil => exact ⟨usage, rfl, by simpa using hrounds, contents, h⟩
  | cons label calls ih =>
    rw [List.length_cons] at hrounds
    have hone : usage.clock < rounds := by omega
    obtain ⟨next, hnext, hclock, contents', hsound⟩ := h.call hone label
    obtain ⟨final, hrun, hfinal⟩ := ih hsound (by omega)
    exact ⟨final, run_cons hnext hrun, hfinal⟩

theorem insert_entry (h : Sound usage contents) {rounds : Nat} (hrounds : usage.clock < rounds)
    (self : ListAddress) (id : Nat) {sortVal : Int64} (hsortVal : 0 ≤ sortVal) :
    ∃ after, usage.lists.insert self rounds (.entry id) sortVal = some (true, after) ∧
      after.currentList (.entry id) = some self ∧
      after.sortField = Function.update usage.lists.sortField (.entry id) sortVal := by
  obtain ⟨sortVal', front, rest, after, hsame, hinsert, hplaced⟩ :=
    h.wellLinked.insert (sorted_of_pairwise (h.ordered self)) id sortVal
      (Nat.lt_of_le_of_lt (h.length_le self) hrounds)
  refine ⟨after, hinsert, ?_, ?_⟩
  · apply (hplaced.wellLinked.currentList_entry id self).mpr
    rw [Function.update_self]
    exact List.mem_append_right front List.mem_cons_self
  · rw [hplaced.sortField_eq, hsame hsortVal]

end Sound

/-- Whatever has been called, the lists are circles of their entries, in the order of the sort
fields and of the insertions, and a call that reports a failure has left them alone. -/
theorem sound_after_calls (calls : List (ListAddress × ListCall)) {rounds : Nat}
    (hrounds : calls.length < rounds) :
    ∃ usage contents, run (Usage.call rounds) {} calls = some usage ∧
      WellLinked usage.lists contents ∧
      (∀ list, (contents list).Pairwise (Earlier usage.lists usage.insertedAt)) ∧
      (∀ list, (contents list).length < 2 ^ 31 →
        (usage.lists.numberOfElements list).toInt = (contents list).length) ∧
      (∀ id list other, id ∈ contents list → id ∈ contents other → list = other) ∧
      (∀ self id sortVal, 0 ≤ sortVal →
        ∃ after, usage.lists.insert self rounds (.entry id) sortVal = some (true, after) ∧
          after.currentList (.entry id) = some self ∧
          after.sortField = Function.update usage.lists.sortField (.entry id) sortVal) ∧
      ∀ self call, ∃ success after,
        usage.lists.call self rounds call = some (success, after) ∧
          (success = false → after = usage.lists) := by
  obtain ⟨usage, hrun, hclock, contents, h⟩ := Sound.initial.calls calls (by simpa using hrounds)
  refine ⟨usage, contents, hrun, h.wellLinked, h.ordered, fun list hfew => ?_,
    fun id list other hlist hother => ?_, fun self id sortVal => h.insert_entry hclock self id,
    fun self call => ?_⟩
  · rw [h.wellLinked.numberOfElements_eq, Int32.toInt_ofNat_of_lt hfew]
  · have hsame := (h.wellLinked.currentList_entry id list).mpr hlist
    rw [(h.wellLinked.currentList_entry id other).mpr hother] at hsame
    exact (Option.some.inj hsame).symm
  · obtain ⟨success, after, hcall, heffect⟩ := h.call_effect hclock self call
    exact ⟨success, after, hcall, heffect.unchanged⟩

theorem sound_after_calls_two_lists :
    let calls : List (ListAddress × ListCall) :=
      [(0, .insert (.entry 1) 5), (0, .insert (.entry 2) 3), (0, .insert (.entry 3) 5),
        (1, .append (.entry 1) 4), (0, .remove (.entry 1)), (1, .getAndRemoveTheFirst)]
    (run (Usage.call 7) {} calls).map (fun usage => (usage.lists.getFirst 0,
      usage.lists.next (.entry 2), usage.lists.numberOfElements 0, usage.lists.getFirst 1)) =
        some (.entry 2, .entry 3, 2, .null) ∧
      ∃ usage contents, run (Usage.call 7) {} calls = some usage ∧
        WellLinked usage.lists contents := by
  refine ⟨by decide, ?_⟩
  obtain ⟨usage, contents, hrun, hlinked, -⟩ := sound_after_calls
    [(0, .insert (.entry 1) 5), (0, .insert (.entry 2) 3), (0, .insert (.entry 3) 5),
      (1, .append (.entry 1) 4), (0, .remove (.entry 1)), (1, .getAndRemoveTheFirst)]
    (show 6 < 7 by decide)
  exact ⟨usage, contents, hrun, hlinked⟩

end usage

end SortedLists

end Rodos.Support
