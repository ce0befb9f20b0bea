import Rodos.Library.Circle
import Rodos.Library.Runs

/-! `SortedList`: entries chained into circles in the order of their sort fields. Each list has a
member of its own in its circle, so that no list is ever without one. -/
namespace Rodos.Support
open Library

/-- Stands for `SortedList*`. -/
abbrev ListAddress := Nat

/-- Stands for `SortedChainable*`: the member of a list that ties it together, or an entry. -/
inductive ChainableAddress where
  | null
  | headAndTail (list : ListAddress)
  | entry (id : Nat)
deriving DecidableEq

structure SortedChainable where
  sortField : Int64 := 0
  currentList : Option ListAddress := none
  next : ChainableAddress := .null
  prev : ChainableAddress := .null

/-- The memory of all lists and entries. -/
structure SortedLists where
  chainable : ChainableAddress → SortedChainable
  numberOfElements : ListAddress → Int32

namespace SortedLists

/-- All lists behind their constructors, all entries behind `init`. -/
def initial : SortedLists where
  chainable
    | .null => {}
    | .headAndTail list => { next := .headAndTail list, prev := .headAndTail list }
    | .entry _ => {}
  numberOfElements _ := 0

def modify (lists : SortedLists) (address : ChainableAddress)
    (change : SortedChainable → SortedChainable) : SortedLists :=
  { lists with
    chainable := Function.update lists.chainable address (change (lists.chainable address)) }

section methods

variable (lists : SortedLists) (self : ListAddress)

def endOfList (item : ChainableAddress) : Bool := item = .null || item = .headAndTail self

def getFirst : ChainableAddress :=
  let first := (lists.chainable (.headAndTail self)).next
  if first = .headAndTail self then .null else first

/-- The stores of `remove`, once its checks have passed. -/
def unlink (entry : ChainableAddress) : SortedLists :=
  let lists := lists.modify entry fun item => { item with currentList := none }
  let prev := (lists.chainable entry).prev
  let lists := lists.modify (lists.chainable entry).next fun item => { item with prev := prev }
  let next := (lists.chainable entry).next
  let lists := lists.modify (lists.chainable entry).prev fun item => { item with next := next }
  { lists with
    numberOfElements :=
      Function.update lists.numberOfElements self (lists.numberOfElements self - 1) }

def remove (entry : ChainableAddress) : Bool × SortedLists :=
  if entry = .null then (false, lists)
  else if (lists.chainable entry).currentList ≠ some self then (false, lists)
  else if entry = .headAndTail self then (false, lists)
  else (true, lists.unlink self entry)

def getAndRemoveTheFirst : ChainableAddress × SortedLists :=
  let entry := lists.getFirst self
  (entry, (lists.remove self entry).2)

def insertBefore (beforeThis newEntry : ChainableAddress) : SortedLists :=
  let lists := lists.modify newEntry fun item => { item with next := beforeThis }
  let lists := lists.modify newEntry fun item =>
    { item with prev := (lists.chainable beforeThis).prev }
  let lists := lists.modify newEntry fun item => { item with currentList := some self }
  let lists := lists.modify (lists.chainable beforeThis).prev fun item =>
    { item with next := newEntry }
  let lists := lists.modify beforeThis fun item => { item with prev := newEntry }
  { lists with
    numberOfElements :=
      Function.update lists.numberOfElements self (lists.numberOfElements self + 1) }

/-- Takes an entry out of the list that it is in, which would be damaged otherwise. -/
def removeFromCurrentList (newEntry : ChainableAddress) : SortedLists :=
  match (lists.chainable newEntry).currentList with
  | none => lists
  | some currentList => (lists.remove currentList newEntry).2

def append (newEntry : ChainableAddress) (sortVal : Int64) : Bool × SortedLists :=
  if newEntry = .null then (false, lists)
  else if newEntry = .headAndTail self then (false, lists)
  else
    let last := (lists.chainable (.headAndTail self)).prev
    if sortVal < (lists.chainable last).sortField then (false, lists)
    else
      let lists := lists.removeFromCurrentList newEntry
      let lists := lists.modify newEntry fun item => { item with currentList := some self }
      let lists := lists.modify newEntry fun item => { item with sortField := sortVal }
      (true, lists.insertBefore self (.headAndTail self) newEntry)

def appendForce (newEntry : ChainableAddress) (sortVal : Int64) : Bool × SortedLists :=
  let lastVal := (lists.chainable (lists.chainable (.headAndTail self)).prev).sortField
  let sortVal := if sortVal < lastVal then lastVal else sortVal
  lists.append self newEntry sortVal

/-- The loop of `insert`: the first item from `iter` on with a greater sort field, or `null` when
the list ends before. Nothing when the loop has not ended after so many rounds. -/
def findGreater (sortVal : Int64) : Nat → ChainableAddress → Option ChainableAddress
  | 0, _ => none
  | rounds + 1, iter =>
    if endOfList self iter then some .null
    else if (lists.chainable iter).sortField > sortVal then some iter
    else findGreater sortVal rounds (lists.chainable iter).next

/-- Nothing when the loop takes more than so many rounds. -/
def insert (rounds : Nat) (newEntry : ChainableAddress) (sortVal : Int64) :
    Option (Bool × SortedLists) :=
  if newEntry = .null then some (false, lists)
  else if newEntry = .headAndTail self then some (false, lists)
  else
    let lists := lists.removeFromCurrentList newEntry
    let lists := lists.modify newEntry fun item => { item with sortField := sortVal }
    (lists.findGreater self sortVal rounds (lists.getFirst self)).map fun iter =>
      if iter = .null then (true, (lists.appendForce self newEntry sortVal).2)
      else (true, lists.insertBefore self iter newEntry)

end methods

end SortedLists

end Rodos.Support
