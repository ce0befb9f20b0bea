import Mathlib.Data.List.Basic
import Mathlib.Tactic.Common

/-! A queue of limited capacity that takes every value: when it is full, its oldest one is
dropped. -/
namespace Rodos.Library

inductive Fate where
  | delivered
  | dropped
deriving DecidableEq

/-- What has become of the values that were put: those that are settled, oldest first, and behind
them those that are still pending. -/
structure Account (α : Type) where
  settled : List (Fate × α) := []
  pending : List α := []

namespace Account

variable {α : Type}

def settle (fate : Fate) (account : Account α) : Account α :=
  match account.pending with
  | [] => account
  | oldest :: pending => { settled := account.settled ++ [(fate, oldest)], pending := pending }

def push (value : α) (account : Account α) : Account α :=
  { account with pending := account.pending ++ [value] }

def put (capacity : Nat) (value : α) (account : Account α) : Account α :=
  if account.pending.length = capacity then (account.settle .dropped).push value
  else account.push value

def get (account : Account α) : Account α := account.settle .delivered

/-- All values that were put, in their order. -/
def values (account : Account α) : List α := account.settled.map Prod.snd ++ account.pending

/-- The settled values with this fate. -/
def withFate (fate : Fate) (account : Account α) : List α :=
  (account.settled.filter fun entry => entry.1 = fate).map Prod.snd

theorem values_settle (fate : Fate) (account : Account α) :
    (account.settle fate).values = account.values := by
  rw [settle]
  split
  · rfl
  · next oldest pending hpending => simp [values, hpending]

theorem values_push (value : α) (account : Account α) :
    (account.push value).values = account.values ++ [value] := by
  simp [values, push]

theorem values_put (capacity : Nat) (value : α) (account : Account α) :
    (account.put capacity value).values = account.values ++ [value] := by
  rw [put]
  split
  · rw [values_push, values_settle]
  · rw [values_push]

theorem values_get (account : Account α) : account.get.values = account.values :=
  values_settle .delivered account

theorem withFate_sublist (fate : Fate) (account : Account α) :
    (account.withFate fate).Sublist account.values :=
  (List.filter_sublist.map Prod.snd).trans (List.sublist_append_left _ _)

theorem withFate_settle (fate other : Fate) {account : Account α} {oldest : α} {pending : List α}
    (hpending : account.pending = oldest :: pending) :
    (account.settle fate).withFate other =
      account.withFate other ++ if fate = other then [oldest] else [] := by
  rw [settle, hpending, withFate, withFate, List.filter_append, List.map_append]
  by_cases hfate : fate = other <;> simp [hfate]

theorem settle_of_cons (fate : Fate) {account : Account α} {oldest : α} {pending : List α}
    (hpending : account.pending = oldest :: pending) :
    account.settle fate =
      { settled := account.settled ++ [(fate, oldest)], pending := pending } := by
  rw [settle, hpending]

theorem settle_of_nil (fate : Fate) {account : Account α} (hpending : account.pending = []) :
    account.settle fate = account := by
  rw [settle, hpending]

theorem withFate_push (fate : Fate) (value : α) (account : Account α) :
    (account.push value).withFate fate = account.withFate fate := rfl

/-- Nothing is delivered by a put. -/
theorem withFate_put_delivered (capacity : Nat) (value : α) (account : Account α) :
    (account.put capacity value).withFate .delivered = account.withFate .delivered := by
  rw [put]
  split
  · rw [withFate_push]
    cases hpending : account.pending with
    | nil => rw [settle_of_nil _ hpending]
    | cons oldest pending => rw [withFate_settle _ _ hpending, if_neg nofun, List.append_nil]
  · rfl

theorem withFate_get (account : Account α) :
    account.get.withFate .delivered =
      account.withFate .delivered ++ account.pending.head?.toList := by
  rw [get]
  cases hpending : account.pending with
  | nil => simp [settle_of_nil _ hpending]
  | cons oldest pending => rw [withFate_settle _ _ hpending, if_pos rfl]; rfl

/-- The oldest pending value comes right behind the settled ones. -/
theorem getElem?_values (account : Account α) :
    account.values[account.settled.length]? = account.pending.head? := by
  rw [values, List.getElem?_append_right (by simp), List.length_map, Nat.sub_self]
  exact List.head?_eq_getElem?.symm

theorem length_values (account : Account α) :
    account.values.length = account.settled.length + account.pending.length := by
  simp [values]

end Account

end Rodos.Library
