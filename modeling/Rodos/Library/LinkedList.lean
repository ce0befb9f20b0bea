import Mathlib.Logic.Function.Basic
import Mathlib.Data.List.Induction
import Mathlib.Data.List.Nodup
import Mathlib.Tactic.Common

/-! Singly linked lists: which nodes a walk along the `next` links visits, and what redirecting
one link does to the walk. -/
namespace Rodos.Library

variable {α : Type}

/-- The links lead from `start` through these nodes to `stop`. -/
def Linked (next : α → Option α) (stop : Option α) : Option α → List α → Prop
  | start, [] => start = stop
  | start, node :: nodes => start = some node ∧ Linked next stop (next node) nodes

namespace Linked

variable {next : α → Option α} {start stop : Option α}

theorem append {front back : List α} :
    Linked next stop start (front ++ back) ↔
      ∃ middle, Linked next middle start front ∧ Linked next stop middle back := by
  induction front generalizing start with
  | nil =>
    constructor
    · intro h
      exact ⟨start, rfl, h⟩
    · rintro ⟨middle, rfl, h⟩
      exact h
  | cons node front ih =>
    constructor
    · rintro ⟨hstart, hrest⟩
      obtain ⟨middle, hfront, hback⟩ := ih.mp hrest
      exact ⟨middle, ⟨hstart, hfront⟩, hback⟩
    · rintro ⟨middle, ⟨hstart, hfront⟩, hback⟩
      exact ⟨hstart, ih.mpr ⟨middle, hfront, hback⟩⟩

theorem congr {other : α → Option α} {nodes : List α} (h : Linked next stop start nodes)
    (hsame : ∀ node ∈ nodes, next node = other node) : Linked other stop start nodes := by
  induction nodes generalizing start with
  | nil => exact h
  | cons node nodes ih =>
    obtain ⟨hstart, hrest⟩ := h
    rw [hsame node List.mem_cons_self] at hrest
    exact ⟨hstart, ih hrest fun later hlater => hsame later (List.mem_cons_of_mem node hlater)⟩

theorem start_eq_head {node : α} {nodes : List α} (h : Linked next stop start (node :: nodes)) :
    start = some node := h.1

theorem tail {node : α} {nodes : List α} (h : Linked next stop start (node :: nodes)) :
    Linked next stop (next node) nodes := h.2

theorem start_eq_head? {nodes : List α} (h : Linked next none start nodes) :
    start = nodes.head? := by
  cases nodes with
  | nil => exact h
  | cons node nodes => exact h.start_eq_head

variable [DecidableEq α]

/-- The link of a node that is not visited does not matter. -/
theorem update_of_notMem {nodes : List α} {node : α} (target : Option α)
    (h : Linked next stop start nodes) (hnot : node ∉ nodes) :
    Linked (Function.update next node target) stop start nodes := by
  refine h.congr fun other hother => ?_
  rw [Function.update_of_ne]
  rintro rfl
  exact hnot hother

/-- Redirecting the last link redirects the walk. -/
theorem redirect {front : List α} {last : α} (target : Option α)
    (h : Linked next stop start (front ++ [last])) (hlast : last ∉ front) :
    Linked (Function.update next last target) target start (front ++ [last]) := by
  obtain ⟨middle, hfront, hend⟩ := append.mp h
  refine append.mpr ⟨middle, ?_, hend.start_eq_head, ?_⟩
  · exact hfront.update_of_notMem target hlast
  · exact Function.update_self last target next

/-- A new node is linked before the first one. -/
theorem pushFront {nodes : List α} {node : α} (h : Linked next stop start nodes)
    (hnew : node ∉ nodes) :
    Linked (Function.update next node start) stop (some node) (node :: nodes) := by
  refine ⟨rfl, ?_⟩
  rw [Function.update_self]
  exact h.update_of_notMem start hnew

/-- A new node is linked behind the last one. -/
theorem push {nodes : List α} {node : α} (h : Linked next none start nodes)
    (hnodup : nodes.Nodup) (hnew : node ∉ nodes) :
    match nodes.getLast? with
    | none => Linked (Function.update next node none) none (some node) [node]
    | some last =>
      Linked (Function.update (Function.update next node none) last (some node)) none start
        (nodes ++ [node]) := by
  cases nodes using List.reverseRecOn with
  | nil =>
    refine ⟨rfl, ?_⟩
    rw [Function.update_self]
    rfl
  | append_singleton front last =>
    rw [List.getLast?_concat]
    have hcleared := h.update_of_notMem none hnew
    have hlast : last ∉ front := (List.nodup_concat front last).mp
      (by rwa [List.concat_eq_append]) |>.1
    have hne : node ≠ last := by
      rintro rfl
      exact hnew (List.mem_append_right front List.mem_cons_self)
    refine append.mpr ⟨some node, hcleared.redirect (some node) hlast, rfl, ?_⟩
    rw [Function.update_of_ne hne, Function.update_self]
    rfl

/-- The node behind `before` is taken out by giving `before` its link. -/
theorem unlink {front back : List α} {before gone : α}
    (h : Linked next none start (front ++ [before] ++ gone :: back))
    (hnodup : (front ++ [before] ++ gone :: back).Nodup) :
    Linked (Function.update next before (next gone)) none start (front ++ [before] ++ back) := by
  obtain ⟨middle, hfront, hback⟩ := append.mp h
  obtain ⟨hleft, hright, hapart⟩ := List.nodup_append.mp hnodup
  have hlast : before ∉ front := (List.nodup_concat front before).mp
    (by rwa [List.concat_eq_append]) |>.1
  refine append.mpr ⟨next gone, hfront.redirect (next gone) hlast, ?_⟩
  apply hback.tail.update_of_notMem
  intro hmem
  exact hapart before (List.mem_append_right front List.mem_cons_self) before
    (List.mem_cons_of_mem gone hmem) rfl

/-- The last node is taken out by clearing the link of the node before it. -/
theorem dropLast {front : List α} {before last : α}
    (h : Linked next none start (front ++ [before] ++ [last]))
    (hnodup : (front ++ [before] ++ [last]).Nodup) :
    Linked (Function.update next before none) none start (front ++ [before]) := by
  have hend : next last = none := by
    obtain ⟨_, _, hlast⟩ := append.mp h
    exact hlast.tail
  have hunlinked := unlink h hnodup
  rw [hend, List.append_nil] at hunlinked
  exact hunlinked

end Linked

end Rodos.Library
