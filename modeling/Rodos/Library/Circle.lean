import Mathlib.Data.List.Basic
import Mathlib.Data.List.Nodup
import Mathlib.Logic.Function.Basic
import Mathlib.Tactic.Common

/-! Circular lists: links that lead from a head through some nodes back to it, and what putting a
node in between or taking one out does to them. -/
namespace Rodos.Library

variable {α : Type}

/-- The links lead from `head` through the nodes and back. -/
def Circle (next : α → α) (head : α) (nodes : List α) : Prop :=
  (head :: nodes).map next = nodes ++ [head]

namespace Circle

variable {next : α → α} {head : α}

theorem congr {other : α → α} {nodes : List α} (h : Circle next head nodes)
    (hsame : ∀ node ∈ head :: nodes, other node = next node) : Circle other head nodes := by
  rw [Circle, List.map_congr_left hsame]
  exact h

/-- A circle cut behind `before`. -/
theorem cut {front rest behind ahead : List α} {before after : α}
    (h : Circle next head (front ++ rest)) (hbefore : head :: front = behind ++ [before])
    (hafter : rest ++ [head] = after :: ahead) :
    behind.map next = front ∧ next before = after ∧ rest.map next = ahead := by
  have hlength : (behind.map next).length = front.length := by
    have hlengths := congrArg List.length hbefore
    simpa using hlengths.symm
  rw [Circle, ← List.cons_append, hbefore, List.append_assoc, List.append_assoc, hafter,
    List.map_append] at h
  obtain ⟨hbehind, hrest⟩ := List.append_inj h hlength
  obtain ⟨hlink, hahead⟩ := List.cons.inj hrest
  exact ⟨hbehind, hlink, hahead⟩

theorem of_cut {front rest behind ahead : List α} {before after : α}
    (hbefore : head :: front = behind ++ [before]) (hafter : rest ++ [head] = after :: ahead)
    (hbehind : behind.map next = front) (hlink : next before = after)
    (hahead : rest.map next = ahead) : Circle next head (front ++ rest) := by
  rw [Circle, ← List.cons_append, hbefore, List.append_assoc, List.append_assoc, hafter,
    List.map_append, List.cons_append, List.map_cons, hbehind, hlink, List.nil_append, hahead]

/-- The first node behind the head, or the head when there is none. -/
theorem next_head {nodes ahead : List α} {after : α} (h : Circle next head nodes)
    (hafter : nodes ++ [head] = after :: ahead) : next head = after := by
  rw [Circle, hafter, List.map_cons] at h
  exact (List.cons.inj h).1

variable [DecidableEq α]

/-- A new node is put in between two neighbours. -/
theorem insert {front rest behind ahead : List α} {before after new : α}
    (h : Circle next head (front ++ rest)) (hnodup : (head :: (front ++ rest)).Nodup)
    (hnew : new ∉ head :: (front ++ rest)) (hbefore : head :: front = behind ++ [before])
    (hafter : rest ++ [head] = after :: ahead) :
    Circle (Function.update (Function.update next new after) before new) head
      (front ++ new :: rest) := by
  obtain ⟨hbehind, -, hahead⟩ := h.cut hbefore hafter
  rw [← List.cons_append, hbefore, List.append_assoc, List.singleton_append] at hnodup hnew
  obtain ⟨hfront, hback, hapart⟩ := List.nodup_append.mp hnodup
  have hkept {node : α} (hbeforeNode : node ≠ before) (hnewNode : node ≠ new) :
      Function.update (Function.update next new after) before new node = next node := by
    rw [Function.update_of_ne hbeforeNode, Function.update_of_ne hnewNode]
  have hmiddle : (new :: rest) ++ [head] = new :: (rest ++ [head]) := rfl
  refine of_cut hbefore hmiddle ?_ (Function.update_self _ _ _) ?_
  · rw [← hbehind]
    refine List.map_congr_left fun node hnode => hkept ?_ ?_
    · exact hapart node hnode before List.mem_cons_self
    · rintro rfl
      exact hnew (List.mem_append_left _ hnode)
  · have hne : new ≠ before := by
      rintro rfl
      exact hnew (List.mem_append_right _ List.mem_cons_self)
    rw [List.map_cons, Function.update_of_ne hne, Function.update_self, hafter, ← hahead]
    refine congrArg (after :: ·) (List.map_congr_left fun node hnode => hkept ?_ ?_)
    · rintro rfl
      exact (List.nodup_cons.mp hback).1 hnode
    · rintro rfl
      exact hnew (List.mem_append_right _ (List.mem_cons_of_mem _ hnode))

/-- A node is taken out by linking its neighbours. -/
theorem remove {front rest behind : List α} {before gone : α}
    (h : Circle next head (front ++ gone :: rest))
    (hnodup : (head :: (front ++ gone :: rest)).Nodup)
    (hbefore : head :: front = behind ++ [before]) :
    Circle (Function.update next before (next gone)) head (front ++ rest) := by
  obtain ⟨hbehind, -, hahead⟩ := h.cut hbefore (List.cons_append)
  rw [← List.cons_append, hbefore, List.append_assoc, List.singleton_append] at hnodup
  obtain ⟨hfront, hback, hapart⟩ := List.nodup_append.mp hnodup
  obtain ⟨hbeforeBack, hrest⟩ := List.nodup_cons.mp hback
  rw [List.map_cons] at hahead
  refine of_cut hbefore hahead.symm ?_ (Function.update_self _ _ _) ?_
  · rw [← hbehind]
    refine List.map_congr_left fun node hnode => Function.update_of_ne ?_ _ _
    exact hapart node hnode before List.mem_cons_self
  · refine List.map_congr_left fun node hnode => Function.update_of_ne ?_ _ _
    rintro rfl
    exact hbeforeBack (List.mem_cons_of_mem _ hnode)

end Circle

theorem exists_last (head : α) (nodes : List α) :
    ∃ behind before, head :: nodes = behind ++ [before] :=
  ⟨_, _, (List.dropLast_concat_getLast (List.cons_ne_nil head nodes)).symm⟩

theorem exists_first (head : α) (nodes : List α) :
    ∃ after ahead, nodes ++ [head] = after :: ahead :=
  List.exists_cons_of_length_pos (by simp)

theorem reverse_first {head after : α} {rest ahead : List α}
    (h : rest ++ [head] = after :: ahead) : head :: rest.reverse = ahead.reverse ++ [after] := by
  simpa using congrArg List.reverse h

theorem reverse_last {head before : α} {front behind : List α}
    (h : head :: front = behind ++ [before]) :
    front.reverse ++ [head] = before :: behind.reverse := by
  simpa using congrArg List.reverse h

/-- A circle with links in both directions. -/
structure Ring (next prev : α → α) (head : α) (nodes : List α) : Prop where
  forward : Circle next head nodes
  backward : Circle prev head nodes.reverse

namespace Ring

variable {next prev : α → α} {head : α}

theorem congr {otherNext otherPrev : α → α} {nodes : List α} (h : Ring next prev head nodes)
    (hnext : ∀ node ∈ head :: nodes, otherNext node = next node)
    (hprev : ∀ node ∈ head :: nodes, otherPrev node = prev node) :
    Ring otherNext otherPrev head nodes where
  forward := h.forward.congr hnext
  backward := h.backward.congr fun node hnode => hprev node (by simpa using hnode)

theorem backward_append {front rest : List α} (h : Ring next prev head (front ++ rest)) :
    Circle prev head (rest.reverse ++ front.reverse) := by
  rw [← List.reverse_append]
  exact h.backward

/-- The links across a cut lead to each other. -/
theorem cut {front rest behind ahead : List α} {before after : α}
    (h : Ring next prev head (front ++ rest)) (hbefore : head :: front = behind ++ [before])
    (hafter : rest ++ [head] = after :: ahead) : next before = after ∧ prev after = before :=
  ⟨(h.forward.cut hbefore hafter).2.1,
    (h.backward_append.cut (reverse_first hafter) (reverse_last hbefore)).2.1⟩

theorem next_head {nodes ahead : List α} {after : α} (h : Ring next prev head nodes)
    (hafter : nodes ++ [head] = after :: ahead) : next head = after := by
  have hfirst : head :: ([] : List α) = [] ++ [head] := rfl
  exact (h.cut hfirst hafter).1

theorem prev_head {nodes behind : List α} {before : α} (h : Ring next prev head nodes)
    (hbefore : head :: nodes = behind ++ [before]) : prev head = before := by
  have hlast : ([] : List α) ++ [head] = head :: [] := rfl
  rw [← List.append_nil nodes] at h
  exact (h.cut hbefore hlast).2

/-- No node leads to itself. -/
theorem next_ne {nodes : List α} (h : Ring next prev head nodes) (hnodup : (head :: nodes).Nodup)
    {node : α} (hnode : node ∈ nodes) : next node ≠ node := by
  obtain ⟨front, rest, rfl⟩ := List.append_of_mem hnode
  obtain ⟨after, ahead, hafter⟩ := exists_first head rest
  have hsplit : front ++ node :: rest = (front ++ [node]) ++ rest := by simp
  rw [hsplit] at h
  rw [(h.cut (List.cons_append).symm hafter).1]
  rintro rfl
  obtain ⟨hhead, hnodup⟩ := List.nodup_cons.mp hnodup
  have hbehind := (List.nodup_cons.mp (List.nodup_append.mp hnodup).2.1).1
  have hmem : after ∈ rest ++ [head] := by
    rw [hafter]
    exact List.mem_cons_self
  obtain hmem | hmem := List.mem_append.mp hmem
  · exact hbehind hmem
  · rw [← List.mem_singleton.mp hmem] at hhead
    exact hhead hnode

theorem next_mem {nodes : List α} (h : Ring next prev head nodes) {node : α}
    (hnode : node ∈ head :: nodes) : next node ∈ head :: nodes := by
  have hmap : next node ∈ (head :: nodes).map next := List.mem_map_of_mem hnode
  rw [h.forward] at hmap
  simpa [or_comm] using hmap

theorem prev_mem {nodes : List α} (h : Ring next prev head nodes) {node : α}
    (hnode : node ∈ head :: nodes) : prev node ∈ head :: nodes := by
  have hmap : prev node ∈ (head :: nodes.reverse).map prev :=
    List.mem_map_of_mem (by simpa using hnode)
  rw [h.backward] at hmap
  simpa [or_comm] using hmap

variable [DecidableEq α]

/-- A new node is put in before `after`. -/
theorem insert {front rest ahead : List α} {after new : α}
    (h : Ring next prev head (front ++ rest)) (hnodup : (head :: (front ++ rest)).Nodup)
    (hnew : new ∉ head :: (front ++ rest)) (hafter : rest ++ [head] = after :: ahead) :
    Ring (Function.update (Function.update next new after) (prev after) new)
      (Function.update (Function.update prev new (prev after)) after new) head
      (front ++ new :: rest) := by
  obtain ⟨behind, before, hbefore⟩ := exists_last head front
  rw [(h.cut hbefore hafter).2]
  have hnodupReversed : (head :: (rest.reverse ++ front.reverse)).Nodup := by
    rw [← List.reverse_append, List.nodup_cons, List.mem_reverse, List.nodup_reverse]
    exact List.nodup_cons.mp hnodup
  have hnewReversed : new ∉ head :: (rest.reverse ++ front.reverse) := by
    rwa [← List.reverse_append, List.mem_cons, List.mem_reverse, ← List.mem_cons]
  have hbackward := h.backward_append.insert hnodupReversed hnewReversed (reverse_first hafter)
    (reverse_last hbefore)
  refine ⟨h.forward.insert hnodup hnew hbefore hafter, ?_⟩
  simpa using hbackward

/-- A node is taken out by linking its neighbours. -/
theorem remove {front rest : List α} {gone : α} (h : Ring next prev head (front ++ gone :: rest))
    (hnodup : (head :: (front ++ gone :: rest)).Nodup) :
    Ring (Function.update next (prev gone) (next gone))
      (Function.update prev (next gone) (prev gone)) head (front ++ rest) := by
  obtain ⟨behind, before, hbefore⟩ := exists_last head front
  obtain ⟨after, ahead, hafter⟩ := exists_first head rest
  have hprev : prev gone = before := (h.cut hbefore List.cons_append).2
  have hnext : next gone = after := by
    have hsplit : front ++ gone :: rest = (front ++ [gone]) ++ rest := by simp
    rw [hsplit] at h
    exact (h.cut (List.cons_append).symm hafter).1
  have hreversed : (front ++ gone :: rest).reverse = rest.reverse ++ gone :: front.reverse := by
    simp
  have hnodupReversed : (head :: (rest.reverse ++ gone :: front.reverse)).Nodup := by
    rw [← hreversed, List.nodup_cons, List.mem_reverse, List.nodup_reverse]
    exact List.nodup_cons.mp hnodup
  have hbackward := h.backward
  rw [hreversed] at hbackward
  have hremoved := hbackward.remove hnodupReversed (reverse_first hafter)
  rw [← hnext] at hremoved
  refine ⟨?_, by simpa using hremoved⟩
  rw [hprev]
  exact h.forward.remove hnodup hbefore

end Ring

end Rodos.Library
