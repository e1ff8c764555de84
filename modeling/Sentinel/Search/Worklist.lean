/-
Sentinel.Search.Worklist — searching a graph from a queue.

`Reachable` is the set such a search is to find: the start, if it is
admitted, and with every member its admitted successors. `Frontier` is the
invariant of the search between two steps. Taking an element off the queue
either skips it or visits it, and what the queue gains is up to the
caller as long as no admitted successor is forgotten. A search that ran out
of queue has found the set; one that was stopped has found part of it.
-/
import Mathlib.Data.ENat.Lattice
import Mathlib.Data.Set.Card
import Mathlib.Data.List.Dedup

namespace Sentinel.Search

universe u

variable {α : Type u} {admits : α → Prop} {successors : α → List α} {start : α}

/-- The least set that has the start, if admitted, and every admitted
successor of a member. -/
inductive Reachable (admits : α → Prop) (successors : α → List α) (start : α) : α → Prop
  | start (h : admits start) : Reachable admits successors start start
  | next {u v : α} (hu : Reachable admits successors start u) (hv : v ∈ successors u)
      (h : admits v) : Reachable admits successors start v

/-- The start and the successors of reachable elements: what a search looks
at at all. -/
def Met (admits : α → Prop) (successors : α → List α) (start u : α) : Prop :=
  u = start ∨ ∃ v, Reachable admits successors start v ∧ u ∈ successors v

theorem Met.reachable {u : α} (hmet : Met admits successors start u) (h : admits u) :
    Reachable admits successors start u := by
  rcases hmet with rfl | ⟨v, hv, hu⟩
  · exact .start h
  · exact hv.next hu h

/-- The search so far: nothing unreachable is visited, and what is admitted
and next to a visited element is visited or waits in the queue. -/
structure Frontier (admits : α → Prop) (successors : α → List α) (start : α)
    (visited queue : List α) : Prop where
  nodup : visited.Nodup
  sound : ∀ u ∈ visited, Reachable admits successors start u
  met : ∀ u ∈ queue, Met admits successors start u
  started : admits start → start ∈ visited ∨ start ∈ queue
  closed : ∀ u ∈ visited, ∀ v ∈ successors u, admits v → v ∈ visited ∨ v ∈ queue

namespace Frontier

variable {visited queue rest : List α} {u : α}

theorem initial : Frontier admits successors start [] [start] where
  nodup := List.nodup_nil
  sound := by simp
  met := by simp [Met]
  started _ := Or.inr List.mem_cons_self
  closed := by simp

/-- An element that was visited before or is not admitted is skipped. -/
theorem skip (h : Frontier admits successors start visited (u :: rest))
    (hskip : u ∈ visited ∨ ¬ admits u) : Frontier admits successors start visited rest := by
  have hdrop : ∀ v, admits v → v ∈ visited ∨ v ∈ u :: rest → v ∈ visited ∨ v ∈ rest := by
    rintro v hv (hvisited | hqueue)
    · exact Or.inl hvisited
    · rcases List.mem_cons.mp hqueue with rfl | hrest
      · exact Or.inl (hskip.resolve_right fun hn => hn hv)
      · exact Or.inr hrest
  exact {
    nodup := h.nodup
    sound := h.sound
    met := fun v hv => h.met v (List.mem_cons_of_mem u hv)
    started := fun hstart => hdrop start hstart (h.started hstart)
    closed := fun w hw v hv hadmits => hdrop v hadmits (h.closed w hw v hv hadmits) }

/-- An admitted element is visited. The queue may gain successors of it, and
those it does not gain are not admitted or known already. -/
theorem visit (h : Frontier admits successors start visited (u :: rest)) (hnew : u ∉ visited)
    (hu : admits u) {queue' : List α} (hrest : ∀ v ∈ rest, v ∈ queue')
    (honly : ∀ v ∈ queue', v ∈ rest ∨ v ∈ successors u)
    (hall : ∀ v ∈ successors u, admits v → v ∈ visited ++ [u] ∨ v ∈ queue') :
    Frontier admits successors start (visited ++ [u]) queue' := by
  have hreach : Reachable admits successors start u :=
    (h.met u List.mem_cons_self).reachable hu
  have hkeep : ∀ v, v ∈ visited ∨ v ∈ u :: rest → v ∈ visited ++ [u] ∨ v ∈ queue' := by
    rintro v (hvisited | hqueue)
    · exact Or.inl (List.mem_append_left _ hvisited)
    · rcases List.mem_cons.mp hqueue with rfl | hrest'
      · exact Or.inl (by simp)
      · exact Or.inr (hrest v hrest')
  constructor
  case nodup => exact List.Nodup.append h.nodup (List.nodup_singleton u) (by simpa using hnew)
  case sound =>
    intro v hv
    rcases List.mem_append.mp hv with hvisited | hlast
    · exact h.sound v hvisited
    · rwa [List.mem_singleton.mp hlast]
  case met =>
    intro v hv
    rcases honly v hv with hold | hsucc
    · exact h.met v (List.mem_cons_of_mem u hold)
    · exact Or.inr ⟨u, hreach, hsucc⟩
  case started => exact fun hstart => hkeep start (h.started hstart)
  case closed =>
    intro w hw v hv hadmits
    rcases List.mem_append.mp hw with hvisited | hlast
    · exact hkeep v (h.closed w hvisited v hv hadmits)
    · obtain rfl := List.mem_singleton.mp hlast
      exact hall v hv hadmits

/-- The visited elements are a part of the set. -/
theorem subset (h : Frontier admits successors start visited queue) :
    {u | u ∈ visited} ⊆ {u | Reachable admits successors start u} := h.sound

/-- **Completeness.** Once the queue is empty every reachable element has
been visited. -/
theorem complete (h : Frontier admits successors start visited []) :
    {u | u ∈ visited} = {u | Reachable admits successors start u} := by
  refine Set.Subset.antisymm h.subset fun u hu => ?_
  induction hu with
  | start hstart => exact (h.started hstart).resolve_right List.not_mem_nil
  | next _ hv hadmits ih => exact (h.closed _ ih _ hv hadmits).resolve_right List.not_mem_nil

theorem encard_visited (h : Frontier admits successors start visited queue) :
    {u | u ∈ visited}.encard = visited.length := by
  classical
  have hset : {u | u ∈ visited} = (visited.toFinset : Set α) := by ext; simp
  rw [hset, Set.encard_coe_eq_coe_finsetCard, List.toFinset_card_of_nodup h.nodup]

/-- A search of at most `limit` elements ends with as many of the set as the
limit lets it have. -/
theorem encard_eq_min {limit : Nat} (h : Frontier admits successors start visited queue)
    (hlimit : visited.length ≤ limit) (hend : queue = [] ∨ visited.length = limit) :
    ({u | u ∈ visited}.encard) =
      min (limit : ℕ∞) {u | Reachable admits successors start u}.encard := by
  rcases hend with rfl | hfull
  · have hle : {u | Reachable admits successors start u}.encard ≤ limit := by
      rw [← h.complete, h.encard_visited]
      exact_mod_cast hlimit
    rw [min_eq_right hle, h.complete]
  · have hle : (limit : ℕ∞) ≤ {u | Reachable admits successors start u}.encard := by
      rw [← hfull, ← h.encard_visited]
      exact Set.encard_le_encard h.subset
    rw [min_eq_left hle, h.encard_visited, hfull]

/-- A search whose limit is no smaller than the set finds all of it. -/
theorem eq_of_le {limit : Nat} (h : Frontier admits successors start visited queue)
    (hlimit : visited.length ≤ limit) (hend : queue = [] ∨ visited.length = limit)
    (hle : {u | Reachable admits successors start u}.encard ≤ limit) :
    {u | u ∈ visited} = {u | Reachable admits successors start u} := by
  have hcard := h.encard_eq_min hlimit hend
  rw [min_eq_right hle] at hcard
  exact (List.finite_toSet visited).eq_of_subset_of_encard_le h.subset hcard.ge

end Frontier

end Sentinel.Search
