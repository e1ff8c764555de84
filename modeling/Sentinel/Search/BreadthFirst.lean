/-
Sentinel.Search.BreadthFirst — searching a graph level by level.

A queue that is taken from in front and added to behind holds two levels at
most: what is left of one, and behind it the successors of what was visited
of it (`Layered`). So elements are visited in the order of their distance
from the start, and wherever the search is stopped, nothing it has left out
is nearer than anything it has visited (`InLayers.nearest`).
-/
import Sentinel.Search.Worklist

namespace Sentinel.Search

universe u

variable {α : Type u} {admits : α → Prop} {successors : α → List α} {start : α}

/-- Reachable in this many steps. -/
inductive Steps (admits : α → Prop) (successors : α → List α) (start : α) : ℕ → α → Prop
  | start (h : admits start) : Steps admits successors start 0 start
  | next {n : ℕ} {u v : α} (hu : Steps admits successors start n u) (hv : v ∈ successors u)
      (h : admits v) : Steps admits successors start (n + 1) v

theorem reachable_iff_steps {u : α} :
    Reachable admits successors start u ↔ ∃ n, Steps admits successors start n u := by
  constructor
  · intro h
    induction h with
    | start h => exact ⟨0, .start h⟩
    | next _ hv h ih =>
      obtain ⟨n, hn⟩ := ih
      exact ⟨n + 1, hn.next hv h⟩
  · rintro ⟨n, hn⟩
    induction hn with
    | start h => exact .start h
    | next _ hv h ih => exact ih.next hv h

/-- Looked at after this many steps. -/
inductive MetAt (admits : α → Prop) (successors : α → List α) (start : α) : ℕ → α → Prop
  | start : MetAt admits successors start 0 start
  | next {n : ℕ} {u v : α} (hu : Steps admits successors start n u) (hv : v ∈ successors u) :
      MetAt admits successors start (n + 1) v

theorem MetAt.steps {n : ℕ} {u : α} (hmet : MetAt admits successors start n u) (h : admits u) :
    Steps admits successors start n u := by
  cases hmet with
  | start => exact .start h
  | next hu hv => exact hu.next hv h

/-- The one is not further from the start than the other. -/
def NotFurther (admits : α → Prop) (successors : α → List α) (start u v : α) : Prop :=
  ∀ n, Steps admits successors start n v → ∃ m ≤ n, Steps admits successors start m u

/-- The search at level `d`: nearer elements are visited, those of the level
visited or in `here`, and `next` has successors of the level. -/
structure Layered (admits : α → Prop) (successors : α → List α) (start : α) (visited : List α)
    (d : ℕ) (here next : List α) : Prop where
  near : ∀ n u, n < d → Steps admits successors start n u → u ∈ visited
  level : ∀ u, Steps admits successors start d u → u ∈ visited ∨ u ∈ here
  depth : ∀ u ∈ visited, ∃ n ≤ d, Steps admits successors start n u
  metHere : ∀ u ∈ here, MetAt admits successors start d u
  metNext : ∀ u ∈ next, MetAt admits successors start (d + 1) u
  closed : ∀ u ∈ visited, ∀ v ∈ successors u, admits v → v ∈ visited ∨ v ∈ here ∨ v ∈ next
  sorted : visited.Pairwise (NotFurther admits successors start)

namespace Layered

variable {visited here next : List α} {d : ℕ} {u : α}

theorem initial : Layered admits successors start [] 0 [start] [] where
  near n u hn := absurd hn (Nat.not_lt_zero n)
  level u hu := by
    cases hu with
    | start h => exact .inr List.mem_cons_self
  depth u hu := absurd hu List.not_mem_nil
  metHere u hu := by
    rw [List.mem_singleton.mp hu]
    exact .start
  metNext u hu := absurd hu List.not_mem_nil
  closed u hu := absurd hu List.not_mem_nil
  sorted := .nil

/-- A level is done, and the next one begins. -/
theorem descend (h : Layered admits successors start visited d [] next) :
    Layered admits successors start visited (d + 1) next [] where
  near n u hn hu := by
    rcases Nat.lt_succ_iff_lt_or_eq.mp hn with hlt | rfl
    · exact h.near n u hlt hu
    · exact (h.level u hu).resolve_right List.not_mem_nil
  level v hv := by
    cases hv with
    | next hu hv hadmits =>
      have hparent := (h.level _ hu).resolve_right List.not_mem_nil
      rcases h.closed _ hparent v hv hadmits with hvisited | hnil | hnext
      · exact .inl hvisited
      · exact absurd hnil List.not_mem_nil
      · exact .inr hnext
  depth u hu := by
    obtain ⟨n, hn, hsteps⟩ := h.depth u hu
    exact ⟨n, Nat.le_succ_of_le hn, hsteps⟩
  metHere := h.metNext
  metNext u hu := absurd hu List.not_mem_nil
  closed u hu v hv hadmits := by
    rcases h.closed u hu v hv hadmits with hvisited | hnil | hnext
    · exact .inl hvisited
    · exact absurd hnil List.not_mem_nil
    · exact .inr (.inl hnext)
  sorted := h.sorted

theorem skip (h : Layered admits successors start visited d (u :: here) next)
    (hskip : u ∈ visited ∨ ¬ admits u) : Layered admits successors start visited d here next where
  near := h.near
  level v hv := by
    rcases h.level v hv with hvisited | hhere
    · exact .inl hvisited
    · rcases List.mem_cons.mp hhere with rfl | hhere
      · refine .inl (hskip.resolve_right fun hnot => hnot ?_)
        cases hv with
        | start hadmits => exact hadmits
        | next _ _ hadmits => exact hadmits
      · exact .inr hhere
  depth := h.depth
  metHere v hv := h.metHere v (List.mem_cons_of_mem u hv)
  metNext := h.metNext
  closed w hw v hv hadmits := by
    rcases h.closed w hw v hv hadmits with hvisited | hhere | hnext
    · exact .inl hvisited
    · rcases List.mem_cons.mp hhere with rfl | hhere
      · exact .inl (hskip.resolve_right fun hnot => hnot hadmits)
      · exact .inr (.inl hhere)
    · exact .inr (.inr hnext)
  sorted := h.sorted

theorem visit (h : Layered admits successors start visited d (u :: here) next) (hnew : u ∉ visited)
    (hu : admits u) {added : List α} (honly : ∀ v ∈ added, v ∈ successors u)
    (hall : ∀ v ∈ successors u, admits v → v ∈ visited ++ [u] ∨ v ∈ here ++ (next ++ added)) :
    Layered admits successors start (visited ++ [u]) d here (next ++ added) := by
  have hsteps : Steps admits successors start d u := (h.metHere u List.mem_cons_self).steps hu
  have hlast : u ∈ visited ++ [u] := List.mem_append_right _ (List.mem_singleton_self u)
  constructor
  case near => exact fun n v hn hv => List.mem_append_left _ (h.near n v hn hv)
  case level =>
    intro v hv
    rcases h.level v hv with hvisited | hhere
    · exact .inl (List.mem_append_left _ hvisited)
    · rcases List.mem_cons.mp hhere with rfl | hhere
      · exact .inl hlast
      · exact .inr hhere
  case depth =>
    intro v hv
    rcases List.mem_append.mp hv with hvisited | hv
    · exact h.depth v hvisited
    · rw [List.mem_singleton.mp hv]
      exact ⟨d, le_rfl, hsteps⟩
  case metHere => exact fun v hv => h.metHere v (List.mem_cons_of_mem u hv)
  case metNext =>
    intro v hv
    rcases List.mem_append.mp hv with hv | hv
    · exact h.metNext v hv
    · exact .next hsteps (honly v hv)
  case closed =>
    intro w hw v hv hadmits
    rcases List.mem_append.mp hw with hw | hw
    · rcases h.closed w hw v hv hadmits with hvisited | hhere | hnext
      · exact .inl (List.mem_append_left _ hvisited)
      · rcases List.mem_cons.mp hhere with rfl | hhere
        · exact .inl hlast
        · exact .inr (.inl hhere)
      · exact .inr (.inr (List.mem_append_left _ hnext))
    · rw [List.mem_singleton.mp hw] at hv
      exact (hall v hv hadmits).imp_right List.mem_append.mp
  case sorted =>
    refine List.pairwise_append.mpr ⟨h.sorted, List.pairwise_singleton _ _, ?_⟩
    intro w hw v hv n hn
    rw [List.mem_singleton.mp hv] at hn
    -- it was not visited before, so it is not nearer than the level
    have hle : d ≤ n := Nat.le_of_not_lt fun hlt => hnew (h.near n u hlt hn)
    obtain ⟨m, hm, hsteps⟩ := h.depth w hw
    exact ⟨m, hm.trans hle, hsteps⟩

/-- What is not visited is not nearer than the level. -/
theorem nearest (h : Layered admits successors start visited d here next) (hu : u ∈ visited)
    {v : α} (hv : v ∉ visited) : NotFurther admits successors start u v := by
  intro n hn
  have hle : d ≤ n := Nat.le_of_not_lt fun hlt => hv (h.near n v hlt hn)
  obtain ⟨m, hm, hsteps⟩ := h.depth u hu
  exact ⟨m, hm.trans hle, hsteps⟩

end Layered

/-- The queue is what is left of one level, and behind it of the next. -/
def InLayers (admits : α → Prop) (successors : α → List α) (start : α)
    (visited queue : List α) : Prop :=
  ∃ d here next, queue = here ++ next ∧ Layered admits successors start visited d here next

namespace InLayers

variable {visited rest queue : List α} {u : α}

theorem initial : InLayers admits successors start [] [start] := ⟨0, [start], [], rfl, .initial⟩

/-- The head of the queue is on the level. -/
theorem head (h : InLayers admits successors start visited (u :: rest)) :
    ∃ d here next, rest = here ++ next ∧
      Layered admits successors start visited d (u :: here) next := by
  obtain ⟨d, here, next, hqueue, hlayered⟩ := h
  cases here with
  | nil =>
    have hnext : next = u :: rest := hqueue.symm
    rw [hnext] at hlayered
    exact ⟨d + 1, rest, [], (List.append_nil rest).symm, hlayered.descend⟩
  | cons w here =>
    obtain ⟨rfl, hrest⟩ := List.cons.inj hqueue
    exact ⟨d, here, next, hrest, hlayered⟩

theorem skip (h : InLayers admits successors start visited (u :: rest))
    (hskip : u ∈ visited ∨ ¬ admits u) : InLayers admits successors start visited rest := by
  obtain ⟨d, here, next, hrest, hlayered⟩ := h.head
  exact ⟨d, here, next, hrest, hlayered.skip hskip⟩

/-- An admitted element is visited, and some of its successors are put
behind the queue. -/
theorem visit (h : InLayers admits successors start visited (u :: rest)) (hnew : u ∉ visited)
    (hu : admits u) {added : List α} (honly : ∀ v ∈ added, v ∈ successors u)
    (hall : ∀ v ∈ successors u, admits v → v ∈ visited ++ [u] ∨ v ∈ rest ++ added) :
    InLayers admits successors start (visited ++ [u]) (rest ++ added) := by
  obtain ⟨d, here, next, rfl, hlayered⟩ := h.head
  rw [List.append_assoc] at hall ⊢
  exact ⟨d, here, next ++ added, rfl, hlayered.visit hnew hu honly hall⟩

/-- **In the order of the distance.** -/
theorem sorted (h : InLayers admits successors start visited queue) :
    visited.Pairwise (NotFurther admits successors start) := by
  obtain ⟨d, here, next, -, hlayered⟩ := h
  exact hlayered.sorted

/-- **Nothing left out is nearer.** -/
theorem nearest (h : InLayers admits successors start visited queue) (hu : u ∈ visited) {v : α}
    (hv : v ∉ visited) : NotFurther admits successors start u v := by
  obtain ⟨d, here, next, -, hlayered⟩ := h
  exact hlayered.nearest hu hv

end InLayers

end Sentinel.Search
