/-
Sentinel.Py.Except — running code that may raise, taken apart.

A sequence that came to an end is its first part that came to an end and
the rest; a loop over a list that came to an end did so at every element.
-/
import Mathlib.Data.List.Forall2

namespace Sentinel.Py

universe u v w

variable {ε : Type u} {α : Type v} {β : Type v}

theorem bind_eq_ok {x : Except ε α} {f : α → Except ε β} {b : β} :
    x >>= f = .ok b ↔ ∃ a, x = .ok a ∧ f a = .ok b := by
  cases x with
  | error e => simp [bind, Except.bind]
  | ok a => simp [bind, Except.bind]

theorem map_eq_ok {x : Except ε α} {f : α → β} {b : β} :
    f <$> x = .ok b ↔ ∃ a, x = .ok a ∧ f a = b := by
  cases x with
  | error e => simp [Functor.map, Except.map]
  | ok a => simp [Functor.map, Except.map]

theorem mapError_eq_ok {ε' : Type} {x : Except ε α} {f : ε → ε'} {a : α} :
    x.mapError f = .ok a ↔ x = .ok a := by
  cases x with
  | ok b => exact ⟨fun h => congrArg _ (Except.ok.inj h), fun h => congrArg _ (Except.ok.inj h)⟩
  | error e => exact ⟨fun h => (nomatch h), fun h => (nomatch h)⟩

theorem mapM_eq_ok {f : α → Except ε β} {xs : List α} {ys : List β} :
    xs.mapM f = .ok ys ↔ List.Forall₂ (fun x y => f x = .ok y) xs ys := by
  induction xs generalizing ys with
  | nil => simp [pure, Except.pure, eq_comm]
  | cons x xs ih =>
    rw [List.mapM_cons, bind_eq_ok, List.forall₂_cons_left_iff]
    constructor
    · rintro ⟨y, hy, hrest⟩
      obtain ⟨ys', hys, heq⟩ := bind_eq_ok.mp hrest
      exact ⟨y, ys', hy, ih.mp hys, (Except.ok.inj heq).symm⟩
    · rintro ⟨y, ys', hy, hys, rfl⟩
      exact ⟨y, hy, bind_eq_ok.mpr ⟨ys', ih.mpr hys, rfl⟩⟩

/-- A loop none of whose rounds raises. -/
theorem mapM_ok {f : α → Except ε β} {xs : List α} (h : ∀ x ∈ xs, ∃ y, f x = .ok y) :
    ∃ ys, xs.mapM f = .ok ys := by
  induction xs with
  | nil => exact ⟨[], rfl⟩
  | cons x xs ih =>
    obtain ⟨y, hy⟩ := h x List.mem_cons_self
    obtain ⟨ys, hys⟩ := ih fun x' hx' => h x' (List.mem_cons_of_mem x hx')
    exact ⟨y :: ys, mapM_eq_ok.mpr (.cons hy (mapM_eq_ok.mp hys))⟩

/-- A loop comes back exactly if every round does. -/
theorem mapM_returns_iff {f : α → Except ε β} {xs : List α} :
    (∃ ys, xs.mapM f = .ok ys) ↔ ∀ x ∈ xs, ∃ y, f x = .ok y := by
  refine ⟨?_, mapM_ok⟩
  rintro ⟨ys, hys⟩
  induction mapM_eq_ok.mp hys with
  | nil => exact fun x hx => (nomatch hx)
  | @cons x y xs ys hxy hrest ih =>
    intro z hz
    rcases List.mem_cons.mp hz with rfl | hz
    · exact ⟨y, hxy⟩
    · exact ih (mapM_eq_ok.mpr hrest) z hz

/-- What a loop that came to an end has made of its elements. -/
theorem mem_of_mapM {f : α → Except ε β} {xs : List α} {ys : List β} (h : xs.mapM f = .ok ys)
    (y : β) : y ∈ ys ↔ ∃ x ∈ xs, f x = .ok y := by
  induction mapM_eq_ok.mp h with
  | nil => simp
  | @cons x y' xs ys hx hrest ih =>
    have hys : y ∈ ys ↔ ∃ x ∈ xs, f x = .ok y := ih (mapM_eq_ok.mpr hrest)
    rw [List.mem_cons, hys, List.exists_mem_cons_iff, hx]
    simp [eq_comm]

end Sentinel.Py
