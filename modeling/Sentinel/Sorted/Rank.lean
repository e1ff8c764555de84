/-
Sentinel.Sorted.Rank — the first places of a sorted list.

Which values a cut leaves depends on their rank alone: how many values of
the list come before them. The rank does not look at how the list is
arranged, so it can be counted before anything is sorted.
-/
import Mathlib.Data.List.Basic
import Mathlib.Data.List.Count

namespace Sentinel.Sorted

variable {α : Type*} (lt : α → α → Prop) [DecidableRel lt]

/-- How many values come before this one. -/
def rank (xs : List α) (a : α) : Nat := xs.countP fun x => lt x a

variable {lt}

theorem rank_perm {xs ys : List α} (h : xs.Perm ys) (a : α) : rank lt xs a = rank lt ys a :=
  h.countP_eq _

/-- The first value of a sorted list has none before it. -/
theorem rank_eq_zero (hasymm : ∀ x y, lt x y → ¬ lt y x) {a : α} {rest : List α}
    (hsorted : (a :: rest).Pairwise lt) : rank lt (a :: rest) a = 0 := by
  obtain ⟨hfirst, -⟩ := List.pairwise_cons.mp hsorted
  rw [rank, List.countP_eq_zero]
  intro x hx
  rcases List.mem_cons.mp hx with rfl | hx
  · simpa using fun h => hasymm x x h h
  · simpa using hasymm a x (hfirst x hx)

/-- **The first `n` places go to the values of rank below `n`.** -/
theorem mem_take_iff (hasymm : ∀ x y, lt x y → ¬ lt y x) {xs : List α} {a : α}
    (hsorted : xs.Pairwise lt) (ha : a ∈ xs) (n : Nat) :
    a ∈ xs.take n ↔ rank lt xs a < n := by
  induction xs generalizing n with
  | nil => cases ha
  | cons x rest ih =>
    obtain ⟨hfirst, hrest⟩ := List.pairwise_cons.mp hsorted
    have hirrefl : ¬ lt a a := fun h => hasymm a a h h
    cases n with
    | zero => simp
    | succ n =>
      rcases List.mem_cons.mp ha with rfl | hmem
      · simp [rank_eq_zero hasymm hsorted]
      · have hbefore : lt x a := hfirst a hmem
        have hne : a ≠ x := by
          intro h
          subst h
          exact hirrefl hbefore
        have hrank : rank lt (x :: rest) a = rank lt rest a + 1 := by
          simp [rank, hbefore]
        rw [hrank, List.take_succ_cons, List.mem_cons, or_iff_right hne, ih hrest hmem]
        omega

end Sentinel.Sorted
