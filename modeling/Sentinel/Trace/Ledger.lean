/-
Sentinel.Trace.Ledger — traces whose running balance never goes negative.

A weight says what an event adds to an account. A trace is solvent when
the balance is nonnegative after each of its prefixes. Solvent traces
compose; that is the whole library.
-/
import Mathlib.Algebra.Order.BigOperators.Group.List
import Mathlib.Data.List.Infix

namespace Sentinel.Trace

variable {α β M : Type*} [AddCommMonoid M] [PartialOrder M] [IsOrderedAddMonoid M]

/-- The balance a trace leaves. -/
def balance (w : α → M) (trace : List α) : M := (trace.map w).sum

/-- The balance is nonnegative at every moment of the trace. -/
def Solvent (w : α → M) (trace : List α) : Prop := ∀ p, p <+: trace → 0 ≤ balance w p

omit [PartialOrder M] [IsOrderedAddMonoid M] in
@[simp] theorem balance_append (w : α → M) (xs ys : List α) :
    balance w (xs ++ ys) = balance w xs + balance w ys := by simp [balance]

omit [PartialOrder M] [IsOrderedAddMonoid M] in
theorem balance_flatMap (w : α → M) (f : β → List α) (xs : List β) :
    balance w (xs.flatMap f) = balance (fun x => balance w (f x)) xs := by
  induction xs with
  | nil => rfl
  | cons x rest ih => rw [List.flatMap_cons, balance_append, ih]; rfl

theorem balance_nonpos {w : α → M} {trace : List α} (h : ∀ x ∈ trace, w x ≤ 0) :
    balance w trace ≤ 0 := by
  induction trace with
  | nil => exact le_rfl
  | cons x rest ih =>
    exact add_nonpos (h x List.mem_cons_self) (ih fun y hy => h y (List.mem_cons_of_mem x hy))

/-- Events that never gain and leave a nonnegative balance all weigh nothing. -/
theorem weight_eq_zero_of_balance_nonneg {w : α → M} {trace : List α}
    (h : ∀ x ∈ trace, w x ≤ 0) (hbalance : 0 ≤ balance w trace) : ∀ x ∈ trace, w x = 0 := by
  induction trace with
  | nil => simp
  | cons x rest ih =>
    have hx : w x ≤ 0 := h x List.mem_cons_self
    have hrest : ∀ y ∈ rest, w y ≤ 0 := fun y hy => h y (List.mem_cons_of_mem x hy)
    have hsum : 0 ≤ w x + balance w rest := hbalance
    intro y hy
    rcases List.mem_cons.mp hy with rfl | hy
    · exact le_antisymm hx (hsum.trans (add_le_of_nonpos_right (balance_nonpos hrest)))
    · exact ih hrest (hsum.trans (add_le_of_nonpos_left hx)) y hy

omit [IsOrderedAddMonoid M] in
theorem Solvent.nil (w : α → M) : Solvent w [] := by
  intro p hp
  rw [List.prefix_nil.mp hp]
  exact le_rfl

omit [IsOrderedAddMonoid M] in
theorem Solvent.balance_nonneg {w : α → M} {trace : List α} (h : Solvent w trace) :
    0 ≤ balance w trace := h trace (List.prefix_refl trace)

/-- A solvent trace stays solvent when a solvent trace follows. -/
theorem Solvent.append {w : α → M} {xs ys : List α} (hx : Solvent w xs) (hy : Solvent w ys) :
    Solvent w (xs ++ ys) := by
  rintro p ⟨rest, heq⟩
  rcases List.append_eq_append_iff.mp heq with ⟨q, hp, _⟩ | ⟨q, rfl, hq⟩
  · exact hx p ⟨q, hp.symm⟩
  · rw [balance_append]
    exact add_nonneg hx.balance_nonneg (hy q ⟨rest, hq.symm⟩)

/-- Solvent pieces one after another are solvent. -/
theorem Solvent.flatMap {w : α → M} {f : β → List α} {xs : List β}
    (h : ∀ x ∈ xs, Solvent w (f x)) : Solvent w (xs.flatMap f) := by
  induction xs with
  | nil => exact Solvent.nil w
  | cons x rest ih =>
    rw [List.flatMap_cons]
    exact (h x (by simp)).append (ih fun y hy => h y (List.mem_cons_of_mem x hy))

end Sentinel.Trace
