/-
Sentinel.Index.Unique — a table with unique indexes.

An insert is refused if a row has its key. Whoever inserts, and whatever
they looked up before, keys stay unique, and rows with one key are one row.
-/
import Mathlib.Data.List.Nodup

namespace Sentinel.Index

variable {α κ : Type} {key : α → κ} {row : α} {rows : List α}

/-- No row has the key. -/
def Free (key : α → κ) (k : κ) (rows : List α) : Prop := k ∉ rows.map key

instance [DecidableEq κ] (key : α → κ) (k : κ) (rows : List α) : Decidable (Free key k rows) :=
  inferInstanceAs (Decidable (k ∉ rows.map key))

theorem free_iff {k : κ} : Free key k rows ↔ ∀ r ∈ rows, key r ≠ k := by
  unfold Free
  rw [List.mem_map]
  constructor
  · intro h r hr heq
    exact h ⟨r, hr, heq⟩
  · rintro h ⟨r, hr, heq⟩
    exact h r hr heq

/-- The index of `key` is unique. -/
def Unique (key : α → κ) (rows : List α) : Prop := (rows.map key).Nodup

/-- **A row with a free key can be added.** -/
theorem Unique.concat (h : Unique key rows) (hfree : Free key (key row) rows) :
    Unique key (rows ++ [row]) := by
  unfold Unique
  rw [List.map_append, List.map_singleton]
  refine List.nodup_append.mpr ⟨h, List.nodup_singleton _, ?_⟩
  intro k hk k' hk' heq
  rw [List.mem_singleton.mp hk'] at heq
  exact hfree (heq ▸ hk)

theorem Unique.eq_of_key (h : Unique key rows) {r r' : α} (hr : r ∈ rows) (hr' : r' ∈ rows)
    (heq : key r = key r') : r = r' := List.inj_on_of_nodup_map h hr hr' heq

end Sentinel.Index
