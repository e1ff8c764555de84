/-
Sentinel.Delimited.Parts — a text rewritten part by part.

A text is cut at a delimiter, every part is rewritten, and the parts are
written one after another again. As long as no rewriting brings the
delimiter in, the parts of the new text are the rewritten ones
(`splitOn_mapParts`): two texts have the same image exactly if their parts
do, one by one (`mapParts_eq_iff`). Where the rewriting puts one part in the
place of a whole class, that says which texts fall together
(`collapse_eq_iff`).
-/
import Sentinel.Delimited.Join

namespace Sentinel.Delimited

variable {α : Type*}

/-! ## Parts -/

section

variable [DecidableEq α]

/-- The delimiter is in no part. -/
theorem not_mem_of_mem_splitOn {c : α} {part text : List α} (h : part ∈ text.splitOn c) :
    c ∉ part := by
  induction text generalizing part with
  | nil =>
    rw [List.splitOn_nil, List.mem_singleton] at h
    rw [h]
    exact List.not_mem_nil
  | cons x rest ih =>
    rw [List.splitOn_cons_eq_if_modifyHead] at h
    split at h
    · rcases List.mem_cons.mp h with rfl | hrest
      · exact List.not_mem_nil
      · exact ih hrest
    · next hne =>
      obtain ⟨first, others, hsplit⟩ := List.exists_cons_of_ne_nil (List.splitOn_ne_nil c rest)
      rw [hsplit, List.modifyHead_cons] at h
      rcases List.mem_cons.mp h with rfl | hothers
      · have hfirst : c ∉ first := ih (hsplit ▸ List.mem_cons_self)
        intro hmem
        rcases List.mem_cons.mp hmem with rfl | hmem
        · exact hne (beq_self_eq_true c)
        · exact hfirst hmem
      · exact ih (hsplit ▸ List.mem_cons_of_mem first hothers)

/-- Rewrite every part of a text. -/
def mapParts (c : α) (f : List α → List α) (text : List α) : List α :=
  join c ((text.splitOn c).map f)

variable {c : α} {f : List α → List α}

/-- **The parts of the new text** are the rewritten parts of the old one. -/
theorem splitOn_mapParts (hf : ∀ part, c ∉ part → c ∉ f part) (text : List α) :
    (mapParts c f text).splitOn c = (text.splitOn c).map f := by
  have hfree : ∀ part ∈ (text.splitOn c).map f, c ∉ part := by
    intro part hpart
    obtain ⟨old, hold, rfl⟩ := List.mem_map.mp hpart
    exact hf old (not_mem_of_mem_splitOn hold)
  have hne : (text.splitOn c).map f ≠ [] := by
    intro h
    exact List.splitOn_ne_nil c text (List.map_eq_nil_iff.mp h)
  exact List.splitOn_intercalate c hfree hne

/-- Texts have the same image if their parts have. -/
theorem mapParts_eq_iff (hf : ∀ part, c ∉ part → c ∉ f part) {s t : List α} :
    mapParts c f s = mapParts c f t ↔ (s.splitOn c).map f = (t.splitOn c).map f := by
  constructor
  · intro h
    rw [← splitOn_mapParts hf, h, splitOn_mapParts hf]
  · intro h
    rw [mapParts, h, mapParts]

theorem mapParts_idem (hf : ∀ part, c ∉ part → c ∉ f part) (hidem : ∀ part, f (f part) = f part)
    (text : List α) : mapParts c f (mapParts c f text) = mapParts c f text := by
  rw [mapParts_eq_iff hf, splitOn_mapParts hf, List.map_map]
  exact List.map_congr_left fun part _ => hidem part

end

/-! ## One part for a class -/

/-- One value stands for all that `p` accepts. -/
def collapse (p : α → Bool) (stand : α) (x : α) : α := if p x then stand else x

variable {p : α → Bool} {stand : α}

theorem collapse_of_pos {x : α} (h : p x = true) : collapse p stand x = stand := if_pos h

theorem collapse_of_neg {x : α} (h : p x = false) : collapse p stand x = x := by
  rw [collapse, h, if_neg Bool.false_ne_true]

/-- Values other than the one that stands for the class fall together only
within it. -/
theorem collapse_eq_iff {x y : α} (hx : x ≠ stand) (hy : y ≠ stand) :
    collapse p stand x = collapse p stand y ↔ x = y ∨ p x = true ∧ p y = true := by
  cases hpx : p x with
  | true =>
    cases hpy : p y with
    | true => simp [collapse, hpx, hpy]
    | false =>
      rw [collapse_of_pos hpx, collapse_of_neg hpy]
      constructor
      · intro h
        exact absurd h.symm hy
      · rintro (rfl | ⟨-, h⟩)
        · simp [hpx] at hpy
        · cases h
  | false =>
    rw [collapse_of_neg hpx]
    cases hpy : p y with
    | true =>
      rw [collapse_of_pos hpy]
      constructor
      · intro h
        exact absurd h hx
      · rintro (rfl | ⟨h, -⟩)
        · simp [hpx] at hpy
        · cases h
    | false => simp [collapse_of_neg hpy]

/-- The value that stands for a class is left alone if it is not in it. -/
theorem collapse_idem (hstand : p stand = false) (x : α) :
    collapse p stand (collapse p stand x) = collapse p stand x := by
  cases hp : p x with
  | true => rw [collapse_of_pos hp, collapse_of_neg hstand]
  | false => rw [collapse_of_neg hp, collapse_of_neg hp]

end Sentinel.Delimited
