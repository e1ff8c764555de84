/-
Sentinel.Py.Labels — separator-joined label lists and their suffixes.

A host name is a list of labels joined by dots, but code that compares
host names works on characters. These lemmas carry a character-level
suffix back to a suffix of the label lists, for any separator that no
label contains.
-/
import Mathlib.Data.List.Basic

namespace Sentinel.Py

variable {α : Type}

/-- The labels `ls` joined by the separator `c`. -/
def joinLabels (c : α) (ls : List (List α)) : List α := [c].intercalate ls

/-- No label contains the separator. -/
def LabelsFree (c : α) (ls : List (List α)) : Prop := ∀ l ∈ ls, c ∉ l

@[simp] theorem joinLabels_singleton (c : α) (l : List α) : joinLabels c [l] = l := by
  simp [joinLabels, List.intercalate]

theorem joinLabels_cons (c : α) (l : List α) {ls : List (List α)} (h : ls ≠ []) :
    joinLabels c (l :: ls) = l ++ c :: joinLabels c ls := by
  cases ls with
  | nil => exact absurd rfl h
  | cons m ms => simp [joinLabels, List.intercalate]

theorem joinLabels_append (c : α) {as bs : List (List α)} (ha : as ≠ []) (hb : bs ≠ []) :
    joinLabels c (as ++ bs) = joinLabels c as ++ c :: joinLabels c bs := by
  induction as with
  | nil => exact absurd rfl ha
  | cons a as ih =>
    cases as with
    | nil => simp [joinLabels_cons c a hb]
    | cons a' as' =>
      rw [List.cons_append, joinLabels_cons c a (by simp), ih (by simp),
        joinLabels_cons c a (by simp), List.append_assoc, List.cons_append]

theorem mem_joinLabels {c x : α} {ls : List (List α)} (h : x ∈ joinLabels c ls) :
    x = c ∨ ∃ l ∈ ls, x ∈ l := by
  induction ls with
  | nil => simp [joinLabels] at h
  | cons l ls ih =>
    cases ls with
    | nil => exact Or.inr ⟨l, by simp, by simpa using h⟩
    | cons m ms =>
      rw [joinLabels_cons c l (by simp), List.mem_append, List.mem_cons] at h
      rcases h with h | h | h
      · exact Or.inr ⟨l, by simp, h⟩
      · exact Or.inl h
      · exact (ih h).imp_right fun ⟨l', hl', hx⟩ => ⟨l', List.mem_cons_of_mem _ hl', hx⟩

/-- A joined list whose first label is non-empty and separator-free does
not start with the separator. -/
theorem joinLabels_head_ne {c : α} {ls : List (List α)} (hf : LabelsFree c ls)
    (hne : ∀ l ∈ ls, l ≠ []) (hls : ls ≠ []) :
    ∃ a rest, joinLabels c ls = a :: rest ∧ a ≠ c := by
  obtain ⟨l, ls, rfl⟩ := List.exists_cons_of_ne_nil hls
  obtain ⟨a, l, rfl⟩ := List.exists_cons_of_ne_nil (hne l (by simp))
  have ha : a ≠ c := fun h => hf (a :: l) (by simp) (by simp [h])
  cases ls with
  | nil => exact ⟨a, l, by simp, ha⟩
  | cons m ms => exact ⟨a, _, by rw [joinLabels_cons c _ (by simp), List.cons_append], ha⟩

/-- A joined list whose last label is non-empty and separator-free does
not end in the separator. -/
theorem joinLabels_getLast_ne {c : α} {ls : List (List α)} (hf : LabelsFree c ls)
    (hne : ∀ l ∈ ls, l ≠ []) (hls : ls ≠ []) :
    ∃ (h : joinLabels c ls ≠ []), (joinLabels c ls).getLast h ≠ c := by
  induction ls with
  | nil => exact absurd rfl hls
  | cons l ls ih =>
    cases ls with
    | nil =>
      have hl : l ≠ [] := hne l (by simp)
      refine ⟨by simpa using hl, fun heq => hf l (by simp) ?_⟩
      have hmem := List.getLast_mem hl
      simp only [joinLabels_singleton] at heq
      rwa [heq] at hmem
    | cons m ms =>
      obtain ⟨h, hlast⟩ := ih (fun x hx => hf x (List.mem_cons_of_mem _ hx))
        (fun x hx => hne x (List.mem_cons_of_mem _ hx)) (by simp)
      rw [joinLabels_cons c l (by simp)]
      refine ⟨by simp, ?_⟩
      rw [List.getLast_append_of_ne_nil _ (by simp), List.getLast_cons h]
      exact hlast

variable [DecidableEq α]

/-- Splitting a joined list gives the labels back. -/
theorem splitOn_joinLabels {c : α} {ls : List (List α)} (hf : LabelsFree c ls) (hne : ls ≠ []) :
    (joinLabels c ls).splitOn c = ls :=
  List.splitOn_intercalate c hf hne

/-- Joining separator-free label lists is injective. -/
theorem joinLabels_inj {c : α} {as bs : List (List α)} (ha : LabelsFree c as) (hb : LabelsFree c bs)
    (hane : as ≠ []) (hbne : bs ≠ []) (h : joinLabels c as = joinLabels c bs) : as = bs := by
  rw [← splitOn_joinLabels ha hane, h, splitOn_joinLabels hb hbne]

/-- A separator followed by joined labels is a character suffix exactly
when the labels are a proper suffix of the label list. -/
theorem sep_joinLabels_suffix_iff {c : α} {rs hs : List (List α)} (hr : LabelsFree c rs)
    (hh : LabelsFree c hs) (hrne : rs ≠ []) (hhne : hs ≠ []) :
    (c :: joinLabels c rs) <:+ joinLabels c hs ↔ ∃ pre, pre ≠ [] ∧ hs = pre ++ rs := by
  constructor
  · rintro ⟨front, hfront⟩
    refine ⟨front.splitOn c, List.splitOn_ne_nil _ _, ?_⟩
    rw [← splitOn_joinLabels hh hhne, ← hfront, List.splitOn_append_cons_self,
      splitOn_joinLabels hr hrne]
  · rintro ⟨pre, hpre, rfl⟩
    exact ⟨joinLabels c pre, (joinLabels_append c hpre hrne).symm⟩

end Sentinel.Py
