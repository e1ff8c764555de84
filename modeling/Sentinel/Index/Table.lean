/-
Sentinel.Index.Table — rows that a key identifies.

`upsert` is find-or-create: it changes the row of a key where there is one
and appends one where there is none. On a table whose keys are unique it
keeps them unique, and looking up any key afterwards is told by looking it
up before.
-/
import Mathlib.Data.List.Nodup
import Mathlib.Data.List.Perm.Basic

namespace Sentinel.Index

universe u v

variable {α : Type u} {κ : Type v} [DecidableEq κ] (k : α → κ)

/-- The row of a key. -/
def lookup (rows : List α) (key : κ) : Option α := rows.find? fun row => decide (k row = key)

/-- The place of the row of a key. -/
def place (rows : List α) (key : κ) : Option Nat := rows.findIdx? fun row => decide (k row = key)

/-- Change the row of the key, or add one. -/
def upsert (rows : List α) (key : κ) (new : α) (change : α → α) : List α :=
  match place k rows key with
  | none => rows ++ [new]
  | some i => rows.modify i change

variable {k} {rows : List α} {key : κ} {new : α} {change : α → α}

theorem place_eq_none_iff : place k rows key = none ↔ ∀ row ∈ rows, k row ≠ key := by
  simp [place, List.findIdx?_eq_none_iff]

theorem lookup_eq_none_iff : lookup k rows key = none ↔ ∀ row ∈ rows, k row ≠ key := by
  simp [lookup]

theorem of_lookup_eq_some {row : α} (h : lookup k rows key = some row) : row ∈ rows ∧ k row = key := by
  unfold lookup at h
  exact ⟨List.mem_of_find?_eq_some h, by simpa using List.find?_some h⟩

/-- Where the keys are unique, the row is the one that has the key. -/
theorem lookup_eq_some_iff (hunique : (rows.map k).Nodup) {row : α} :
    lookup k rows key = some row ↔ row ∈ rows ∧ k row = key := by
  constructor
  · exact of_lookup_eq_some
  · rintro ⟨hrow, rfl⟩
    cases hfound : lookup k rows (k row) with
    | none => exact absurd rfl (lookup_eq_none_iff.mp hfound row hrow)
    | some row' =>
      obtain ⟨hrow', hkey⟩ := of_lookup_eq_some hfound
      rw [List.inj_on_of_nodup_map hunique hrow' hrow hkey]

theorem place_eq_some_iff (hunique : (rows.map k).Nodup) {i : Nat} :
    place k rows key = some i ↔ ∃ row, rows[i]? = some row ∧ k row = key := by
  unfold place
  rw [List.findIdx?_eq_some_iff_getElem]
  constructor
  · rintro ⟨hi, hkey, -⟩
    exact ⟨rows[i], List.getElem?_eq_getElem hi, of_decide_eq_true hkey⟩
  · rintro ⟨row, hrow, rfl⟩
    obtain ⟨hi, rfl⟩ := List.getElem?_eq_some_iff.mp hrow
    refine ⟨hi, decide_eq_true rfl, fun j hj => ?_⟩
    -- an earlier row of the same key would be the same row
    have hj' : j < (rows.map k).length := by
      rw [List.length_map]
      exact Nat.lt_trans hj hi
    have hi' : i < (rows.map k).length := by rwa [List.length_map]
    have hne : (rows.map k)[j] ≠ (rows.map k)[i] := fun heq =>
      Nat.ne_of_lt hj ((List.Nodup.getElem_inj_iff hunique).mp heq)
    simpa using hne

/-- All places of a key, as a query finds them: at most the one. -/
theorem filter_range_eq (hunique : (rows.map k).Nodup) :
    ((List.range rows.length).filter fun i => rows[i]?.any fun row => decide (k row = key)) =
      (place k rows key).toList := by
  have hmem : ∀ i, i ∈ ((List.range rows.length).filter fun i =>
      rows[i]?.any fun row => decide (k row = key)) ↔ place k rows key = some i := by
    intro i
    rw [place_eq_some_iff hunique, List.mem_filter, List.mem_range, Option.any_eq_true]
    constructor
    · rintro ⟨-, row, hrow, hkey⟩
      exact ⟨row, hrow, of_decide_eq_true hkey⟩
    · rintro ⟨row, hrow, hkey⟩
      exact ⟨(List.getElem?_eq_some_iff.mp hrow).1, row, hrow, decide_eq_true hkey⟩
  have hnodup : ((List.range rows.length).filter fun i =>
      rows[i]?.any fun row => decide (k row = key)).Nodup := List.nodup_range.filter _
  cases hplace : place k rows key with
  | none =>
    rw [hplace] at hmem
    exact List.eq_nil_iff_forall_not_mem.mpr fun i hi => nomatch (hmem i).mp hi
  | some i =>
    rw [hplace] at hmem
    refine List.perm_singleton.mp ((List.perm_ext_iff_of_nodup hnodup (List.nodup_singleton i)).mpr ?_)
    intro j
    rw [hmem, Option.some.injEq, List.mem_singleton, eq_comm]

/-! ## Upserting -/

/-- The row at the place of a key, and what is before and behind it. -/
theorem place_split {i : Nat} (h : place k rows key = some i) (change : α → α) :
    ∃ before row after, rows = before ++ row :: after ∧ k row = key ∧
      (∀ r ∈ before, k r ≠ key) ∧ rows.modify i change = before ++ change row :: after := by
  unfold place at h
  obtain ⟨hi, hkey, hbefore⟩ := List.findIdx?_eq_some_iff_getElem.mp h
  obtain ⟨before, row, after, hrows, hlength, hmodify⟩ := List.exists_of_modify change hi
  subst hrows
  subst hlength
  refine ⟨before, row, after, rfl, by simpa using hkey, fun r hr => ?_, hmodify⟩
  obtain ⟨j, hj, rfl⟩ := List.mem_iff_getElem.mp hr
  simpa [List.getElem_append_left hj] using hbefore j hj

theorem length_upsert :
    (upsert k rows key new change).length = rows.length + (place k rows key).isNone.toNat := by
  unfold upsert
  cases place k rows key <;> simp

/-- A change that does nothing leaves a table with the key as it is. -/
theorem upsert_id {i : Nat} (h : place k rows key = some i) : upsert k rows key new id = rows := by
  unfold upsert
  rw [h]
  simp

theorem mem_upsert {row : α} (h : row ∈ upsert k rows key new change) :
    row ∈ rows ∨ row = new ∨ ∃ old ∈ rows, row = change old := by
  unfold upsert at h
  cases hplace : place k rows key with
  | none =>
    rw [hplace] at h
    exact (List.mem_append.mp h).imp_right fun hnew => Or.inl (List.mem_singleton.mp hnew)
  | some i =>
    rw [hplace] at h
    obtain ⟨before, old, after, rfl, -, -, hmodify⟩ := place_split hplace change
    dsimp only at h
    rw [hmodify] at h
    rcases List.mem_append.mp h with hbefore | hafter
    · exact Or.inl (List.mem_append_left _ hbefore)
    · rcases List.mem_cons.mp hafter with rfl | hafter
      · exact Or.inr (Or.inr ⟨old, by simp, rfl⟩)
      · exact Or.inl (List.mem_append_right _ (List.mem_cons_of_mem _ hafter))

/-- The new row has the key, and changing a row leaves its key alone. -/
structure Keyed (k : α → κ) (key : κ) (new : α) (change : α → α) : Prop where
  new : k new = key
  change : ∀ row, k (change row) = k row

theorem map_upsert (h : Keyed k key new change) :
    (upsert k rows key new change).map k =
      if place k rows key = none then rows.map k ++ [key] else rows.map k := by
  unfold upsert
  cases hplace : place k rows key with
  | none => simp [h.new]
  | some i =>
    obtain ⟨before, row, after, rfl, -, -, hmodify⟩ := place_split hplace change
    simp [hmodify, h.change]

theorem upsert_unique (h : Keyed k key new change) (hunique : (rows.map k).Nodup) :
    ((upsert k rows key new change).map k).Nodup := by
  rw [map_upsert h]
  split
  · next hnone =>
    refine hunique.append (List.nodup_singleton key) (List.disjoint_singleton.mpr fun hmem => ?_)
    obtain ⟨row, hrow, hkey⟩ := List.mem_map.mp hmem
    exact place_eq_none_iff.mp hnone row hrow hkey
  · exact hunique

/-- **Looking up behind an upsert.** -/
theorem lookup_upsert (h : Keyed k key new change) (key' : κ) :
    lookup k (upsert k rows key new change) key' =
      if key' = key then some ((lookup k rows key).elim new change) else lookup k rows key' := by
  unfold upsert
  cases hplace : place k rows key with
  | none =>
    have hnone : lookup k rows key = none := lookup_eq_none_iff.mpr (place_eq_none_iff.mp hplace)
    unfold lookup at hnone ⊢
    dsimp only
    rw [List.find?_append]
    split
    · next hkey => simp [hkey, hnone, h.new]
    · next hkey => simp [h.new, Ne.symm hkey]
  | some i =>
    obtain ⟨before, row, after, rfl, hrow, hbefore, hmodify⟩ := place_split hplace change
    have hnone : lookup k before key = none := lookup_eq_none_iff.mpr hbefore
    unfold lookup at hnone ⊢
    dsimp only
    rw [hmodify]
    by_cases hkey : key' = key
    · rw [if_pos hkey, hkey, List.find?_append, List.find?_append, hnone, List.find?_cons_of_pos,
        List.find?_cons_of_pos]
      · rfl
      · exact decide_eq_true hrow
      · exact decide_eq_true ((h.change row).trans hrow)
    · rw [if_neg hkey, List.find?_append, List.find?_append, List.find?_cons_of_neg,
        List.find?_cons_of_neg]
      · simpa [hrow] using Ne.symm hkey
      · simpa [h.change, hrow] using Ne.symm hkey

/-- The place of a key behind an upsert. -/
theorem place_upsert (h : Keyed k key new change) (key' : κ) :
    place k (upsert k rows key new change) key' =
      if key' = key then some ((place k rows key).getD rows.length) else place k rows key' := by
  have hmap : ∀ (rows : List α) key, place k rows key =
      (rows.map k).findIdx? fun x => decide (x = key) := by
    intro rows key
    rw [List.findIdx?_map]
    rfl
  rw [hmap (upsert k rows key new change), map_upsert h]
  split
  · next hnone =>
    rw [List.findIdx?_append, ← hmap]
    split
    · next hkey => simp [hkey, hnone]
    · next hkey => simp [Ne.symm hkey]
  · next hsome =>
    rw [← hmap]
    split
    · next hkey =>
      obtain ⟨i, hi⟩ := Option.ne_none_iff_exists'.mp hsome
      rw [hkey, hi, Option.getD_some]
    · rfl

/-- A row with the key that the change leaves as it is makes the upsert do
nothing. -/
theorem upsert_eq_self {row : α} (hrow : lookup k rows key = some row) (hchange : change row = row) :
    upsert k rows key new change = rows := by
  unfold upsert
  cases hplace : place k rows key with
  | none =>
    obtain ⟨hmem, hkey⟩ := of_lookup_eq_some hrow
    exact absurd hkey (place_eq_none_iff.mp hplace row hmem)
  | some i =>
    obtain ⟨before, row', after, rfl, hkey, hbefore, hmodify⟩ := place_split hplace change
    have hsame : row' = row := by
      have hnone : lookup k before key = none := lookup_eq_none_iff.mpr hbefore
      unfold lookup at hnone hrow
      rw [List.find?_append, hnone, Option.none_or, List.find?_cons, hkey] at hrow
      simpa using hrow
    dsimp only
    rw [hmodify, hsame, hchange]

end Sentinel.Index
