/-
Sentinel.Orm.Rows — what a session writes into tables it shares.

A session has rows in memory. For each it knows the id of the stored row
and the values it has loaded or written last, or that the row is new. A
commit inserts the new rows and updates the others, and an UPDATE writes
the columns whose value the session has changed and no other. A row that
the session knows already is not loaded again.

Alone, a session writes its rows as they are (`writeRows_alone`).
-/
import Mathlib.Data.List.Basic

namespace Sentinel.Orm

/-! ## Columns -/

section

variable {α : Type} [DecidableEq α]

/-- A column of an UPDATE: written if the session changed it. -/
def column (loaded changed stored : α) : α := if changed = loaded then stored else changed

@[simp] theorem column_loaded (loaded changed : α) : column loaded changed loaded = changed := by
  unfold column
  split
  · exact (by assumption : changed = loaded).symm
  · rfl

@[simp] theorem column_unchanged (loaded stored : α) : column loaded loaded stored = stored :=
  if_pos rfl

theorem column_of_ne {loaded changed : α} (h : changed ≠ loaded) (stored : α) :
    column loaded changed stored = changed := if_neg h

end

/-! ## Rows -/

variable {ρ : Type}

/-- A row of a table. -/
structure Stored (ρ : Type) where
  id : Nat
  row : ρ
  deriving DecidableEq, Repr

/-- What a session knows of a stored row. -/
structure Tracked (ρ : Type) where
  id : Nat
  loaded : Option ρ
  deriving DecidableEq, Repr

/-- The rows in memory, each with what is known of it. The rows behind those
that are tracked are new; row number `n` gets the id `newId n`. -/
def plan (newId : Nat → Nat) : Nat → List (Tracked ρ) → List ρ → List (Tracked ρ × ρ)
  | _, _, [] => []
  | n, [], row :: rows => (⟨newId n, none⟩, row) :: plan newId (n + 1) [] rows
  | n, t :: tracked, row :: rows => (t, row) :: plan newId (n + 1) tracked rows

/-- One INSERT or UPDATE. -/
def writeRow (update : ρ → ρ → ρ → ρ) (stored : List (Stored ρ)) (entry : Tracked ρ × ρ) :
    List (Stored ρ) :=
  match entry.1.loaded with
  | none => stored ++ [⟨entry.1.id, entry.2⟩]
  | some loaded =>
      stored.map fun s =>
        if s.id = entry.1.id then { s with row := update loaded entry.2 s.row } else s

/-- The statements of a commit. -/
def writeRows (update : ρ → ρ → ρ → ρ) (newId : Nat → Nat) (tracked : List (Tracked ρ))
    (rows : List ρ) (stored : List (Stored ρ)) : List (Stored ρ) :=
  (plan newId 0 tracked rows).foldl (writeRow update) stored

/-- What is known after a commit. -/
def trackWritten (newId : Nat → Nat) (tracked : List (Tracked ρ)) (rows : List ρ) :
    List (Tracked ρ) :=
  (plan newId 0 tracked rows).map fun entry => ⟨entry.1.id, some entry.2⟩

/-- The ids of the rows in memory. -/
def rowIds (newId : Nat → Nat) (tracked : List (Tracked ρ)) (rows : List ρ) : List Nat :=
  (plan newId 0 tracked rows).map fun entry => entry.1.id

/-- Take a loaded row into memory. -/
def takeRow (newId : Nat → Nat) (memory : List (Tracked ρ) × List ρ) (s : Stored ρ) :
    List (Tracked ρ) × List ρ :=
  ((plan newId 0 memory.1 memory.2).map Prod.fst ++ [⟨s.id, some s.row⟩], memory.2 ++ [s.row])

/-- A query: the rows it finds that the session does not know yet. -/
def loadRows (newId : Nat → Nat) (memory : List (Tracked ρ) × List ρ) (found : List (Stored ρ)) :
    List (Tracked ρ) × List ρ :=
  (found.filter fun s => s.id ∉ rowIds newId memory.1 memory.2).foldl (takeRow newId) memory

/-! ## A session that is alone -/

/-- The rows as a session stores them that has made them all, from row
number `n` on. -/
def ownRows (newId : Nat → Nat) (n : Nat) (rows : List ρ) : List (Stored ρ) :=
  (rows.zipIdx n).map fun entry => ⟨newId entry.2, entry.1⟩

/-- What that session knows of them. -/
def ownTracked (newId : Nat → Nat) (n : Nat) (rows : List ρ) : List (Tracked ρ) :=
  (rows.zipIdx n).map fun entry => ⟨newId entry.2, some entry.1⟩

@[simp] theorem ownRows_nil (newId : Nat → Nat) (n : Nat) :
    ownRows newId n ([] : List ρ) = [] := rfl

theorem ownRows_cons (newId : Nat → Nat) (n : Nat) (row : ρ) (rows : List ρ) :
    ownRows newId n (row :: rows) = ⟨newId n, row⟩ :: ownRows newId (n + 1) rows := rfl

@[simp] theorem ownTracked_nil (newId : Nat → Nat) (n : Nat) :
    ownTracked newId n ([] : List ρ) = [] := rfl

theorem ownTracked_cons (newId : Nat → Nat) (n : Nat) (row : ρ) (rows : List ρ) :
    ownTracked newId n (row :: rows) = ⟨newId n, some row⟩ :: ownTracked newId (n + 1) rows := rfl

@[simp] theorem map_row_ownRows (newId : Nat → Nat) (n : Nat) (rows : List ρ) :
    (ownRows newId n rows).map Stored.row = rows := by
  induction rows generalizing n with
  | nil => rfl
  | cons row rows ih => rw [ownRows_cons, List.map_cons, ih]

theorem exists_of_mem_ownRows {newId : Nat → Nat} {n : Nat} {rows : List ρ} {s : Stored ρ}
    (h : s ∈ ownRows newId n rows) : ∃ i, n ≤ i ∧ i < n + rows.length ∧ s.id = newId i := by
  induction rows generalizing n with
  | nil => cases h
  | cons row rows ih =>
    rw [ownRows_cons] at h
    rcases List.mem_cons.mp h with rfl | h
    · exact ⟨n, by omega, by simp, rfl⟩
    · obtain ⟨i, hni, hi, hid⟩ := ih h
      refine ⟨i, by omega, ?_, hid⟩
      rw [List.length_cons]
      omega

/-- The ids of the rows in memory are those the session has given. -/
theorem rowIds_own (newId : Nat → Nat) (n : Nat) {base rows : List ρ}
    (h : base.length ≤ rows.length) :
    (plan newId n (ownTracked newId n base) rows).map (fun entry => entry.1.id) =
      (List.range' n rows.length).map newId := by
  induction rows generalizing n base with
  | nil => cases base <;> rfl
  | cons row rows ih =>
    rw [List.length_cons, List.range'_succ, List.map_cons]
    cases base with
    | nil =>
      rw [ownTracked_nil, plan, List.map_cons]
      exact congrArg _ (@ih (n + 1) [] (Nat.zero_le _))
    | cons b base =>
      rw [ownTracked_cons, plan, List.map_cons]
      exact congrArg _ (ih (n + 1) (by simpa using h))

/-- After a commit the session knows what it has written. -/
theorem map_plan_own (newId : Nat → Nat) (n : Nat) {base rows : List ρ}
    (h : base.length ≤ rows.length) :
    (plan newId n (ownTracked newId n base) rows).map
      (fun entry => (⟨entry.1.id, some entry.2⟩ : Tracked ρ)) = ownTracked newId n rows := by
  induction rows generalizing n base with
  | nil => cases base <;> rfl
  | cons row rows ih =>
    rw [ownTracked_cons]
    cases base with
    | nil =>
      rw [ownTracked_nil, plan, List.map_cons]
      exact congrArg _ (@ih (n + 1) [] (Nat.zero_le _))
    | cons b base =>
      rw [ownTracked_cons, plan, List.map_cons]
      exact congrArg _ (ih (n + 1) (by simpa using h))

theorem trackWritten_alone (newId : Nat → Nat) {base rows : List ρ}
    (h : base.length ≤ rows.length) :
    trackWritten newId (ownTracked newId 0 base) rows = ownTracked newId 0 rows :=
  map_plan_own newId 0 h

/-- An UPDATE leaves rows with other ids alone. -/
theorem map_update_of_ne {id : Nat} (f : Stored ρ → Stored ρ) {stored : List (Stored ρ)}
    (h : ∀ s ∈ stored, s.id ≠ id) : (stored.map fun s => if s.id = id then f s else s) = stored := by
  refine (List.map_congr_left fun s hs => ?_).trans (List.map_id stored)
  exact if_neg (h s hs)

variable {update : ρ → ρ → ρ → ρ} {newId : Nat → Nat}

/-- The UPDATE of the first row behind those in `done`. -/
theorem writeRow_own (hupdate : ∀ loaded changed, update loaded changed loaded = changed)
    (hid : Function.Injective newId) (n : Nat) (b row : ρ) (base : List ρ)
    {done : List (Stored ρ)} (hdone : ∀ s ∈ done, s.id ≠ newId n) :
    writeRow update (done ++ ownRows newId n (b :: base)) (⟨newId n, some b⟩, row) =
      (done ++ [⟨newId n, row⟩]) ++ ownRows newId (n + 1) base := by
  have hrest : ∀ s ∈ ownRows newId (n + 1) base, s.id ≠ newId n := by
    intro s hs heq
    obtain ⟨i, hi, -, hsid⟩ := exists_of_mem_ownRows hs
    exact absurd (hid (hsid.symm.trans heq)) (by omega)
  show (done ++ ownRows newId n (b :: base)).map
    (fun s => if s.id = newId n then { s with row := update b row s.row } else s) = _
  rw [List.map_append, ownRows_cons, List.map_cons, map_update_of_ne _ hdone,
    map_update_of_ne _ hrest, if_pos rfl, hupdate]
  simp

/-- The statements of a commit one after another. The rows in `done` have
been written, and the induction is on those in memory. -/
theorem writePlan_alone (hupdate : ∀ loaded changed, update loaded changed loaded = changed)
    (hid : Function.Injective newId) (n : Nat) {base rows : List ρ} (h : base.length ≤ rows.length)
    (done : List (Stored ρ)) (hdone : ∀ s ∈ done, ∀ i, n ≤ i → s.id ≠ newId i) :
    (plan newId n (ownTracked newId n base) rows).foldl (writeRow update)
      (done ++ ownRows newId n base) = done ++ ownRows newId n rows := by
  induction rows generalizing n base done with
  | nil =>
    obtain rfl : base = [] := List.length_eq_zero_iff.mp (Nat.le_zero.mp h)
    rfl
  | cons row rows ih =>
    have hwritten : ∀ s ∈ done ++ [(⟨newId n, row⟩ : Stored ρ)], ∀ i, n + 1 ≤ i →
        s.id ≠ newId i := by
      intro s hs i hi
      rcases List.mem_append.mp hs with hs | hs
      · exact hdone s hs i (by omega)
      · obtain rfl := List.mem_singleton.mp hs
        exact fun heq => absurd (hid heq) (by omega)
    have happend : (done ++ [(⟨newId n, row⟩ : Stored ρ)]) ++ ownRows newId (n + 1) rows =
        done ++ ownRows newId n (row :: rows) := by
      rw [ownRows_cons, List.append_assoc]
      rfl
    rw [← happend]
    cases base with
    | nil =>
      -- an INSERT
      have hinsert := @ih (n + 1) [] (Nat.zero_le _) _ hwritten
      simp only [ownTracked_nil, ownRows_nil, List.append_nil] at hinsert ⊢
      exact hinsert
    | cons b base =>
      rw [ownTracked_cons, plan, List.foldl_cons,
        writeRow_own hupdate hid n b row base fun s hs => hdone s hs n (Nat.le_refl n)]
      exact ih (n + 1) (by simpa using h) _ hwritten

/-- **Alone, a session writes its rows as they are.** -/
theorem writeRows_alone (hupdate : ∀ loaded changed, update loaded changed loaded = changed)
    (hid : Function.Injective newId) {base rows : List ρ} (h : base.length ≤ rows.length) :
    writeRows update newId (ownTracked newId 0 base) rows (ownRows newId 0 base) =
      ownRows newId 0 rows :=
  writePlan_alone hupdate hid 0 h [] (by intro s hs; cases hs)

/-- And a query finds nothing it does not know. -/
theorem loadRows_alone {base rows : List ρ} (h : base.length ≤ rows.length)
    {found : List (Stored ρ)} (hfound : ∀ s ∈ found, s ∈ ownRows newId 0 base) :
    loadRows newId (ownTracked newId 0 base, rows) found = (ownTracked newId 0 base, rows) := by
  have hnone : (found.filter fun s => s.id ∉ rowIds newId (ownTracked newId 0 base) rows) = [] := by
    rw [List.filter_eq_nil_iff]
    intro s hs
    obtain ⟨i, -, hi, hsid⟩ := exists_of_mem_ownRows (hfound s hs)
    have hknown : s.id ∈ rowIds newId (ownTracked newId 0 base) rows := by
      unfold rowIds
      rw [rowIds_own newId 0 h, hsid]
      exact List.mem_map_of_mem (List.mem_range'_1.mpr ⟨by omega, by omega⟩)
    simpa using hknown
  unfold loadRows
  rw [hnone]
  rfl

end Sentinel.Orm
