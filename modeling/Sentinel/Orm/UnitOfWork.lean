/-
Sentinel.Orm.UnitOfWork — mapped objects and their rows.

An object of an ORM session has attributes in memory, a state, a flag
that says whether an attribute was set since the last flush, the row the
open transaction has for it and the row last committed. Setting an
attribute touches memory only; a flush writes the pending and the
modified objects and deletes the marked ones; a rollback loads what was
committed. `Synced` is the invariant that ties memory to the row.
-/
import Mathlib.Data.List.Basic

namespace Sentinel.Orm

/-- The object states of a session. `deleted` is marked for deletion,
`gone` is deleted in the database. -/
inductive ObjectState where
  | transient
  | pending
  | persistent
  | deleted
  | gone
  deriving DecidableEq, Repr

/-- A mapped object with attributes `α` and rows `ρ`. -/
structure Instance (α ρ : Type) where
  attrs : α
  state : ObjectState := .transient
  modified : Bool := false
  row : Option ρ := none
  saved : Option ρ := none
  deriving DecidableEq, Repr

namespace Instance

variable {α ρ : Type}

/-- In the session and not on its way out. -/
def isLive (o : Instance α ρ) : Bool := o.state == .pending || o.state == .persistent

/-- A member of `session.new`. -/
def isNew (o : Instance α ρ) : Bool := o.state == .pending

/-- A member of `session.dirty`. -/
def isDirty (o : Instance α ρ) : Bool := o.state == .persistent && o.modified

/-- Set attributes. -/
def set (f : α → α) (o : Instance α ρ) : Instance α ρ :=
  { o with attrs := f o.attrs, modified := true }

/-- `session.add`. -/
def add (o : Instance α ρ) : Instance α ρ :=
  if o.state = .transient then { o with state := .pending } else o

/-- `session.delete`; only a persistent object can be marked. -/
def delete (o : Instance α ρ) : Instance α ρ :=
  if o.state = .persistent then { o with state := .deleted } else o

/-- A pending object that lost its parent leaves the session. -/
def expunge (o : Instance α ρ) : Instance α ρ :=
  if o.state = .pending then { o with state := .transient } else o

/-- What a flush does to one object: insert a pending one, update a
modified one, delete a marked one and, where orphans are deleted, a
persistent one without its parent. -/
def flush (toRow : α → ρ) (isOrphan : α → Bool) (o : Instance α ρ) : Instance α ρ :=
  match o.state with
  | .pending => { o with state := .persistent, modified := false, row := some (toRow o.attrs) }
  | .persistent =>
      if o.modified then
        if isOrphan o.attrs then { o with state := .gone, modified := false, row := none }
        else { o with modified := false, row := some (toRow o.attrs) }
      else o
  | .deleted => { o with state := .gone, modified := false, row := none }
  | .transient | .gone => o

/-- The row an object has between the inserts and updates of a flush and
its deletes, which come last. -/
def rowBeforeDeletes (toRow : α → ρ) (isOrphan : α → Bool) (o : Instance α ρ) : Option ρ :=
  match o.state with
  | .pending => some (toRow o.attrs)
  | .persistent => if o.modified && !isOrphan o.attrs then some (toRow o.attrs) else o.row
  | _ => o.row

/-- `COMMIT`. -/
def commit (o : Instance α ρ) : Instance α ρ := { o with saved := o.row }

/-- `ROLLBACK`: an object with a committed row is loaded from it again,
any other leaves the session. -/
def rollback (load : ρ → α → α) (o : Instance α ρ) : Instance α ρ :=
  match o.saved with
  | some r => ⟨load r o.attrs, .persistent, false, some r, some r⟩
  | none => ⟨o.attrs, .transient, false, none, none⟩

/-! ## Memory and rows -/

/-- An unmodified persistent object is its row; an object that is not in
the database has none. -/
structure Synced (toRow : α → ρ) (o : Instance α ρ) : Prop where
  clean : o.state = .persistent → o.modified = false → o.row = some (toRow o.attrs)
  absent : o.state = .transient ∨ o.state = .pending ∨ o.state = .gone → o.row = none

/-- A change in memory: the rows stay, and so does being synced. -/
structure Edit (toRow : α → ρ) (f : Instance α ρ → Instance α ρ) : Prop where
  row : ∀ o, (f o).row = o.row
  saved : ∀ o, (f o).saved = o.saved
  synced : ∀ {o}, Synced toRow o → Synced toRow (f o)

variable {toRow : α → ρ}

theorem Synced.fresh (a : α) (state : ObjectState) (h : state = .transient ∨ state = .pending) :
    Synced toRow ({ attrs := a, state := state } : Instance α ρ) where
  clean hp := by rcases h with rfl | rfl <;> cases hp
  absent _ := rfl

theorem Edit.id : Edit toRow (fun o : Instance α ρ => o) := ⟨fun _ => rfl, fun _ => rfl, fun h => h⟩

theorem Edit.comp {f g : Instance α ρ → Instance α ρ} (hf : Edit toRow f) (hg : Edit toRow g) :
    Edit toRow (fun o => f (g o)) where
  row o := (hf.row _).trans (hg.row o)
  saved o := (hf.saved _).trans (hg.saved o)
  synced h := hf.synced (hg.synced h)

theorem Edit.ite {f : Instance α ρ → Instance α ρ} (hf : Edit toRow f) (p : Instance α ρ → Prop)
    [DecidablePred p] : Edit toRow (fun o => if p o then f o else o) where
  row o := by by_cases h : p o <;> simp [h, hf.row]
  saved o := by by_cases h : p o <;> simp [h, hf.saved]
  synced {o} hs := by by_cases h : p o <;> simp [h, hs, hf.synced hs]

theorem edit_set (f : α → α) : Edit toRow (Instance.set (ρ := ρ) f) where
  row _ := rfl
  saved _ := rfl
  synced h := ⟨fun _ hm => by simp [Instance.set] at hm, fun hs => h.absent hs⟩

/-- Moving between the states of an object without a row. -/
theorem edit_move {f : Instance α ρ → Instance α ρ} {source target : ObjectState}
    (hf : ∀ o, f o = if o.state = source then { o with state := target } else o)
    (htarget : target ≠ .persistent)
    (hrow : target = .deleted ∨ source = .transient ∨ source = .pending) : Edit toRow f where
  row o := by rw [hf]; split <;> rfl
  saved o := by rw [hf]; split <;> rfl
  synced {o} h := by
    rw [hf]
    by_cases hsource : o.state = source
    · rw [if_pos hsource]
      refine ⟨fun hp => absurd hp htarget, fun hs => h.absent ?_⟩
      rcases hrow with rfl | rfl | rfl
      · simp at hs
      · exact Or.inl hsource
      · exact Or.inr (Or.inl hsource)
    · rwa [if_neg hsource]

theorem edit_add : Edit toRow (Instance.add (α := α) (ρ := ρ)) :=
  edit_move (fun _ => rfl) (by simp) (by simp)

theorem edit_delete : Edit toRow (Instance.delete (α := α) (ρ := ρ)) :=
  edit_move (fun _ => rfl) (by simp) (by simp)

theorem edit_expunge : Edit toRow (Instance.expunge (α := α) (ρ := ρ)) :=
  edit_move (fun _ => rfl) (by simp) (by simp)

theorem flush_saved (toRow : α → ρ) (isOrphan : α → Bool) (o : Instance α ρ) :
    (o.flush toRow isOrphan).saved = o.saved := by
  unfold Instance.flush
  cases o.state <;> cases o.modified <;> cases isOrphan o.attrs <;> rfl

/-- A flush leaves a live object's attributes as its row. -/
theorem flush_row_of_live {o : Instance α ρ} {isOrphan : α → Bool} (h : Synced toRow o)
    (hlive : o.isLive = true) (hparent : isOrphan o.attrs = false) :
    (o.flush toRow isOrphan).row = some (toRow o.attrs) := by
  unfold Instance.flush
  cases hstate : o.state with
  | pending => rfl
  | persistent =>
    cases hmodified : o.modified with
    | true => simp [hparent]
    | false => exact h.clean hstate hmodified
  | _ => simp [isLive, hstate] at hlive

/-- After a flush only objects that were live have a row. -/
theorem live_of_flush_row {o : Instance α ρ} {isOrphan : α → Bool} (h : Synced toRow o) {r : ρ}
    (hr : (o.flush toRow isOrphan).row = some r) : o.isLive = true ∧ r = toRow o.attrs := by
  unfold Instance.flush at hr
  cases hstate : o.state with
  | pending =>
    rw [hstate] at hr
    exact ⟨by simp [isLive, hstate], (Option.some.inj hr).symm⟩
  | persistent =>
    refine ⟨by simp [isLive, hstate], ?_⟩
    rw [hstate] at hr
    cases hmodified : o.modified with
    | true => cases horphan : isOrphan o.attrs <;> simp [hmodified, horphan] at hr; exact hr.symm
    | false =>
      have hrow := h.clean hstate hmodified
      simp [hmodified, hrow] at hr
      exact hr.symm
  | deleted => simp [hstate] at hr
  | transient => simp [hstate, h.absent (Or.inl hstate)] at hr
  | gone => simp [hstate, h.absent (Or.inr (Or.inr hstate))] at hr

theorem Synced.flush {o : Instance α ρ} (isOrphan : α → Bool) (h : Synced toRow o) :
    Synced toRow (o.flush toRow isOrphan) := by
  unfold Instance.flush
  cases hstate : o.state with
  | pending => exact ⟨fun _ _ => rfl, fun hs => by simp at hs⟩
  | persistent =>
    cases hmodified : o.modified with
    | true =>
      cases horphan : isOrphan o.attrs with
      | true => exact ⟨fun hp => by simp at hp, fun _ => rfl⟩
      | false => exact ⟨fun _ _ => by simp, fun hs => by simp at hs⟩
    | false => simpa using h
  | deleted => exact ⟨fun hp => by simp at hp, fun _ => rfl⟩
  | transient | gone => exact h

theorem Synced.commit {o : Instance α ρ} (h : Synced toRow o) : Synced toRow o.commit :=
  ⟨h.clean, h.absent⟩

/-- Loading a row and reading it off again gives the row. -/
theorem Synced.rollback {load : ρ → α → α} (hload : ∀ r a, toRow (load r a) = r)
    (o : Instance α ρ) : Synced toRow (o.rollback load) := by
  unfold Instance.rollback
  cases o.saved with
  | some r => exact ⟨fun _ _ => by simp [hload], fun hs => by simp at hs⟩
  | none => exact ⟨fun hp => by simp at hp, fun _ => rfl⟩

theorem rollback_row (load : ρ → α → α) (o : Instance α ρ) :
    (o.rollback load).row = o.saved ∧ (o.rollback load).saved = o.saved := by
  unfold Instance.rollback
  cases o.saved <;> exact ⟨rfl, rfl⟩

end Instance

end Sentinel.Orm
