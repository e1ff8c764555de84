/-
Sentinel.Durable.Task — executions that share a store.

A task is what an execution has still to do, act by act: read what is
committed, commit, begin a piece of work, or stop. The acts of the tasks of
a pool interleave in any order, and an execution may be ended between any
two of its acts.

If every first commit meets a store as no commit leaves it, one execution
commits alone: the others never begin to work, and stop as they
do before a first commit (`run_oneCommits`).
-/
import Sentinel.Trace.Run

namespace Sentinel.Durable

inductive Task (δ ω ε α : Type) where
  | returned (a : α)
  | raised (e : ε)
  | query (next : δ → Task δ ω ε α)
  | commit (write : δ → δ) (next : Task δ ω ε α)
  | work (w : ω) (next : Task δ ω ε α)

variable {δ ω ε α β γ : Type}

namespace Task

def bind : Task δ ω ε α → (α → Task δ ω ε β) → Task δ ω ε β
  | .returned a, f => f a
  | .raised e, _ => .raised e
  | .query next, f => .query fun d => (next d).bind f
  | .commit write next, f => .commit write (next.bind f)
  | .work w next, f => .work w (next.bind f)

instance : Monad (Task δ ω ε) where
  pure := .returned
  bind := bind

theorem bind_eq (t : Task δ ω ε α) (f : α → Task δ ω ε β) : t >>= f = t.bind f := rfl

/-- The next act is a commit. -/
def commits : Task δ ω ε α → Bool
  | .commit _ _ => true
  | _ => false

/-- How the task has ended, if it has. -/
def ended : Task δ ω ε α → Option (Except ε α)
  | .returned a => some (.ok a)
  | .raised e => some (.error e)
  | _ => none

/-! ## A task whose commits are the only ones -/

/-- From the store `d` every commit leaves what `P` says, and a result comes
with what `Q` says, as long as nobody else commits. -/
def Alone (P : δ → Prop) (Q : α → δ → Prop) : Task δ ω ε α → δ → Prop
  | .returned a, d => Q a d
  | .raised _, _ => True
  | .query next, d => Alone P Q (next d) d
  | .commit write next, d => P (write d) ∧ Alone P Q next (write d)
  | .work _ next, d => Alone P Q next d

theorem alone_bind {P : δ → Prop} {Q : β → δ → Prop} (t : Task δ ω ε α)
    (f : α → Task δ ω ε β) (d : δ) :
    Alone P Q (t >>= f) d ↔ Alone P (fun a d => Alone P Q (f a) d) t d := by
  rw [bind_eq]
  induction t generalizing d with
  | returned a => exact Iff.rfl
  | raised e => exact Iff.rfl
  | query next ih => exact ih d d
  | commit write next ih => exact and_congr Iff.rfl (ih (write d))
  | work w next ih => exact ih d

theorem Alone.mono {P : δ → Prop} {Q Q' : α → δ → Prop} (hQ : ∀ a d, Q a d → Q' a d)
    {t : Task δ ω ε α} {d : δ} (h : Alone P Q t d) : Alone P Q' t d := by
  induction t generalizing d with
  | returned a => exact hQ a d h
  | raised e => trivial
  | query next ih => exact ih d h
  | commit write next ih => exact ⟨h.1, ih h.2⟩
  | work w next ih => exact ih h

/-! ## Before the first commit -/

/-- Whatever it reads, the task does not work before its first commit, and
without a commit it ends as `R` says. -/
def HoldsBack (R : Except ε α → Prop) : Task δ ω ε α → Prop
  | .returned a => R (.ok a)
  | .raised e => R (.error e)
  | .query next => ∀ d, HoldsBack R (next d)
  | .commit _ _ => True
  | .work _ _ => False

theorem HoldsBack.bind {R : Except ε β → Prop} {R' : Except ε α → Prop} {t : Task δ ω ε α}
    {f : α → Task δ ω ε β} (h : HoldsBack R' t) (hok : ∀ a, R' (.ok a) → HoldsBack R (f a))
    (herror : ∀ e, R' (.error e) → R (.error e)) : HoldsBack R (t >>= f) := by
  rw [bind_eq]
  induction t with
  | returned a => exact hok a h
  | raised e => exact herror e h
  | query next ih => exact fun d => ih d (h d)
  | commit write next ih => trivial
  | work w next ih => exact h.elim

theorem HoldsBack.of_ended {R : Except ε α → Prop} {t : Task δ ω ε α} {r : Except ε α}
    (h : t.HoldsBack R) (hended : t.ended = some r) : R r := by
  cases t with
  | returned a => exact Option.some.inj hended ▸ h
  | raised e => exact Option.some.inj hended ▸ h
  | query next => cases hended
  | commit write next => cases hended
  | work w next => cases hended

end Task

/-! ## Pools -/

/-- The executions by number; an execution that was ended from outside has
no task. -/
structure Pool (δ ω ε α : Type) where
  store : δ
  tasks : Nat → Option (Task δ ω ε α)
  committed : Nat → Bool := fun _ => false
  /-- The work begun, the latest first. -/
  begun : List (Nat × ω) := []

/-- An execution goes on by one act, or is ended. -/
inductive PoolAction where
  | act (i : Nat)
  | crash (i : Nat)
  deriving DecidableEq, Repr

namespace Pool

def setTask (p : Pool δ ω ε α) (i : Nat) (t : Option (Task δ ω ε α)) : Pool δ ω ε α :=
  { p with tasks := fun j => if j = i then t else p.tasks j }

def step (p : Pool δ ω ε α) : PoolAction → Pool δ ω ε α
  | .act i =>
      match p.tasks i with
      | some (.query next) => p.setTask i (some (next p.store))
      | some (.commit write next) =>
          { p.setTask i (some next) with
            store := write p.store
            committed := fun j => if j = i then true else p.committed j }
      | some (.work w next) => { p.setTask i (some next) with begun := (i, w) :: p.begun }
      | _ => p
  | .crash i => p.setTask i none

/-- A first commit meets a store of which `ok` holds. -/
def FirstCommits (ok : δ → Prop) (p : Pool δ ω ε α) : PoolAction → Prop
  | .act i => (p.tasks i).any Task.commits = true → p.committed i = false → ok p.store
  | .crash _ => True

instance (ok : δ → Prop) [DecidablePred ok] (p : Pool δ ω ε α) (a : PoolAction) :
    Decidable (p.FirstCommits ok a) :=
  match a with
  | .act i => inferInstanceAs
      (Decidable ((p.tasks i).any Task.commits = true → p.committed i = false → ok p.store))
  | .crash _ => isTrue trivial

/-- An execution that has not committed has not worked either, and holds
back. -/
def Waiting (R : Nat → Except ε α → Prop) (p : Pool δ ω ε α) (i : Nat) : Prop :=
  p.committed i = false ∧ (∀ w, (i, w) ∉ p.begun) ∧
    ∀ t, p.tasks i = some t → t.HoldsBack (R i)

/-- The tasks of the execution, if it still has one, keep `P` alone. -/
def KeepsAlone (P : δ → Prop) (p : Pool δ ω ε α) (i : Nat) : Prop :=
  ∀ t, p.tasks i = some t → t.Alone P (fun _ _ => True) p.store

/-- Nobody has committed and the store is as it was, or one execution has
and the others wait. -/
inductive OneCommits (P S : δ → Prop) (R : Nat → Except ε α → Prop) (p : Pool δ ω ε α) : Prop
  | none (hstore : S p.store) (hwaiting : ∀ i, p.Waiting R i)
      (halone : ∀ i, p.KeepsAlone P i)
  | one (leader : Nat) (hstore : P p.store) (halone : p.KeepsAlone P leader)
      (hwaiting : ∀ i, i ≠ leader → p.Waiting R i)

variable {P S ok : δ → Prop} {R : Nat → Except ε α → Prop} {p : Pool δ ω ε α} {i j : Nat}

@[simp] theorem setTask_same (t : Option (Task δ ω ε α)) : (p.setTask i t).tasks i = t :=
  if_pos rfl

theorem setTask_other (h : j ≠ i) (t : Option (Task δ ω ε α)) :
    (p.setTask i t).tasks j = p.tasks j := if_neg h

/-- An act of another execution, seen by one that waits. -/
theorem Waiting.other (h : p.Waiting R j) {q : Pool δ ω ε α} (htask : q.tasks j = p.tasks j)
    (hcommitted : q.committed j = p.committed j)
    (hbegun : ∀ w, (j, w) ∈ q.begun → (j, w) ∈ p.begun) : q.Waiting R j := by
  obtain ⟨hnot, hidle, hback⟩ := h
  refine ⟨hcommitted.trans hnot, fun w hw => hidle w (hbegun w hw), ?_⟩
  intro t ht
  exact hback t (htask.symm.trans ht)

/-- A change of the task of one execution leaves a waiting one waiting. -/
theorem Waiting.setTask (h : p.Waiting R j) {t : Option (Task δ ω ε α)}
    (ht : j = i → ∀ t', t = some t' → t'.HoldsBack (R i)) : (p.setTask i t).Waiting R j := by
  obtain ⟨hnot, hidle, hback⟩ := h
  refine ⟨hnot, hidle, ?_⟩
  intro t' ht'
  by_cases hji : j = i
  · subst hji
    exact ht rfl t' ((setTask_same t).symm.trans ht')
  · exact hback t' ((setTask_other hji t).symm.trans ht')

theorem KeepsAlone.setTask (h : p.KeepsAlone P j) {t : Option (Task δ ω ε α)}
    (ht : j = i → ∀ t', t = some t' → t'.Alone P (fun _ _ => True) p.store) :
    (p.setTask i t).KeepsAlone P j := by
  intro t' ht'
  by_cases hji : j = i
  · subst hji
    exact ht rfl t' ((setTask_same t).symm.trans ht')
  · exact h t' ((setTask_other hji t).symm.trans ht')

/-- Only the task of one execution changes, and it holds back as before. -/
theorem OneCommits.setTask (h : p.OneCommits P S R) {t : Option (Task δ ω ε α)}
    (hback : p.Waiting R i → ∀ t', t = some t' → t'.HoldsBack (R i))
    (halone : p.KeepsAlone P i → ∀ t', t = some t' → t'.Alone P (fun _ _ => True) p.store) :
    (p.setTask i t).OneCommits P S R := by
  cases h with
  | none hstore hwaiting hkeeps =>
    refine .none hstore (fun j => ?_) (fun j => ?_)
    · exact (hwaiting j).setTask fun hji => hback (hji ▸ hwaiting j)
    · exact (hkeeps j).setTask fun hji => halone (hji ▸ hkeeps j)
  | one leader hstore hkeeps hwaiting =>
    refine .one leader hstore ?_ (fun j hj => ?_)
    · exact hkeeps.setTask fun hji => halone (hji ▸ hkeeps)
    · exact (hwaiting j hj).setTask fun hji => hback (hji ▸ hwaiting j hj)

/-- An execution commits, and leads from now on. -/
theorem OneCommits.commit {write : δ → δ} {next : Task δ ω ε α}
    (htask : p.tasks i = some (.commit write next)) (hkeeps : p.KeepsAlone P i)
    (hothers : ∀ j, j ≠ i → p.Waiting R j) :
    OneCommits P S R { p.setTask i (some next) with
      store := write p.store
      committed := fun j => if j = i then true else p.committed j } := by
  obtain ⟨hstore, hnext⟩ := hkeeps _ htask
  refine .one i hstore ?_ (fun j hj => ?_)
  · intro t ht
    obtain rfl : next = t := Option.some.inj ((setTask_same _).symm.trans ht)
    exact hnext
  · exact (hothers j hj).other (setTask_other hj _) (if_neg hj) (fun w hw => hw)

/-- The leader begins work. -/
theorem OneCommits.work {w : ω} {next : Task δ ω ε α} (htask : p.tasks i = some (.work w next))
    (hstore : P p.store) (hkeeps : p.KeepsAlone P i) (hothers : ∀ j, j ≠ i → p.Waiting R j) :
    OneCommits P S R { p.setTask i (some next) with begun := (i, w) :: p.begun } := by
  refine .one i hstore ?_ (fun j hj => ?_)
  · intro t ht
    obtain rfl : next = t := Option.some.inj ((setTask_same _).symm.trans ht)
    exact hkeeps (.work w next) htask
  · refine (hothers j hj).other (setTask_other hj _) rfl ?_
    intro w' hw'
    rcases List.mem_cons.mp hw' with heq | hw'
    · exact absurd (congrArg Prod.fst heq) hj
    · exact hw'

/-- **One act**, if a first commit meets a store as no commit leaves it. -/
theorem OneCommits.step (hP : ∀ d, P d → ¬ ok d) (h : p.OneCommits P S R)
    (a : PoolAction) (hok : p.FirstCommits ok a) : (p.step a).OneCommits P S R := by
  cases a with
  | crash i => exact h.setTask (by intro _ _ ht; cases ht) (by intro _ _ ht; cases ht)
  | act i =>
    simp only [Pool.step]
    simp only [FirstCommits] at hok
    split
    · rename_i next htask
      refine h.setTask ?_ ?_
      · rintro ⟨-, -, hback⟩ t' ⟨⟩
        exact hback _ htask p.store
      · rintro hkeeps t' ⟨⟩
        exact hkeeps (.query next) htask
    · rename_i write next htask
      have hok : p.committed i = false → ok p.store := hok (by rw [htask]; rfl)
      cases h with
      | none hstore hwaiting hkeeps => exact .commit htask (hkeeps i) fun j _ => hwaiting j
      | one leader hstore hkeeps hwaiting =>
        by_cases hi : i = leader
        · exact .commit htask (hi ▸ hkeeps) fun j hj => hwaiting j (hi ▸ hj)
        · -- a first commit that comes too late
          exact absurd (hok (hwaiting i hi).1) (hP _ hstore)
    · rename_i w next htask
      have hworks : ¬ p.Waiting R i := fun hwait => hwait.2.2 _ htask
      cases h with
      | none hstore hwaiting hkeeps => exact absurd (hwaiting i) hworks
      | one leader hstore hkeeps hwaiting =>
        have hi : i = leader := Decidable.byContradiction fun hne => hworks (hwaiting i hne)
        subst hi
        exact .work htask hstore hkeeps hwaiting
    · exact h

theorem run_oneCommits (hP : ∀ d, P d → ¬ ok d) (hstart : p.OneCommits P S R)
    {actions : List PoolAction} (h : Trace.Along step (FirstCommits ok) p actions) :
    (Trace.run step p actions).OneCommits P S R :=
  Trace.run_invariant (fun _ a hp ha => hp.step hP a ha) hstart h

/-- A pool in which nobody has done anything yet. -/
theorem oneCommits_start {d : δ} {tasks : Nat → Task δ ω ε α} (hstore : S d)
    (hback : ∀ i, (tasks i).HoldsBack (R i))
    (halone : ∀ i, (tasks i).Alone P (fun _ _ => True) d) :
    OneCommits P S R { store := d, tasks := fun i => some (tasks i) } := by
  refine .none hstore (fun i => ⟨rfl, ?_, ?_⟩) (fun i => ?_)
  · intro w hw
    cases hw
  · rintro t ⟨⟩
    exact hback i
  · rintro t ⟨⟩
    exact halone i

end Pool

end Sentinel.Durable
