/-
Sentinel.Durable.Returns — complete runs that come back.

`p.Returns s a s'` says that the complete run of `p` from the session `s`
returns `a` and leaves the session `s'`. A run is determined by where it
starts, so each operation is characterised by an equivalence.
-/
import Sentinel.Durable.Logic
import Mathlib.Data.List.Basic

namespace Sentinel.Durable

variable {σ ε α β : Type}

def Program.Returns (p : Program σ ε α) (s : σ) (a : α) (s' : σ) : Prop :=
  (p s).result = .ok (a, s')

namespace Program

/-- A program returns at most one result. -/
theorem Returns.unique {p : Program σ ε α} {s s₁ s₂ : σ} {a₁ a₂ : α} (h₁ : p.Returns s a₁ s₁)
    (h₂ : p.Returns s a₂ s₂) : a₁ = a₂ ∧ s₁ = s₂ :=
  Prod.mk.inj (Except.ok.inj (h₁.symm.trans h₂))

@[simp] theorem returns_pure (b : α) (s : σ) (a : α) (s' : σ) :
    (pure b : Program σ ε α).Returns s a s' ↔ a = b ∧ s' = s := by
  simp [Returns, pure, eq_comm]

@[simp] theorem returns_point (s : σ) (a : Unit) (s' : σ) :
    (point : Program σ ε Unit).Returns s a s' ↔ s' = s := by
  simp [Returns, point, eq_comm]

@[simp] theorem returns_get (s : σ) (a : σ) (s' : σ) :
    (get : Program σ ε σ).Returns s a s' ↔ a = s ∧ s' = s := by
  simp [Returns, get, eq_comm]

@[simp] theorem returns_modify (f : σ → σ) (s : σ) (a : Unit) (s' : σ) :
    (modify f : Program σ ε Unit).Returns s a s' ↔ s' = f s := by
  simp [Returns, modify, eq_comm]

@[simp] theorem returns_raise (e : ε) (s : σ) (a : α) (s' : σ) :
    ¬ (raise e : Program σ ε α).Returns s a s' := by
  simp [Returns, raise]

theorem returns_ofExcept (x : Except ε α) (s : σ) (a : α) (s' : σ) :
    (ofExcept x : Program σ ε α).Returns s a s' ↔ x = .ok a ∧ s' = s := by
  cases x with
  | ok b => exact (returns_pure b s a s').trans (by rw [Except.ok.injEq, eq_comm])
  | error e => exact ⟨fun h => absurd h (returns_raise e s a s'), fun h => nomatch h.1⟩

/-- **Sequencing.** -/
@[simp] theorem returns_bind (p : Program σ ε α) (f : α → Program σ ε β) (s : σ) (b : β) (s' : σ) :
    (p >>= f).Returns s b s' ↔ ∃ a s₁, p.Returns s a s₁ ∧ (f a).Returns s₁ b s' := by
  unfold Returns
  rcases hp : p s with ⟨events, _ | ⟨a, s₁⟩⟩
  · simp [bind, hp]
  · simp [bind, hp]

/-- A run that commits nothing, by what it returns. -/
theorem Returns.wp {τ : Type} {view : σ → τ} {G : σ → σ → Prop} {E : ε → Prop}
    {p : Program σ ε α} {disk session session' : σ} {a : α} {Q : α → σ → σ → Prop}
    (h : p.Returns session a session') (hkeeps : Keeps view E p) (hQ : Q a disk session') :
    Durable.wp G p Q E disk session := by
  have hown : Durable.wp G p (fun _ d _ => d = disk) E disk session :=
    hkeeps.wp fun _ _ _ => rfl
  obtain ⟨hchain, hend⟩ := hown
  refine ⟨hchain, ?_⟩
  unfold Returns at h
  rw [h] at hend ⊢
  exact hend.symm ▸ hQ

/-- Of a program that commits nothing, only the runs that return matter. -/
theorem wp_of_returns {τ : Type} {view : σ → τ} {G : σ → σ → Prop} {E : ε → Prop}
    {p : Program σ ε α} {disk session : σ} {Q : α → σ → σ → Prop} (hkeeps : Keeps view E p)
    (hQ : ∀ a s, p.Returns session a s → Q a disk s) : Durable.wp G p Q E disk session := by
  have hown : Durable.wp G p (fun _ d _ => d = disk) E disk session :=
    hkeeps.wp fun _ _ _ => rfl
  obtain ⟨hchain, hend⟩ := hown
  refine ⟨hchain, ?_⟩
  split at hend
  · next a s hresult =>
    rw [hend]
    exact hQ a s hresult
  · exact hend

end Program

end Sentinel.Durable
