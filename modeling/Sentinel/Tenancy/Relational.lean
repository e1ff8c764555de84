/-
Sentinel.Tenancy.Relational — two actions run side by side.

Started in related states, related actions fail alike or answer with
related values, send the same and leave related states. The rules follow
the way actions are put together. With equality on the values, what the
relation does not fix about a state or an action cannot be observed from
outside (`related_runs`).
-/
import Sentinel.Tenancy.Isolation

namespace Sentinel.Tenancy

open Sentinel.Tenancy.Action

variable {σ ω ε α β γ δ : Type}

/-- Both failed, alike, or both came to related values. -/
inductive Alike {ε α β : Type} (Q : α → β → Prop) : Except ε α → Except ε β → Prop where
  | ok {a : α} {b : β} (h : Q a b) : Alike Q (.ok a) (.ok b)
  | error (e : ε) : Alike Q (.error e) (.error e)

theorem alike_eq_iff {x y : Except ε α} : Alike Eq x y ↔ x = y := by
  constructor
  · intro h
    cases h with
    | ok h => rw [h]
    | error e => rfl
  · rintro rfl
    cases x with
    | ok a => exact .ok rfl
    | error e => exact .error e

/-- Related states are kept, values related, messages equal. -/
structure Related (R : σ → σ → Prop) (Q : α → β → Prop) (m₁ : Action σ ω ε α)
    (m₂ : Action σ ω ε β) : Prop where
  value : ∀ s₁ s₂, R s₁ s₂ → Alike Q (m₁ s₁).value (m₂ s₂).value
  sent : ∀ s₁ s₂, R s₁ s₂ → (m₁ s₁).sent = (m₂ s₂).sent
  state : ∀ s₁ s₂, R s₁ s₂ → R (m₁ s₁).state (m₂ s₂).state

variable {R : σ → σ → Prop} {Q : α → β → Prop}

/-! ## The rules -/

theorem related_pure {a : α} {b : β} (h : Q a b) :
    Related R Q (pure a : Action σ ω ε α) (pure b) where
  value _ _ _ := .ok h
  sent _ _ _ := rfl
  state _ _ hs := hs

theorem related_send (message : ω) : Related R Eq (send message : Action σ ω ε Unit) (send message) where
  value _ _ _ := .ok rfl
  sent _ _ _ := rfl
  state _ _ hs := hs

theorem related_query {q₁ : σ → Except ε α} {q₂ : σ → Except ε β}
    (h : ∀ s₁ s₂, R s₁ s₂ → Alike Q (q₁ s₁) (q₂ s₂)) :
    Related R Q (query q₁ : Action σ ω ε α) (query q₂) where
  value := h
  sent _ _ _ := rfl
  state _ _ hs := hs

theorem related_ofExcept {x : Except ε α} {y : Except ε β} (h : Alike Q x y) :
    Related R Q (ofExcept x : Action σ ω ε α) (ofExcept y) := related_query fun _ _ _ => h

/-- Commits that are refused alike and otherwise keep the relation. -/
theorem related_commit {w₁ w₂ : σ → Except ε σ} (h : ∀ s₁ s₂, R s₁ s₂ → Alike R (w₁ s₁) (w₂ s₂)) :
    Related R Eq (commit w₁ : Action σ ω ε Unit) (commit w₂) := by
  have hcommit : ∀ s₁ s₂, R s₁ s₂ →
      Alike Eq (commit (ω := ω) w₁ s₁).value (commit (ω := ω) w₂ s₂).value ∧
        (commit (ω := ω) w₁ s₁).sent = (commit (ω := ω) w₂ s₂).sent ∧
        R (commit (ω := ω) w₁ s₁).state (commit (ω := ω) w₂ s₂).state := by
    intro s₁ s₂ hs
    have hw := h s₁ s₂ hs
    cases h₁ : w₁ s₁ with
    | error e =>
      rw [h₁] at hw
      cases h₂ : w₂ s₂ with
      | error e' =>
        rw [h₂] at hw
        cases hw
        rw [commit_error h₁, commit_error h₂]
        exact ⟨.error e, rfl, hs⟩
      | ok s₂' =>
        rw [h₂] at hw
        cases hw
    | ok s₁' =>
      rw [h₁] at hw
      cases h₂ : w₂ s₂ with
      | error e =>
        rw [h₂] at hw
        cases hw
      | ok s₂' =>
        rw [h₂] at hw
        cases hw with
        | ok hstate =>
          rw [commit_ok h₁, commit_ok h₂]
          exact ⟨.ok rfl, rfl, hstate⟩
  exact ⟨fun s₁ s₂ hs => (hcommit s₁ s₂ hs).1, fun s₁ s₂ hs => (hcommit s₁ s₂ hs).2.1,
    fun s₁ s₂ hs => (hcommit s₁ s₂ hs).2.2⟩

/-- **Sequencing.** -/
theorem Related.bind {m₁ : Action σ ω ε α} {m₂ : Action σ ω ε β} {f₁ : α → Action σ ω ε γ}
    {f₂ : β → Action σ ω ε δ} {Q' : γ → δ → Prop} (hm : Related R Q m₁ m₂)
    (hf : ∀ a b, Q a b → Related R Q' (f₁ a) (f₂ b)) : Related R Q' (m₁ >>= f₁) (m₂ >>= f₂) := by
  have hbind : ∀ s₁ s₂, R s₁ s₂ →
      Alike Q' ((m₁ >>= f₁) s₁).value ((m₂ >>= f₂) s₂).value ∧
        ((m₁ >>= f₁) s₁).sent = ((m₂ >>= f₂) s₂).sent ∧
        R ((m₁ >>= f₁) s₁).state ((m₂ >>= f₂) s₂).state := by
    intro s₁ s₂ hs
    have hvalue := hm.value s₁ s₂ hs
    have hsent := hm.sent s₁ s₂ hs
    have hstate := hm.state s₁ s₂ hs
    generalize h₁ : (m₁ s₁).value = v₁ at hvalue
    generalize h₂ : (m₂ s₂).value = v₂ at hvalue
    cases hvalue with
    | error e =>
      rw [bind_error h₁, bind_error h₂]
      exact ⟨.error e, hsent, hstate⟩
    | @ok a b hab =>
      rw [bind_ok h₁, bind_ok h₂]
      have hnext := hf a b hab
      refine ⟨hnext.value _ _ hstate, ?_, hnext.state _ _ hstate⟩
      dsimp only
      rw [hsent, hnext.sent _ _ hstate]
  exact ⟨fun s₁ s₂ hs => (hbind s₁ s₂ hs).1, fun s₁ s₂ hs => (hbind s₁ s₂ hs).2.1,
    fun s₁ s₂ hs => (hbind s₁ s₂ hs).2.2⟩

/-! ## Runs -/

/-- Values and messages of a run of actions, and the state it leaves. -/
def observe : σ → List (Action σ ω ε α) → List (Except ε α × List ω) × σ
  | s, [] => ([], s)
  | s, m :: rest =>
      (((m s).value, (m s).sent) :: (observe (m s).state rest).1, (observe (m s).state rest).2)

/-- **Runs of related actions look the same.** -/
theorem related_runs {ms₁ ms₂ : List (Action σ ω ε α)} (h : List.Forall₂ (Related R Eq) ms₁ ms₂)
    {s₁ s₂ : σ} (hs : R s₁ s₂) :
    (observe s₁ ms₁).1 = (observe s₂ ms₂).1 ∧ R (observe s₁ ms₁).2 (observe s₂ ms₂).2 := by
  induction h generalizing s₁ s₂ with
  | nil => exact ⟨rfl, hs⟩
  | @cons m₁ m₂ ms₁ ms₂ hm hrest ih =>
    obtain ⟨hseen, hstate⟩ := ih (hm.state s₁ s₂ hs)
    refine ⟨?_, hstate⟩
    simp only [observe]
    rw [alike_eq_iff.mp (hm.value s₁ s₂ hs), hm.sent s₁ s₂ hs, hseen]

end Sentinel.Tenancy
