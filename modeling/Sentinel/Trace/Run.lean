/-
Sentinel.Trace.Run — runs of a deterministic step function.

`Along step ok s es` says that every event of `es`, taken from `s` on, was
admissible in the state that met it. An invariant that admissible steps
keep holds at the end of such a run.
-/
import Mathlib.Init

namespace Sentinel.Trace

universe u v

variable {σ : Type u} {ε : Type v}

/-- The state a run of events leaves. -/
def run (step : σ → ε → σ) (s : σ) (events : List ε) : σ := events.foldl step s

@[simp] theorem run_nil (step : σ → ε → σ) (s : σ) : run step s [] = s := rfl

@[simp] theorem run_cons (step : σ → ε → σ) (s : σ) (e : ε) (events : List ε) :
    run step s (e :: events) = run step (step s e) events := rfl

theorem run_append (step : σ → ε → σ) (s : σ) (xs ys : List ε) :
    run step s (xs ++ ys) = run step (run step s xs) ys := List.foldl_append

/-- Every event was admissible in the state that met it. -/
def Along (step : σ → ε → σ) (ok : σ → ε → Prop) : σ → List ε → Prop
  | _, [] => True
  | s, e :: events => ok s e ∧ Along step ok (step s e) events

instance Along.decidable (step : σ → ε → σ) (ok : σ → ε → Prop) [∀ s e, Decidable (ok s e)] :
    ∀ s events, Decidable (Along step ok s events)
  | _, [] => isTrue trivial
  | s, e :: events =>
      have := Along.decidable step ok (step s e) events
      inferInstanceAs (Decidable (ok s e ∧ Along step ok (step s e) events))

theorem Along.imp {step : σ → ε → σ} {ok ok' : σ → ε → Prop} (himp : ∀ s e, ok s e → ok' s e)
    {s : σ} {events : List ε} (h : Along step ok s events) : Along step ok' s events := by
  induction events generalizing s with
  | nil => trivial
  | cons e events ih => exact ⟨himp s e h.1, ih h.2⟩

/-- Events that are the images of others. -/
theorem Along.map {ε' : Type v} {step : σ → ε → σ} {ok : σ → ε → Prop} {f : ε' → ε} {s : σ}
    {events : List ε'} (h : Along (fun s e => step s (f e)) (fun s e => ok s (f e)) s events) :
    Along step ok s (events.map f) := by
  induction events generalizing s with
  | nil => trivial
  | cons e events ih => exact ⟨h.1, ih h.2⟩

/-- Events that are admissible in every state. -/
theorem Along.of_forall {step : σ → ε → σ} {ok : ε → Prop} {events : List ε}
    (h : ∀ e ∈ events, ok e) (s : σ) : Along step (fun _ e => ok e) s events := by
  induction events generalizing s with
  | nil => trivial
  | cons e events ih =>
    exact ⟨h e List.mem_cons_self, ih (fun e' he' => h e' (List.mem_cons_of_mem e he')) _⟩

/-- A prefix of an admissible run is admissible. -/
theorem Along.initial {step : σ → ε → σ} {ok : σ → ε → Prop} {s : σ} {p events : List ε}
    (h : Along step ok s events) (hp : p <+: events) : Along step ok s p := by
  induction p generalizing s events with
  | nil => trivial
  | cons e p ih =>
    obtain ⟨rest, rfl⟩ := hp
    exact ⟨h.1, ih h.2 ⟨rest, rfl⟩⟩

/-- The rest of an admissible run is admissible where the first part left. -/
theorem Along.rest {step : σ → ε → σ} {ok : σ → ε → Prop} {s : σ} {xs ys : List ε}
    (h : Along step ok s (xs ++ ys)) : Along step ok (run step s xs) ys := by
  induction xs generalizing s with
  | nil => exact h
  | cons x xs ih => exact ih h.2

/-- **The run rule.** What admissible steps keep, admissible runs keep. -/
theorem run_invariant {step : σ → ε → σ} {ok : σ → ε → Prop} {inv : σ → Prop}
    (hstep : ∀ s e, inv s → ok s e → inv (step s e)) {s : σ} {events : List ε} (hs : inv s)
    (h : Along step ok s events) : inv (run step s events) := by
  induction events generalizing s with
  | nil => exact hs
  | cons e events ih => exact ih (hstep s e hs h.1) h.2

end Sentinel.Trace
