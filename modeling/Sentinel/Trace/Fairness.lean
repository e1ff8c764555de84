/-
Sentinel.Trace.Fairness — infinite schedules of a deterministic step
function.

A schedule says for ever what happens next. A goal is reached on it when a
rank that no event of the schedule raises goes down again and again until
then: that is what fairness towards one party amounts to.
-/
import Sentinel.Trace.Run

namespace Sentinel.Trace

universe u v

variable {σ : Type u} {ε : Type v}

/-- The state behind the first `n` events of a schedule. -/
def trajectory (step : σ → ε → σ) (s : σ) (schedule : Nat → ε) : Nat → σ
  | 0 => s
  | n + 1 => step (trajectory step s schedule n) (schedule n)

variable {step : σ → ε → σ} {s : σ} {schedule : Nat → ε}

/-- An invariant that admissible events keep holds all along a schedule of
admissible events. -/
theorem trajectory_invariant {ok : σ → ε → Prop} {inv : σ → Prop}
    (hstep : ∀ s e, inv s → ok s e → inv (step s e)) (hstart : inv s)
    (hok : ∀ n, ok (trajectory step s schedule n) (schedule n)) (n : Nat) :
    inv (trajectory step s schedule n) := by
  induction n with
  | zero => exact hstart
  | succ n ih => exact hstep _ _ ih (hok n)

/-- A rank that never rises is later at most what it was. -/
theorem rank_le_of_le {rank : σ → Nat}
    (hmono : ∀ n, rank (trajectory step s schedule (n + 1)) ≤ rank (trajectory step s schedule n))
    {m n : Nat} (hmn : m ≤ n) :
    rank (trajectory step s schedule n) ≤ rank (trajectory step s schedule m) := by
  induction hmn with
  | refl => exact Nat.le_refl _
  | step _ ih => exact Nat.le_trans (hmono _) ih

/-- **Fair schedules reach the goal**: the rank never rises, and from any
time on it falls once more unless the goal is reached. -/
theorem reaches_of_rank {rank : σ → Nat} (goal : σ → Prop)
    (hmono : ∀ n, rank (trajectory step s schedule (n + 1)) ≤ rank (trajectory step s schedule n))
    (hfair : ∀ n, ∃ m, n ≤ m ∧ (goal (trajectory step s schedule m) ∨
      rank (trajectory step s schedule (m + 1)) < rank (trajectory step s schedule m))) :
    ∃ n, goal (trajectory step s schedule n) := by
  have hfrom : ∀ bound n, rank (trajectory step s schedule n) ≤ bound →
      ∃ m, goal (trajectory step s schedule m) := by
    intro bound
    induction bound with
    | zero =>
      intro n hn
      obtain ⟨m, hnm, hgoal | hfalls⟩ := hfair n
      · exact ⟨m, hgoal⟩
      · have hlater := rank_le_of_le hmono hnm
        omega
    | succ bound ih =>
      intro n hn
      obtain ⟨m, hnm, hgoal | hfalls⟩ := hfair n
      · exact ⟨m, hgoal⟩
      · have hlater := rank_le_of_le hmono hnm
        exact ih (m + 1) (by omega)
  exact hfrom _ 0 (Nat.le_refl _)

end Sentinel.Trace
