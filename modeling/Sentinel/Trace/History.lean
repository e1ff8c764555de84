/-
Sentinel.Trace.History — what a run of calls on an object leaves behind.

`act s c` is the result of the call `c` in the state `s` and the state it
leaves. The history of a run lists its calls in order, each with the state
it met, its result and the state it left.
-/
import Sentinel.Trace.Run
import Mathlib.Data.List.Induction

namespace Sentinel.Trace

universe u v w

variable {σ : Type u} {κ : Type v} {ρ : Type w}

/-- One call of a run. -/
structure Entry (σ : Type u) (κ : Type v) (ρ : Type w) where
  before : σ
  call : κ
  result : ρ
  after : σ
  deriving DecidableEq

/-- The entry a call in a given state makes. -/
def entry (act : σ → κ → ρ × σ) (s : σ) (c : κ) : Entry σ κ ρ :=
  { before := s, call := c, result := (act s c).1, after := (act s c).2 }

/-- The state a run of calls leaves. -/
def final (act : σ → κ → ρ × σ) (s : σ) (calls : List κ) : σ :=
  run (fun s c => (act s c).2) s calls

/-- The entries of a run, the first call first. -/
def history (act : σ → κ → ρ × σ) : σ → List κ → List (Entry σ κ ρ)
  | _, [] => []
  | s, c :: calls => entry act s c :: history act (act s c).2 calls

@[simp] theorem history_nil (act : σ → κ → ρ × σ) (s : σ) : history act s [] = [] := rfl

@[simp] theorem final_nil (act : σ → κ → ρ × σ) (s : σ) : final act s [] = s := rfl

theorem final_append (act : σ → κ → ρ × σ) (s : σ) (xs ys : List κ) :
    final act s (xs ++ ys) = final act (final act s xs) ys := run_append _ s xs ys

theorem final_concat (act : σ → κ → ρ × σ) (s : σ) (calls : List κ) (c : κ) :
    final act s (calls ++ [c]) = (act (final act s calls) c).2 := final_append act s calls [c]

theorem history_append (act : σ → κ → ρ × σ) (s : σ) (xs ys : List κ) :
    history act s (xs ++ ys) = history act s xs ++ history act (final act s xs) ys := by
  induction xs generalizing s with
  | nil => rfl
  | cons x xs ih => simp only [List.cons_append, history, ih]; rfl

/-- The last call of a run meets the state the others left. -/
theorem history_concat (act : σ → κ → ρ × σ) (s : σ) (calls : List κ) (c : κ) :
    history act s (calls ++ [c]) = history act s calls ++ [entry act (final act s calls) c] :=
  history_append act s calls [c]

/-- **The history rule.** A relation between the past and the present that
every call keeps holds after every run. -/
theorem history_rule {act : σ → κ → ρ × σ} {inv : List (Entry σ κ ρ) → σ → Prop} {s : σ}
    (hinit : inv [] s)
    (hstep : ∀ past s c, inv past s → inv (past ++ [entry act s c]) (act s c).2)
    (calls : List κ) : inv (history act s calls) (final act s calls) := by
  induction calls using List.reverseRecOn with
  | nil => exact hinit
  | append_singleton calls c ih =>
    rw [history_concat, final_concat]
    exact hstep _ _ c ih

/-- **The history rule under a condition** that all entries meet. -/
theorem history_rule_of {act : σ → κ → ρ × σ} {inv : List (Entry σ κ ρ) → σ → Prop}
    {ok : Entry σ κ ρ → Prop} {s : σ} (hinit : inv [] s)
    (hstep : ∀ past s c, inv past s → ok (entry act s c) →
      inv (past ++ [entry act s c]) (act s c).2)
    {calls : List κ} (h : ∀ e ∈ history act s calls, ok e) :
    inv (history act s calls) (final act s calls) := by
  induction calls using List.reverseRecOn with
  | nil => exact hinit
  | append_singleton calls c ih =>
    rw [history_concat] at h ⊢
    rw [final_concat]
    have hpast : ∀ e ∈ history act s calls, ok e := fun e he => h e (List.mem_append_left _ he)
    exact hstep _ _ c (ih hpast) (h _ (by simp))

theorem history_calls (act : σ → κ → ρ × σ) (s : σ) (calls : List κ) :
    (history act s calls).map Entry.call = calls := by
  induction calls generalizing s with
  | nil => rfl
  | cons c calls ih => exact congrArg (c :: ·) (ih _)

/-- An entry of a history meets what the entries before it have left. -/
theorem history_split {act : σ → κ → ρ × σ} {s : σ} {calls : List κ}
    {earlier later : List (Entry σ κ ρ)} {e : Entry σ κ ρ}
    (h : history act s calls = earlier ++ e :: later) : ∃ xs c ys,
      calls = xs ++ c :: ys ∧ earlier = history act s xs ∧ e = entry act (final act s xs) c ∧
        later = history act e.after ys := by
  induction earlier generalizing s calls with
  | nil =>
    cases calls with
    | nil => cases h
    | cons c ys =>
      obtain ⟨rfl, rfl⟩ := List.cons.inj h
      exact ⟨[], c, ys, rfl, rfl, rfl, rfl⟩
  | cons d earlier ih =>
    cases calls with
    | nil => cases h
    | cons x calls =>
      obtain ⟨rfl, hrest⟩ := List.cons.inj h
      obtain ⟨xs, c, ys, rfl, rfl, he, hlater⟩ := ih hrest
      exact ⟨x :: xs, c, ys, rfl, rfl, he, hlater⟩

/-- What every call does in every state, every entry of a history shows. -/
theorem forall_history {act : σ → κ → ρ × σ} {p : Entry σ κ ρ → Prop}
    (h : ∀ s c, p (entry act s c)) (s : σ) (calls : List κ) : ∀ e ∈ history act s calls, p e := by
  induction calls generalizing s with
  | nil => intro e he; cases he
  | cons c calls ih =>
    intro e he
    rcases List.mem_cons.mp he with rfl | he
    · exact h s c
    · exact ih (act s c).2 e he

/-- A state in which no call does anything is there to stay. -/
theorem final_of_stuck {act : σ → κ → ρ × σ} {s : σ} (h : ∀ c, (act s c).2 = s) (calls : List κ) :
    final act s calls = s := by
  induction calls with
  | nil => rfl
  | cons c calls ih =>
    show final act (act s c).2 calls = s
    rw [h c]
    exact ih

end Sentinel.Trace
