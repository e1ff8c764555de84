/-
Sentinel.Trace.Serial — operations that overlap, and an order in which they
could have come one after another.

An operation begins, runs along others and ends. If each one, when it ends,
changes the value as it would change it alone, the value is the one that
the ended operations lead to in the order of their ends.
-/
import Mathlib.Data.List.Perm.Basic

namespace Sentinel.Trace

universe u v w

variable {ι : Type u} {ο : Type v} {σ : Type w}

/-- Of the operations `begun`, those in `running` are under way; the others,
in some order, lead from `start` to `value`. -/
def Serial (apply : ο → σ → σ) (start : σ) (begun : List ο) (running : List (ι × ο))
    (value : σ) : Prop :=
  ∃ ended : List ο, begun.Perm (ended ++ running.map Prod.snd) ∧
    value = ended.foldl (fun v op => apply op v) start

variable {apply : ο → σ → σ} {start value : σ} {begun : List ο} {running rest : List (ι × ο)}
  {op : ο}

theorem Serial.nil (apply : ο → σ → σ) (start : σ) :
    Serial apply start [] ([] : List (ι × ο)) start := ⟨[], List.Perm.refl _, rfl⟩

theorem Serial.begin (h : Serial apply start begun running value) (i : ι) (op : ο) :
    Serial apply start (begun ++ [op]) ((i, op) :: running) value := by
  obtain ⟨ended, hperm, hvalue⟩ := h
  refine ⟨ended, ?_, hvalue⟩
  have hfront : (begun ++ [op]).Perm (op :: begun) := List.perm_append_singleton op begun
  have hmiddle : (op :: (ended ++ running.map Prod.snd)).Perm
      (ended ++ op :: running.map Prod.snd) := List.perm_middle.symm
  exact hfront.trans ((hperm.cons op).trans hmiddle)

/-- The operation that ends is the last in the order. -/
theorem Serial.finish (h : Serial apply start begun running value) {i : ι}
    (hrunning : running.Perm ((i, op) :: rest)) :
    Serial apply start begun rest (apply op value) := by
  obtain ⟨ended, hperm, hvalue⟩ := h
  refine ⟨ended ++ [op], ?_, by rw [List.foldl_append, ← hvalue]; rfl⟩
  have hrest : (ended ++ running.map Prod.snd).Perm (ended ++ op :: rest.map Prod.snd) :=
    (hrunning.map Prod.snd).append_left ended
  rw [List.append_assoc]
  exact hperm.trans hrest

/-- When nothing is under way, all that was begun has come in some order. -/
theorem Serial.result (h : Serial apply start begun ([] : List (ι × ο)) value) :
    ∃ order : List ο, order.Perm begun ∧
      value = order.foldl (fun v op => apply op v) start := by
  obtain ⟨ended, hperm, hvalue⟩ := h
  refine ⟨ended, ?_, hvalue⟩
  simpa using hperm.symm

end Sentinel.Trace
