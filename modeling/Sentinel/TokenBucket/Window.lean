/-
Sentinel.TokenBucket.Window — the bound a token bucket puts on every
window of time.

A log lists what was issued and when. `Level b r log x t` says that a
bucket of capacity `b` and rate `r` may hold `x` tokens at time `t` after
this log: what was issued since any earlier moment, and the level, fit
into the capacity and the refill since that moment. Each operation of a
bucket keeps it, and it bounds what any window sees.
-/
import Mathlib.Algebra.Order.Field.Basic
import Mathlib.Algebra.BigOperators.Group.List.Basic
import Mathlib.Tactic.Linarith
import Mathlib.Tactic.Ring

namespace Sentinel.TokenBucket

variable {K : Type*} [Field K] [LinearOrder K]

/-- Tokens handed out at a moment. -/
structure Issue (K : Type*) where
  time : K
  cost : K

/-- What was issued from `s` on. -/
def issuedSince (log : List (Issue K)) (s : K) : K :=
  ((log.filter fun e => s ≤ e.time).map Issue.cost).sum

/-- What was issued in the window from `s` to `t`. -/
def issuedWithin (log : List (Issue K)) (s t : K) : K :=
  ((log.filter fun e => s ≤ e.time ∧ e.time ≤ t).map Issue.cost).sum

/-- No window sees more than the capacity and its own refill. -/
def WindowBounded (b r : K) (log : List (Issue K)) : Prop :=
  ∀ s t, s ≤ t → issuedWithin log s t ≤ b + r * (t - s)

/-- The bucket may hold `x` tokens at time `t`. -/
structure Level (b r : K) (log : List (Issue K)) (x t : K) : Prop where
  past : ∀ e ∈ log, e.time ≤ t
  since : ∀ s ≤ t, issuedSince log s + x ≤ b + r * (t - s)
  window : WindowBounded b r log

theorem issuedSince_snoc (log : List (Issue K)) (e : Issue K) (s : K) :
    issuedSince (log ++ [e]) s = issuedSince log s + if s ≤ e.time then e.cost else 0 := by
  by_cases h : s ≤ e.time <;> simp [issuedSince, h]

theorem issuedWithin_snoc (log : List (Issue K)) (e : Issue K) (s t : K) :
    issuedWithin (log ++ [e]) s t =
      issuedWithin log s t + if s ≤ e.time ∧ e.time ≤ t then e.cost else 0 := by
  by_cases h : s ≤ e.time ∧ e.time ≤ t <;> simp [issuedWithin, h]

/-- Nothing was issued after the last moment of the log. -/
theorem issuedSince_eq_zero {log : List (Issue K)} {s t : K} (hpast : ∀ e ∈ log, e.time ≤ t)
    (hs : t < s) : issuedSince log s = 0 := by
  have hnone : (log.filter fun e => decide (s ≤ e.time)) = [] := by
    rw [List.filter_eq_nil_iff]
    intro e he
    simpa using lt_of_le_of_lt (hpast e he) hs
  simp [issuedSince, hnone]

/-- A window that covers the end of the log sees all since its start. -/
theorem issuedWithin_eq_issuedSince {log : List (Issue K)} {s t : K}
    (hpast : ∀ e ∈ log, e.time ≤ t) : issuedWithin log s t = issuedSince log s := by
  have hsame : (log.filter fun e => decide (s ≤ e.time ∧ e.time ≤ t)) =
      log.filter fun e => decide (s ≤ e.time) := by
    refine List.filter_congr fun e he => ?_
    simp [hpast e he]
  rw [issuedWithin, hsame, issuedSince]

/-- A window with the whole log in it sees all of it. -/
theorem issuedWithin_eq_sum {log : List (Issue K)} {s t : K}
    (h : ∀ e ∈ log, s ≤ e.time ∧ e.time ≤ t) :
    issuedWithin log s t = (log.map Issue.cost).sum := by
  have hall : (log.filter fun e => decide (s ≤ e.time ∧ e.time ≤ t)) = log :=
    List.filter_eq_self.mpr fun e he => decide_eq_true (h e he)
  rw [issuedWithin, hall]

variable [IsStrictOrderedRing K] {b r : K} {log : List (Issue K)} {x t : K}

/-- A full bucket before anything was issued. -/
theorem Level.init (hb : 0 ≤ b) (hr : 0 ≤ r) (t : K) : Level b r [] b t where
  past := by simp
  since s hs := by
    have := mul_nonneg hr (sub_nonneg.mpr hs)
    simpa [issuedSince] using this
  window s t hst := by
    have := mul_nonneg hr (sub_nonneg.mpr hst)
    simp only [issuedWithin, List.filter_nil, List.map_nil, List.sum_nil]
    linarith

/-- What is left of a level at time `t`, seen from a later moment `t'`. -/
theorem Level.since_later {t' : K} (h : Level b r log x t) (hr : 0 ≤ r) {y : K}
    (hgain : y ≤ x + r * (t' - t)) (hcap : y ≤ b) :
    ∀ s ≤ t', issuedSince log s + y ≤ b + r * (t' - s) := by
  intro s hs
  rcases le_or_gt s t with hst | hts
  · have hsplit : r * (t' - s) = r * (t - s) + r * (t' - t) := by ring
    have := h.since s hst
    linarith
  · rw [issuedSince_eq_zero h.past hts]
    have := mul_nonneg hr (sub_nonneg.mpr hs)
    linarith

/-- A bucket that may hold a level may hold less. -/
theorem Level.mono {y : K} (h : Level b r log x t) (hy : y ≤ x) : Level b r log y t where
  past := h.past
  since s hs := by
    have := h.since s hs
    linarith
  window := h.window

/-- Time passes and the bucket refills, at its rate or slower. -/
theorem Level.elapse {t' rate : K} (h : Level b r log x t) (hr : 0 ≤ r) (hrate : rate ≤ r)
    (ht : t ≤ t') : Level b r log (min b (x + (t' - t) * rate)) t' where
  past e he := (h.past e he).trans ht
  since := by
    refine h.since_later hr ((min_le_right _ _).trans ?_) (min_le_left _ _)
    have := mul_le_mul_of_nonneg_left hrate (sub_nonneg.mpr ht)
    linarith
  window := h.window

/-- The bucket is full again when the refill since `t` covers it. -/
theorem Level.reset {t' : K} (h : Level b r log x t) (hr : 0 ≤ r) (hx : 0 ≤ x) (ht : t ≤ t')
    (hfull : b ≤ r * (t' - t)) : Level b r log b t' where
  past e he := (h.past e he).trans ht
  since := h.since_later hr (by linarith) le_rfl
  window := h.window

/-- Tokens that are there can be issued. -/
theorem Level.issue {cost : K} (h : Level b r log x t) (hr : 0 ≤ r) (hcost : cost ≤ x) :
    Level b r (log ++ [⟨t, cost⟩]) (x - cost) t where
  past e he := by
    rcases List.mem_append.mp he with he | he
    · exact h.past e he
    · rw [List.mem_singleton.mp he]
  since s hs := by
    rw [issuedSince_snoc, if_pos hs]
    have := h.since s hs
    linarith
  window s u hsu := by
    rw [issuedWithin_snoc]
    split
    · next hin =>
      have hpast : ∀ e ∈ log, e.time ≤ u := fun e he => (h.past e he).trans hin.2
      rw [issuedWithin_eq_issuedSince hpast]
      have hsince := h.since s hin.1
      have hlater : r * (t - s) ≤ r * (u - s) :=
        mul_le_mul_of_nonneg_left (sub_le_sub_right hin.2 s) hr
      linarith
    · rw [add_zero]
      exact h.window s u hsu

end Sentinel.TokenBucket
