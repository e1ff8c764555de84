/-
Sentinel.Retry.Attempts — attempts one after another, up to a limit.

Attempts count on from the last one made. `stop` is the attempt a loop ends
with: the first one that decides, or the last one it has. `latest` is what a
variable holds that each attempt may set.
-/
import Mathlib.Data.List.Range

namespace Sentinel.Retry

variable {β : Type*}

/-- The first attempt behind `start` that decides, among the next `left`; the
last of them if none does. -/
def stop (decides : Nat → Bool) (start left : Nat) : Nat :=
  ((List.range' (start + 1) left).find? decides).getD (start + left)

/-- The attempts from `start` on, up to `last`. -/
def attempts (start last : Nat) : List Nat := List.range' (start + 1) (last - start)

/-- What the latest attempt gave that gave something. -/
def latest (gives : Nat → Option β) (made : List Nat) : Option β := (made.filterMap gives).getLast?

theorem stop_zero (decides : Nat → Bool) (start : Nat) : stop decides start 0 = start := rfl

theorem stop_succ (decides : Nat → Bool) (start left : Nat) :
    stop decides start (left + 1) =
      if decides (start + 1) then start + 1 else stop decides (start + 1) left := by
  unfold stop
  rw [List.range'_succ, List.find?_cons]
  cases decides (start + 1) with
  | true => rfl
  | false =>
    have hlast : start + (left + 1) = start + 1 + left := by omega
    simp [hlast]

/-- A loop with an attempt left makes one, and no more than it has. -/
theorem stop_bounds (decides : Nat → Bool) (start left : Nat) :
    start ≤ stop decides start left ∧ stop decides start left ≤ start + left ∧
      (0 < left → start < stop decides start left) := by
  induction left generalizing start with
  | zero => simp [stop_zero]
  | succ left ih =>
    obtain ⟨hlow, hhigh, -⟩ := ih (start + 1)
    rw [stop_succ]
    split
    · omega
    · omega

/-- Before the last attempt nothing decides. -/
theorem undecided_before_stop {decides : Nat → Bool} {start left n : Nat} (hstart : start < n)
    (hn : n < stop decides start left) : decides n = false := by
  induction left generalizing start with
  | zero => rw [stop_zero] at hn; omega
  | succ left ih =>
    rw [stop_succ] at hn
    cases hfirst : decides (start + 1) with
    | true =>
      rw [hfirst, if_pos rfl] at hn
      omega
    | false =>
      rw [hfirst] at hn
      by_cases heq : n = start + 1
      · rw [heq, hfirst]
      · exact ih (by omega) hn

/-- Only the attempts there are count. -/
theorem stop_congr {p q : Nat → Bool} {start left : Nat}
    (h : ∀ n, start < n → n ≤ start + left → p n = q n) : stop p start left = stop q start left := by
  induction left generalizing start with
  | zero => rfl
  | succ left ih =>
    have hrest : ∀ n, start + 1 < n → n ≤ start + 1 + left → p n = q n :=
      fun n hlow hhigh => h n (by omega) (by omega)
    rw [stop_succ, stop_succ, h (start + 1) (by omega) (by omega), ih hrest]

/-- The attempts up to one that lies ahead: the next, and those behind it. -/
theorem attempts_cons {start last : Nat} (h : start < last) :
    attempts start last = (start + 1) :: attempts (start + 1) last := by
  unfold attempts
  obtain ⟨n, hn⟩ : ∃ n, last - start = n + 1 := ⟨last - start - 1, by omega⟩
  have hrest : last - (start + 1) = n := by omega
  rw [hn, hrest, List.range'_succ]

theorem attempts_self (start : Nat) : attempts start start = [] := by simp [attempts]

/-- Of attempts of which only the last one may, as many do as the last. -/
theorem countP_attempts {p : Nat → Bool} {start last : Nat} (hlast : start < last)
    (h : ∀ n, start < n → n < last → p n = false) :
    (attempts start last).countP p = if p last then 1 else 0 := by
  obtain ⟨n, rfl⟩ : ∃ n, last = start + 1 + n := ⟨last - start - 1, by omega⟩
  have hnone : (List.range' (start + 1) n).countP p = 0 := by
    rw [List.countP_eq_zero]
    intro m hm
    obtain ⟨hlow, hhigh⟩ := List.mem_range'_1.mp hm
    simp [h m (by omega) hhigh]
  have hlength : start + 1 + n - start = n + 1 := by omega
  rw [attempts, hlength, List.range'_1_concat, List.countP_append, hnone, List.countP_singleton,
    Nat.zero_add]

/-- A variable that the first attempt may set and the rest may set again. -/
theorem latest_cons (gives : Nat → Option β) (n : Nat) (made : List Nat) (before : Option β) :
    (latest gives (n :: made)).or before = (latest gives made).or ((gives n).or before) := by
  unfold latest
  cases hn : gives n with
  | none => simp [hn]
  | some b =>
    simp only [List.filterMap_cons, hn, List.getLast?_cons, Option.some_or]
    cases (made.filterMap gives).getLast? <;> rfl

end Sentinel.Retry
