/-
Sentinel.Core.TargetIndependence — targets do not share anything.

All targets use one Redis, and a worker may serve first one and then
another. Still the calls on other targets can be left out of a run: the
callers of a target are told the same, and its keys are the same
(`targets_apart`).
-/
import Sentinel.Core.RateLimiterTheorems

namespace Sentinel.Core

open Sentinel.Py Sentinel.Redis Sentinel.Trace

variable {lim : RateLimiter} {target : Str}

/-! ## The actions on one target -/

/-- Time passes, an idle worker starts a method on the target, or goes on
with one. -/
def LimiterSystem.concerns (s : LimiterSystem) (target : Str) : LimiterAction → Bool
  | .tick _ => true
  | .start w op => s.workers w = .idle ∧ op.begin.targetId = some target
  | .advance w => (s.workers w).targetId = some target

/-- The actions of a run that concern the target. -/
def RateLimiter.actionsOn (lim : RateLimiter) (target : Str) :
    LimiterSystem → List LimiterAction → List LimiterAction
  | _, [] => []
  | s, a :: actions =>
      if s.concerns target a then a :: lim.actionsOn target (lim.step s a) actions
      else lim.actionsOn target (lim.step s a) actions

/-- The attempts on the target. -/
def attemptsOn (target : Str) (log : List Attempt) : List Attempt :=
  log.filter fun a => a.targetId = target

/-- The keys of the target are the same. -/
structure SameKeys (target : Str) (redis redis' : LimiterStore) : Prop where
  bucket : redis.AgreeOn redis' (bucketKey target)
  factor : redis.AgreeOn redis' (factorKey target)

/-- A worker watches the bucket of its own target. -/
def Worker.WatchesOwn : Worker → Prop
  | .readBucket call _ _ w | .readClock call _ _ w _ | .exec call _ _ w _ _ =>
      w.key = bucketKey call.targetId
  | _ => True

/-- `alone` is what `s` is for the target. -/
structure Projects (target : Str) (s alone : LimiterSystem) : Prop where
  now : alone.now = s.now
  keys : SameKeys target s.redis alone.redis
  workers : ∀ w, alone.workers w =
    if (s.workers w).targetId = some target then s.workers w else .idle
  watches : ∀ w, (s.workers w).WatchesOwn
  log : alone.log = attemptsOn target s.log

theorem targetId_eq_none {worker : Worker} : worker.targetId = none ↔ worker = .idle := by
  constructor
  · intro h
    cases worker with
    | idle => rfl
    | _ => cases h
  · rintro rfl
    rfl

theorem projects_start (now : ℚ) : Projects target (.start now) (.start now) where
  now := rfl
  keys := ⟨⟨rfl, rfl⟩, ⟨rfl, rfl⟩⟩
  workers _ := rfl
  watches _ := trivial
  log := rfl

/-! ## Commands -/

theorem SameKeys.readFactor {redis redis' : LimiterStore} (h : SameKeys target redis redis')
    (now : ℚ) : readFactor redis' now target = readFactor redis now target := by
  unfold Core.readFactor
  rw [h.factor.get]

theorem SameKeys.readBucket {redis redis' : LimiterStore} (h : SameKeys target redis redis')
    (now : ℚ) : readBucket redis' now target = readBucket redis now target := by
  unfold Core.readBucket
  rw [h.bucket.get]

theorem SameKeys.readTtl {redis redis' : LimiterStore} (h : SameKeys target redis redis')
    (now : ℚ) : readTtl redis' now (factorKey target) = readTtl redis now (factorKey target) := by
  unfold Core.readTtl
  rw [h.factor.find?]

theorem SameKeys.put {redis redis' : LimiterStore} (h : SameKeys target redis redis') (key : Str)
    (value : LimiterValue) (deadline : Option ℚ) :
    SameKeys target (redis.put key value deadline) (redis'.put key value deadline) :=
  ⟨h.bucket.put key value deadline, h.factor.put key value deadline⟩

/-- A key of another target is written. -/
theorem sameKeys_putBucket {t : Str} (ht : t ≠ target) (redis : LimiterStore) (value : LimiterValue)
    (deadline : Option ℚ) : SameKeys target redis (redis.put (bucketKey t) value deadline) where
  bucket := Store.put_agreeOn (fun heq => ht (bucketKey_inj.mp heq).symm) _ _
  factor := Store.put_agreeOn (fun heq => bucketKey_ne_factorKey t target heq.symm) _ _

theorem sameKeys_putFactor {t : Str} (ht : t ≠ target) (redis : LimiterStore) (value : LimiterValue)
    (deadline : Option ℚ) : SameKeys target redis (redis.put (factorKey t) value deadline) where
  bucket := Store.put_agreeOn (bucketKey_ne_factorKey target t) _ _
  factor := Store.put_agreeOn (fun heq => ht (factorKey_inj.mp heq).symm) _ _

theorem sameKeys_eraseFactor {t : Str} (ht : t ≠ target) (redis : LimiterStore) :
    SameKeys target redis (redis.erase (factorKey t)) where
  bucket := Store.erase_agreeOn (bucketKey_ne_factorKey target t)
  factor := Store.erase_agreeOn (fun heq => ht (factorKey_inj.mp heq).symm)

theorem SameKeys.refl (target : Str) (redis : LimiterStore) : SameKeys target redis redis :=
  ⟨⟨rfl, rfl⟩, ⟨rfl, rfl⟩⟩

/-- A method keeps to its target, and watches its bucket. -/
theorem command_keeps {worker : Worker} {t : Str} (ht : worker.targetId = some t)
    (hwatch : worker.WatchesOwn) (now : ℚ) (redis : LimiterStore) :
    let next := (lim.command now redis worker).2.1
    (next = .idle ∨ next.targetId = some t) ∧ next.WatchesOwn := by
  cases worker with
  | idle => cases ht
  | getRate call => exact ⟨.inr ht, trivial⟩
  | watch call rate tries => exact ⟨.inr ht, rfl⟩
  | readBucket call rate tries watch => exact ⟨.inr ht, hwatch⟩
  | readClock call rate tries watch raw => exact ⟨.inr ht, hwatch⟩
  | exec call rate tries watch raw reading =>
    cases hchanged : redis.changed now watch with
    | true =>
      rw [command_exec_conflict hchanged]
      cases tries with
      | zero => exact ⟨.inl rfl, trivial⟩
      | succ tries => exact ⟨.inr ht, trivial⟩
    | false =>
      rw [command_exec_commit hchanged]
      exact ⟨.inl rfl, trivial⟩
  | getForBackpressure targetId factor ttl => exact ⟨.inr ht, trivial⟩
  | setBackpressure targetId newFactor ttl =>
    simp only [RateLimiter.command]
    split <;> exact ⟨.inl rfl, trivial⟩
  | getForSuccess targetId =>
    simp only [RateLimiter.command]
    split
    · exact ⟨.inl rfl, trivial⟩
    · split <;> exact ⟨.inr ht, trivial⟩
  | deleteFactor targetId => exact ⟨.inl rfl, trivial⟩
  | readTtl targetId recovered => exact ⟨.inr ht, trivial⟩
  | setRecovered targetId recovered ttl => exact ⟨.inl rfl, trivial⟩

/-- An attempt is one on the target of its worker. -/
theorem attemptsOn_command {worker : Worker} (ht : worker.targetId = some target) (now : ℚ)
    (redis : LimiterStore) :
    attemptsOn target (lim.command now redis worker).2.2 = (lim.command now redis worker).2.2 := by
  cases worker with
  | exec call rate tries watch raw reading =>
    obtain rfl := Option.some.inj ht
    cases hchanged : redis.changed now watch with
    | true =>
      rw [command_exec_conflict hchanged]
      cases tries <;> simp [attemptsOn]
    | false =>
      rw [command_exec_commit hchanged]
      simp [attemptsOn]
  | setBackpressure targetId newFactor ttl =>
    simp only [RateLimiter.command]
    split <;> rfl
  | getForSuccess targetId =>
    simp only [RateLimiter.command]
    split
    · rfl
    · split <;> rfl
  | _ => rfl

/-- **A command on another target** leaves the keys of this one. -/
theorem command_other {worker : Worker} (ht : worker.targetId ≠ some target) (now : ℚ)
    (redis : LimiterStore) :
    SameKeys target redis (lim.command now redis worker).1 ∧
      attemptsOn target (lim.command now redis worker).2.2 = [] := by
  have hattempt : ∀ {t cost reading result}, some t ≠ some target →
      attemptsOn target [⟨t, cost, reading, result⟩] = [] := by
    intro t cost reading result hne
    have hother : t ≠ target := fun heq => hne (congrArg some heq)
    simp [attemptsOn, hother]
  have hne : ∀ {t : Str}, some t ≠ some target → t ≠ target := fun h heq => h (congrArg some heq)
  cases worker with
  | exec call rate tries watch raw reading =>
    cases hchanged : redis.changed now watch with
    | true =>
      rw [command_exec_conflict hchanged]
      cases tries with
      | zero => exact ⟨.refl target redis, hattempt ht⟩
      | succ tries => exact ⟨.refl target redis, rfl⟩
    | false =>
      rw [command_exec_commit hchanged]
      exact ⟨sameKeys_putBucket (hne ht) redis _ _, hattempt ht⟩
  | setBackpressure targetId newFactor ttl =>
    simp only [RateLimiter.command]
    split
    · exact ⟨sameKeys_putFactor (hne ht) redis _ _, rfl⟩
    · exact ⟨.refl target redis, rfl⟩
  | getForSuccess targetId =>
    simp only [RateLimiter.command]
    split
    · exact ⟨.refl target redis, rfl⟩
    · split <;> exact ⟨.refl target redis, rfl⟩
  | deleteFactor targetId => exact ⟨sameKeys_eraseFactor (hne ht) redis, rfl⟩
  | setRecovered targetId recovered ttl => exact ⟨sameKeys_putFactor (hne ht) redis _ _, rfl⟩
  | _ => exact ⟨.refl target redis, rfl⟩

/-- **A command on the target** looks at its keys only. -/
theorem command_same {redis redis' : LimiterStore} (h : SameKeys target redis redis')
    {worker : Worker} (ht : worker.targetId = some target) (hwatch : worker.WatchesOwn) (now : ℚ) :
    SameKeys target (lim.command now redis worker).1 (lim.command now redis' worker).1 ∧
      (lim.command now redis' worker).2 = (lim.command now redis worker).2 := by
  cases worker with
  | idle => cases ht
  | getRate call =>
    obtain rfl := Option.some.inj ht
    refine ⟨h, ?_⟩
    simp only [RateLimiter.command]
    rw [h.readFactor]
  | watch call rate tries =>
    obtain rfl := Option.some.inj ht
    refine ⟨h, ?_⟩
    simp only [RateLimiter.command]
    rw [h.bucket.watch]
  | readBucket call rate tries watch =>
    obtain rfl := Option.some.inj ht
    refine ⟨h, ?_⟩
    simp only [RateLimiter.command]
    rw [h.readBucket]
  | readClock call rate tries watch raw => exact ⟨h, rfl⟩
  | exec call rate tries watch raw reading =>
    obtain rfl := Option.some.inj ht
    have hkey : watch.key = bucketKey call.targetId := hwatch
    have hbucket : redis.AgreeOn redis' watch.key := hkey ▸ h.bucket
    have hsame : redis'.changed now watch = redis.changed now watch := hbucket.changed now
    cases hchanged : redis.changed now watch with
    | true =>
      rw [command_exec_conflict hchanged, command_exec_conflict (hsame.trans hchanged)]
      cases tries with
      | zero => exact ⟨h, rfl⟩
      | succ tries => exact ⟨h, rfl⟩
    | false =>
      rw [command_exec_commit hchanged, command_exec_commit (hsame.trans hchanged)]
      exact ⟨h.put _ _ _, rfl⟩
  | getForBackpressure targetId factor ttl =>
    obtain rfl := Option.some.inj ht
    refine ⟨h, ?_⟩
    simp only [RateLimiter.command]
    rw [h.readFactor]
  | setBackpressure targetId newFactor ttl =>
    simp only [RateLimiter.command]
    split
    · exact ⟨h.put _ _ _, rfl⟩
    · exact ⟨h, rfl⟩
  | getForSuccess targetId =>
    obtain rfl := Option.some.inj ht
    simp only [RateLimiter.command]
    rw [h.readFactor]
    split
    · exact ⟨h, rfl⟩
    · split <;> exact ⟨h, rfl⟩
  | deleteFactor targetId => exact ⟨⟨h.bucket.erase _, h.factor.erase _⟩, rfl⟩
  | readTtl targetId recovered =>
    obtain rfl := Option.some.inj ht
    refine ⟨h, ?_⟩
    simp only [RateLimiter.command]
    rw [h.readTtl]
  | setRecovered targetId recovered ttl => exact ⟨h.put _ _ _, rfl⟩

/-! ## Runs -/

theorem SameKeys.trans {redis redis' redis'' : LimiterStore} (h : SameKeys target redis redis')
    (h' : SameKeys target redis' redis'') : SameKeys target redis redis'' :=
  ⟨h.bucket.trans h'.bucket, h.factor.trans h'.factor⟩

theorem SameKeys.symm {redis redis' : LimiterStore} (h : SameKeys target redis redis') :
    SameKeys target redis' redis := ⟨h.bucket.symm, h.factor.symm⟩

theorem attemptsOn_append (xs ys : List Attempt) :
    attemptsOn target (xs ++ ys) = attemptsOn target xs ++ attemptsOn target ys :=
  List.filter_append ..

/-- A worker that is not on the target is idle in the projection. -/
theorem Projects.idle {s alone : LimiterSystem} (h : Projects target s alone) {w : ℕ}
    (hw : (s.workers w).targetId ≠ some target) : alone.workers w = .idle := by
  rw [h.workers, if_neg hw]

/-- Where a worker stands behind a command: idle, or on its target. -/
theorem command_next {worker : Worker} (hwatch : worker.WatchesOwn) (now : ℚ)
    (redis : LimiterStore) :
    let next := (lim.command now redis worker).2.1
    (next = .idle ∨ next.targetId = worker.targetId) ∧ next.WatchesOwn := by
  cases ht : worker.targetId with
  | none =>
    obtain rfl := targetId_eq_none.mp ht
    exact ⟨.inl rfl, trivial⟩
  | some t => exact command_keeps ht hwatch now redis

/-- An action that concerns another target only. -/
theorem Projects.others {s alone : LimiterSystem} (h : Projects target s alone)
    {a : LimiterAction} (ha : s.concerns target a = false) :
    Projects target (lim.step s a) alone := by
  cases a with
  | tick seconds => cases ha
  | start w op =>
    rw [RateLimiter.step]
    split
    · next hidle =>
      have hother : op.begin.targetId ≠ some target := by
        simpa [LimiterSystem.concerns, hidle] using ha
      refine ⟨h.now, h.keys, fun w' => ?_, fun w' => ?_, h.log⟩
      · dsimp only
        split
        · next heq =>
          rw [heq]
          refine h.idle ?_
          rw [hidle]
          simp [Worker.targetId]
        · exact h.workers w'
      · dsimp only
        split
        · cases op <;> trivial
        · exact h.watches w'
    · exact h
  | advance w =>
    have hother : (s.workers w).targetId ≠ some target := of_decide_eq_false ha
    obtain ⟨hkeys, hlog⟩ := command_other hother s.now s.redis
    obtain ⟨hnext, hwatches⟩ := command_next (h.watches w) s.now s.redis
    rw [step_advance]
    refine ⟨h.now, hkeys.symm.trans h.keys, fun w' => ?_, fun w' => ?_, ?_⟩
    · dsimp only
      split
      · next heq =>
        have hstill : (lim.command s.now s.redis (s.workers w)).2.1.targetId ≠ some target := by
          rcases hnext with hidle | hsame
          · rw [hidle]
            simp [Worker.targetId]
          · rw [hsame]
            exact hother
        rw [heq, if_neg hstill]
        exact h.idle hother
      · exact h.workers w'
    · dsimp only
      split
      · exact hwatches
      · exact h.watches w'
    · rw [h.log, attemptsOn_append, hlog, List.append_nil]

/-- An action that concerns the target. -/
theorem Projects.same {s alone : LimiterSystem} (h : Projects target s alone)
    {a : LimiterAction} (ha : s.concerns target a = true) :
    Projects target (lim.step s a) (lim.step alone a) := by
  cases a with
  | tick seconds =>
    refine ⟨?_, h.keys, h.workers, h.watches, h.log⟩
    show alone.now + max 0 seconds = s.now + max 0 seconds
    rw [h.now]
  | start w op =>
    obtain ⟨hidle, hop⟩ : s.workers w = .idle ∧ op.begin.targetId = some target :=
      of_decide_eq_true ha
    have halone : alone.workers w = .idle := by
      refine h.idle ?_
      rw [hidle]
      simp [Worker.targetId]
    rw [RateLimiter.step, if_pos hidle, RateLimiter.step, if_pos halone]
    refine ⟨h.now, h.keys, fun w' => ?_, fun w' => ?_, h.log⟩
    · dsimp only
      split
      · rfl
      · exact h.workers w'
    · dsimp only
      split
      · cases op <;> trivial
      · exact h.watches w'
  | advance w =>
    have hon : (s.workers w).targetId = some target := of_decide_eq_true ha
    have hworker : alone.workers w = s.workers w := by rw [h.workers, if_pos hon]
    obtain ⟨hkeys, hsame⟩ := command_same h.keys hon (h.watches w) s.now
    obtain ⟨hnext, hwatches⟩ := command_next (h.watches w) s.now s.redis
    rw [step_advance, step_advance, hworker, h.now, hsame]
    refine ⟨rfl, hkeys, fun w' => ?_, fun w' => ?_, ?_⟩
    · dsimp only
      split
      · rcases hnext with hidle | hstill
        · rw [hidle]
          split <;> rfl
        · rw [if_pos (hstill.trans hon)]
      · exact h.workers w'
    · dsimp only
      split
      · exact hwatches
      · exact h.watches w'
    · rw [h.log, attemptsOn_append, attemptsOn_command hon]

theorem Projects.run {s alone : LimiterSystem} (h : Projects target s alone)
    (actions : List LimiterAction) :
    Projects target (run lim.step s actions) (run lim.step alone (lim.actionsOn target s actions)) := by
  induction actions generalizing s alone with
  | nil => exact h
  | cons a actions ih =>
    rw [RateLimiter.actionsOn]
    split
    · next ha => exact ih (h.same ha)
    · next ha => exact ih (h.others (by simpa using ha))

/-- **Targets do not share anything.** Whatever workers do on however many
targets, commands in any order: for each target the run is the one in which
only its own calls were made. The attempts on it had these results, and its
bucket and its factor are the same. -/
theorem targets_apart (lim : RateLimiter) (target : Str) (now : ℚ)
    (actions : List LimiterAction) :
    let all := run lim.step (.start now) actions
    let alone := run lim.step (.start now) (lim.actionsOn target (.start now) actions)
    alone.log = attemptsOn target all.log ∧
      readBucket alone.redis alone.now target = readBucket all.redis all.now target ∧
      readFactor alone.redis alone.now target = readFactor all.redis all.now target := by
  intro all alone
  have h : Projects target all alone := (projects_start now).run actions
  rw [h.now]
  exact ⟨h.log, h.keys.readBucket all.now, h.keys.readFactor all.now⟩

end Sentinel.Core
