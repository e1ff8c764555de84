/-
Sentinel.Core.AcquireLoop — `RateLimiter.acquire` comes back.

`acquire` polls `try_acquire` and sleeps between two attempts. How long it
sleeps is computed from the rate at one moment, which others may cut before
it wakes, so the sleeps say little about the next attempt. What every sleep
brings is a hundredth of a second at the floor of the rate: an attempt that
is denied leaves that much more in the bucket than the one before it, and
only so many fit below the cost.
-/
import Sentinel.Core.SkewedClocks
import Sentinel.Trace.Fairness

namespace Sentinel.Core

open Sentinel.Py Sentinel.Redis Sentinel.TokenBucket Sentinel.Trace

/-! ## A call of acquire -/

/-- Where a call of `acquire` stands: in `try_acquire` since a time, asleep
until a time, or back. -/
inductive Polling where
  | trying (since : ℚ)
  | asleep (wake : ℚ)
  | back
  deriving DecidableEq

/-- A worker in `acquire`, with the results of its attempts so far. -/
structure AcquireRun where
  system : LimiterSystem
  polling : Polling
  results : List AcquireResult

/-- What happens next: something else, or the turn of the worker. -/
inductive AcquireAction where
  | others (a : LimiterAction)
  | turn
  deriving DecidableEq

/-- One action. The worker's turn is a command of `try_acquire`; behind its
last one the worker is back, or goes to sleep for
`min(result.wait_seconds, 5.0) + 0.01`. A sleep may last longer. -/
def RateLimiter.poll (lim : RateLimiter) (w : ℕ) (call : AcquireCall) (p : AcquireRun) :
    AcquireAction → AcquireRun
  | .others a => { p with system := lim.step p.system a }
  | .turn =>
      match p.polling with
      | .trying _ =>
          let system := lim.step p.system (.advance w)
          match (lim.command p.system.now p.system.redis (p.system.workers w)).2.2 with
          | [] => { p with system := system }
          | attempt :: _ =>
              { system := system
                polling :=
                  if attempt.result.allowed then .back
                  else .asleep (p.system.now + (min attempt.result.waitSeconds 5 + 1 / 100))
                results := p.results ++ [attempt.result] }
      | .asleep wake =>
          if wake ≤ p.system.now then
            { p with
              system := lim.step p.system (.start w (.tryAcquire call))
              polling := .trying p.system.now }
          else p
      | .back => p

/-- The call begins with an attempt. -/
def RateLimiter.acquire (lim : RateLimiter) (w : ℕ) (call : AcquireCall) (s : LimiterSystem) :
    AcquireRun where
  system := lim.step s (.start w (.tryAcquire call))
  polling := .trying s.now
  results := []

/-- The state behind the first `n` actions of a schedule. -/
def RateLimiter.acquiring (lim : RateLimiter) (w : ℕ) (call : AcquireCall) (s : LimiterSystem)
    (schedule : ℕ → AcquireAction) (n : ℕ) : AcquireRun :=
  trajectory (lim.poll w call) (lim.acquire w call s) schedule n

/-- The worker can go on: it does not sleep, or may wake. -/
def AcquireRun.Awake (p : AcquireRun) : Prop :=
  match p.polling with
  | .asleep wake => wake ≤ p.system.now
  | _ => True

/-! ## The others -/

/-- The worker is in an attempt on the target. -/
def Worker.acquiresFrom (target : Str) : Worker → Bool
  | .getRate call | .watch call _ _ | .readBucket call _ _ _ | .readClock call _ _ _ _
  | .exec call _ _ _ _ _ => call.targetId = target
  | _ => false

/-- Nobody else takes tokens from the target, and no `EXEC` of the call
fails. Reports on the target, and anything on other targets, may happen at
any time. -/
def Undisputed (w : ℕ) (target : Str) (p : AcquireRun) : AcquireAction → Prop
  | .others (.tick _) => True
  | .others (.start w' op) => w' ≠ w ∧ op.begin.acquiresFrom target = false
  | .others (.advance w') => w' ≠ w
  | .turn => ∀ call rate tries watch raw reading,
      p.system.workers w = .exec call rate tries watch raw reading →
        p.system.redis.changed p.system.now watch = false

theorem command_acquiresFrom (lim : RateLimiter) (now : ℚ) (redis : LimiterStore) {target : Str}
    {worker : Worker} (h : worker.acquiresFrom target = false) :
    (lim.command now redis worker).2.1.acquiresFrom target = false := by
  cases worker with
  | exec call rate tries watch raw reading =>
    cases hchanged : redis.changed now watch with
    | true =>
      rw [command_exec_conflict hchanged]
      cases tries with
      | zero => rfl
      | succ tries => exact h
    | false =>
      rw [command_exec_commit hchanged]
      rfl
  | setBackpressure targetId newFactor ttl =>
    simp only [RateLimiter.command]
    split <;> rfl
  | getForSuccess targetId =>
    simp only [RateLimiter.command]
    split
    · rfl
    · split <;> rfl
  | _ => exact h

theorem committing_of_acquiresFrom {target : Str} {worker : Worker}
    (h : worker.acquiresFrom target = false) (redis : LimiterStore) (now : ℚ) :
    worker.committing target redis now = [] := by
  cases worker with
  | exec call rate tries watch raw reading =>
    have hother : ¬ call.targetId = target := of_decide_eq_false h
    simp [Worker.committing, hother]
  | _ => rfl

variable {lim : RateLimiter} {target : Str}

/-- An action that commits no attempt on the target leaves its bucket
alone. -/
theorem step_agreeOn {s : LimiterSystem} (h : SkewedInv target s) {a : LimiterAction}
    (hnone : ∀ w, a = .advance w → (s.workers w).committing target s.redis s.now = []) :
    s.redis.AgreeOn (lim.step s a).redis (bucketKey target) := by
  cases a with
  | tick seconds => exact ⟨rfl, rfl⟩
  | start w op =>
    rw [RateLimiter.step]
    split <;> exact ⟨rfl, rfl⟩
  | advance w =>
    rcases commandReading_cases h (h.workers w) s.now with
      ⟨-, hpassive⟩ | ⟨call, rate, tries, watch, raw, now, hw, ht, hchanged⟩
    · rw [commandReading_now] at hpassive
      exact hpassive.agree
    · have hcommits := hnone w rfl
      rw [hw] at hcommits
      simp [Worker.committing, ht, hchanged] at hcommits

theorem SkewedInv.step {s : LimiterSystem} (h : SkewedInv target s) (a : LimiterAction) :
    SkewedInv target (lim.step s a) := by
  cases a with
  | tick seconds => exact h.tick seconds
  | start w op =>
    have hkept : Unexpired target s (.start w op) := trivial
    have hstarted : SkewedInv target (lim.stepSkewed s (.start w op)) := (commits_step h hkept).1
    exact hstarted
  | advance w =>
    have hkept : Unexpired target s (.advance w s.now) := trivial
    rw [← stepSkewed_now]
    exact (commits_step h hkept).1

/-- A bucket nobody writes stays what it is until it expires. -/
theorem bucket_later {s s' : LimiterSystem} (hnow : s.now ≤ s'.now)
    (hagree : s.redis.AgreeOn s'.redis (bucketKey target)) {bucket : ℚ × ℚ}
    (h : s'.bucket target = some bucket) : s.bucket target = some bucket := by
  unfold LimiterSystem.bucket readBucket Store.get at h ⊢
  cases hfind : s'.redis.find? s'.now (bucketKey target) with
  | none => rw [hfind] at h; exact nomatch h
  | some e =>
    rw [hfind] at h
    have hsame : s.redis.find? s.now (bucketKey target) = some e := by
      unfold Store.find? at hfind ⊢
      rw [hagree.1] at hfind
      obtain ⟨hentry, hlive⟩ := Option.filter_eq_some_iff.mp hfind
      refine Option.filter_eq_some_iff.mpr ⟨hentry, ?_⟩
      unfold Entry.isLive at hlive ⊢
      cases hdeadline : e.deadline with
      | none => rfl
      | some d =>
        rw [hdeadline] at hlive
        simp only [Option.all_some, decide_eq_true_eq] at hlive ⊢
        linarith
    rw [hsame]
    exact h

/-! ## An attempt -/

/-- The tokens a second that the bucket gets at the very least. -/
def RateLimiter.floorRate (lim : RateLimiter) (baseRate : Option ℚ) : ℚ :=
  baseRate.getD lim.defaultRate * lim.minFactor

theorem floorRate_le (lim : RateLimiter) (baseRate factor : Option ℚ) :
    lim.floorRate baseRate ≤ lim.effectiveRate baseRate factor := le_max_right _ _

/-- Where a worker stands in an attempt that began at `since`. -/
def InAttempt (lim : RateLimiter) (call : AcquireCall) (since now : ℚ) : Worker → Prop
  | .getRate c => c = call ∧ since ≤ now
  | .watch c rate _ | .readBucket c rate _ _ | .readClock c rate _ _ _ =>
      c = call ∧ lim.floorRate call.baseRate ≤ rate ∧ since ≤ now
  | .exec c rate _ _ _ reading =>
      c = call ∧ lim.floorRate call.baseRate ≤ rate ∧ since ≤ reading ∧ reading ≤ now
  | _ => False

/-- The commands an attempt still has before it. -/
def Worker.commandsLeft : Worker → ℕ
  | .getRate _ => 5
  | .watch _ _ _ => 4
  | .readBucket _ _ _ _ => 3
  | .readClock _ _ _ _ _ => 2
  | .exec _ _ _ _ _ _ => 1
  | _ => 0

variable {call : AcquireCall}

theorem InAttempt.later {since now now' : ℚ} {worker : Worker}
    (h : InAttempt lim call since now worker) (hnow : now ≤ now') :
    InAttempt lim call since now' worker := by
  cases worker with
  | getRate c => exact ⟨h.1, h.2.trans hnow⟩
  | watch c rate tries => exact ⟨h.1, h.2.1, h.2.2.trans hnow⟩
  | readBucket c rate tries watch => exact ⟨h.1, h.2.1, h.2.2.trans hnow⟩
  | readClock c rate tries watch raw => exact ⟨h.1, h.2.1, h.2.2.trans hnow⟩
  | exec c rate tries watch raw reading => exact ⟨h.1, h.2.1, h.2.2.1, h.2.2.2.trans hnow⟩
  | _ => exact h

/-- A command of an attempt: the last one, or one that leads on to the next. -/
theorem attempt_command {since now : ℚ} {worker : Worker}
    (h : InAttempt lim call since now worker) (redis : LimiterStore) :
    (∃ rate tries watch raw reading, worker = .exec call rate tries watch raw reading) ∨
      (lim.command now redis worker).1 = redis ∧ (lim.command now redis worker).2.2 = [] ∧
        InAttempt lim call since now (lim.command now redis worker).2.1 ∧
        (lim.command now redis worker).2.1.commandsLeft < worker.commandsLeft := by
  cases worker with
  | getRate c =>
    obtain ⟨rfl, hsince⟩ := h
    exact Or.inr ⟨rfl, rfl, ⟨rfl, floorRate_le lim _ _, hsince⟩, Nat.lt_succ_self _⟩
  | watch c rate tries =>
    obtain ⟨rfl, hrate, hsince⟩ := h
    exact Or.inr ⟨rfl, rfl, ⟨rfl, hrate, hsince⟩, Nat.lt_succ_self _⟩
  | readBucket c rate tries watch =>
    obtain ⟨rfl, hrate, hsince⟩ := h
    exact Or.inr ⟨rfl, rfl, ⟨rfl, hrate, hsince⟩, Nat.lt_succ_self _⟩
  | readClock c rate tries watch raw =>
    obtain ⟨rfl, hrate, hsince⟩ := h
    exact Or.inr ⟨rfl, rfl, ⟨rfl, hrate, hsince, le_rfl⟩, Nat.lt_succ_self _⟩
  | exec c rate tries watch raw reading =>
    obtain ⟨rfl, -, -, -⟩ := h
    exact Or.inl ⟨rate, tries, watch, raw, reading, rfl⟩
  | _ => exact h.elim

/-- An attempt that is denied found a bucket, which holds what it held and
the refill. -/
theorem available_of_denied (hcost : call.cost ≤ lim.burst) {stored : StoredBucket} {c : Commit}
    (hc : c.cost = call.cost)
    (hdenied : (lim.commit stored c).2.allowed = false) :
    lim.available stored c < call.cost ∧ ∃ x ts, stored = some (x, ts) ∧
      lim.available stored c = x + max 0 (c.reading - ts) * c.rate := by
  have hless : lim.available stored c < call.cost := by
    rw [commit_eq] at hdenied
    unfold decideAcquire at hdenied
    split at hdenied
    · exact nomatch hdenied
    · next hnot => rwa [hc, not_le] at hnot
  refine ⟨hless, ?_⟩
  unfold RateLimiter.available RateLimiter.refill at hless ⊢
  cases stored with
  | none =>
    simp only [Option.map_none, Option.getD_none, sub_self, max_self, zero_mul, add_zero,
      min_self] at hless
    exact absurd hcost (not_le_of_gt hless)
  | some bucket =>
    obtain ⟨x, ts⟩ := bucket
    refine ⟨x, ts, rfl, ?_⟩
    simp only [Option.map_some, Option.getD_some] at hless ⊢
    rcases min_choice (lim.burst : ℚ) (x + max 0 (c.reading - ts) * c.rate) with hmin | hmin
    · rw [hmin] at hless
      exact absurd hcost (not_le_of_gt hless)
    · exact hmin

/-- An attempt that is granted takes its cost from what is there. -/
theorem commit_of_allowed {stored : StoredBucket} {c : Commit}
    (hallowed : (lim.commit stored c).2.allowed = true) :
    lim.commit stored c = ((lim.available stored c - c.cost, c.reading), ⟨true, 0⟩) := by
  rw [commit_eq] at hallowed ⊢
  unfold decideAcquire at hallowed ⊢
  split at hallowed
  · next henough => rw [if_pos henough]
  · exact nomatch hallowed

/-- One that is denied is not told to wait for less than nothing. -/
theorem waitSeconds_nonneg (hcost : call.cost ≤ lim.burst) {stored : StoredBucket} {c : Commit}
    (hc : c.cost = call.cost) (hrate : 0 ≤ c.rate)
    (hdenied : (lim.commit stored c).2.allowed = false) :
    0 ≤ (lim.commit stored c).2.waitSeconds := by
  obtain ⟨hless, -⟩ := available_of_denied hcost hc hdenied
  rw [← hc] at hless
  rw [commit_eq, decideAcquire, if_neg (not_le_of_gt hless)]
  exact div_nonneg (sub_nonneg.mpr hless.le) hrate

theorem storedTokens_of_bucket {s : LimiterSystem} {target : Str} {bucket : ℚ × ℚ}
    (h : s.bucket target = some bucket) : lim.storedTokens s target = bucket.1 := by
  show ((s.bucket target).map Prod.fst).getD _ = _
  rw [h]
  rfl

variable (lim) in
/-- What an `EXEC` that does not fail commits. -/
theorem exec_commits {s : LimiterSystem} (h : SkewedInv call.targetId s) {w : ℕ} {rate : ℚ}
    {tries : ℕ} {watch : Watch Str} {raw : StoredBucket} {reading : ℚ}
    (hw : s.workers w = .exec call rate tries watch raw reading)
    (hchanged : s.redis.changed s.now watch = false) :
    (lim.step s (.advance w)).bucket call.targetId =
        some (lim.commit (s.bucket call.targetId) ⟨reading, call.cost, rate⟩).1 ∧
      (lim.step s (.advance w)).workers w = .idle ∧
      (lim.command s.now s.redis (s.workers w)).2.2 = [⟨call.targetId, call.cost, reading,
        (lim.commit (s.bucket call.targetId) ⟨reading, call.cost, rate⟩).2⟩] := by
  have hcommits : Commits lim call.targetId s (lim.stepSkewed s (.advance w s.now))
      (committed call.targetId s (.advance w s.now)) :=
    (commits_exec h w s.now hw rfl hchanged).2
  have hbucket := hcommits.bucket
  have hcommitted : committed call.targetId s (.advance w s.now) = [⟨reading, call.cost, rate⟩] := by
    simp [committed, hw, Worker.committing, hchanged]
  rw [stepSkewed_now, hcommitted] at hbucket
  refine ⟨hbucket, ?_, ?_⟩
  · rw [step_advance, hw, command_exec_commit hchanged]
    exact if_pos rfl
  · rw [hw, command_exec_commit hchanged, bucket_of_exec h hw rfl hchanged]
    rfl

/-! ## What a call relies on -/

/-- How many attempts can be denied from so many tokens on. -/
def RateLimiter.maxDenied (lim : RateLimiter) (call : AcquireCall) (tokens : ℚ) : ℕ :=
  ⌈(call.cost - tokens) / (lim.floorRate call.baseRate / 100)⌉₊

/-- All attempts were denied, and each but the first left a hundredth of a
second's refill more than the one before it. -/
structure DeniedSoFar (lim : RateLimiter) (call : AcquireCall) (tokens : ℚ) (p : AcquireRun)
    (since : ℚ) : Prop where
  results : ∀ r ∈ p.results, r.allowed = false
  length : p.results.length ≤ lim.maxDenied call tokens
  level : ∀ x ts, p.system.bucket call.targetId = some (x, ts) →
    tokens + (p.results.length - 1 : ℕ) * (lim.floorRate call.baseRate / 100) ≤ x ∧
      (p.results ≠ [] → ts + 1 / 100 ≤ since)

/-- The last attempt was granted, and it was the only one. -/
def GrantedOnce (lim : RateLimiter) (call : AcquireCall) (tokens : ℚ)
    (results : List AcquireResult) : Prop :=
  ∃ denied, results = denied ++ [⟨true, 0⟩] ∧ (∀ r ∈ denied, r.allowed = false) ∧
    denied.length ≤ lim.maxDenied call tokens

/-- Where the worker stands, and what its attempts came to. -/
def Standing (lim : RateLimiter) (w : ℕ) (call : AcquireCall) (tokens : ℚ) (p : AcquireRun) : Prop :=
  match p.polling with
  | .trying since => InAttempt lim call since p.system.now (p.system.workers w) ∧
      DeniedSoFar lim call tokens p since
  | .asleep wake => p.system.workers w = .idle ∧ DeniedSoFar lim call tokens p wake
  | .back => GrantedOnce lim call tokens p.results

/-- A call of `acquire` by worker `w`, from so many tokens on. -/
structure Polls (lim : RateLimiter) (w : ℕ) (call : AcquireCall) (tokens : ℚ) (p : AcquireRun) :
    Prop where
  skewed : SkewedInv call.targetId p.system
  alone : ∀ w', w' ≠ w → (p.system.workers w').acquiresFrom call.targetId = false
  standing : Standing lim w call tokens p

/-- What the call does to the bucket in one action: nothing, unless an
attempt ends; an attempt that is denied leaves what it found or more, and
one that is granted leaves the refilled bucket less the cost. -/
structure TakesOnce (lim : RateLimiter) (call : AcquireCall) (p p' : AcquireRun) : Prop where
  untouched : p'.results = p.results →
    p.system.redis.AgreeOn p'.system.redis (bucketKey call.targetId)
  denied : ∀ r, p'.results = p.results ++ [r] → r.allowed = false →
    lim.storedTokens p.system call.targetId ≤ lim.storedTokens p'.system call.targetId
  granted : ∀ r, p'.results = p.results ++ [r] → r.allowed = true →
    ∃ rate reading, lim.floorRate call.baseRate ≤ rate ∧
      lim.storedTokens p'.system call.targetId =
        lim.refill rate (p.system.bucket call.targetId) reading - call.cost

variable {w : ℕ} {tokens : ℚ} {p : AcquireRun}

/-- An action that ends no attempt. -/
theorem TakesOnce.of_results {p' : AcquireRun} (hresults : p'.results = p.results)
    (hagree : p.system.redis.AgreeOn p'.system.redis (bucketKey call.targetId)) :
    TakesOnce lim call p p' where
  untouched _ := hagree
  denied r hr := by
    rw [hresults] at hr
    simp at hr
  granted r hr := by
    rw [hresults] at hr
    simp at hr

theorem DeniedSoFar.later {p' : AcquireRun} {since since' : ℚ}
    (h : DeniedSoFar lim call tokens p since) (hresults : p'.results = p.results)
    (hnow : p.system.now ≤ p'.system.now)
    (hagree : p.system.redis.AgreeOn p'.system.redis (bucketKey call.targetId))
    (hsince : since ≤ since') : DeniedSoFar lim call tokens p' since' where
  results := hresults ▸ h.results
  length := hresults ▸ h.length
  level x ts hbucket := by
    obtain ⟨hlevel, hts⟩ := h.level x ts (bucket_later hnow hagree hbucket)
    rw [hresults]
    exact ⟨hlevel, fun hne => (hts hne).trans hsince⟩

/-- The turns the worker still has before it, at most. -/
def AcquireRun.turnsLeft (lim : RateLimiter) (w : ℕ) (call : AcquireCall) (tokens : ℚ)
    (p : AcquireRun) : ℕ :=
  match p.polling with
  | .trying _ =>
      6 * (lim.maxDenied call tokens - p.results.length) + (p.system.workers w).commandsLeft
  | .asleep _ => 6 * (lim.maxDenied call tokens - p.results.length) + 6
  | .back => 0

/-! ## One action -/

/-- Something else happens. -/
theorem Polls.others (h : Polls lim w call tokens p) {a : LimiterAction}
    (hok : Undisputed w call.targetId p (.others a)) :
    Polls lim w call tokens (lim.poll w call p (.others a)) ∧
      TakesOnce lim call p (lim.poll w call p (.others a)) ∧
      (lim.poll w call p (.others a)).turnsLeft lim w call tokens = p.turnsLeft lim w call tokens := by
  have hfacts : (lim.step p.system a).workers w = p.system.workers w ∧
      p.system.now ≤ (lim.step p.system a).now ∧
      (∀ w', w' ≠ w → ((lim.step p.system a).workers w').acquiresFrom call.targetId = false) ∧
      ∀ w', a = .advance w' →
        (p.system.workers w').committing call.targetId p.system.redis p.system.now = [] := by
    cases a with
    | tick seconds =>
      exact ⟨rfl, le_add_of_nonneg_right (le_max_left _ _), h.alone, fun w' hw' => by cases hw'⟩
    | start w' op =>
      obtain ⟨hne, hop⟩ := hok
      rw [RateLimiter.step]
      split
      · refine ⟨if_neg hne.symm, le_rfl, fun v hv => ?_, fun w' hw' => by cases hw'⟩
        dsimp only
        split
        · exact hop
        · exact h.alone v hv
      · exact ⟨rfl, le_rfl, h.alone, fun w' hw' => by cases hw'⟩
    | advance w' =>
      have hne : w' ≠ w := hok
      rw [step_advance]
      refine ⟨if_neg hne.symm, le_rfl, fun v hv => ?_, fun v hv => ?_⟩
      · dsimp only
        split
        · exact command_acquiresFrom lim _ _ (h.alone w' hne)
        · exact h.alone v hv
      · obtain rfl := LimiterAction.advance.inj hv
        exact committing_of_acquiresFrom (h.alone w' hne) _ _
  obtain ⟨hworker, hnow, halone, hnone⟩ := hfacts
  have hagree : p.system.redis.AgreeOn (lim.step p.system a).redis (bucketKey call.targetId) :=
    step_agreeOn h.skewed hnone
  have hturns : (lim.poll w call p (.others a)).turnsLeft lim w call tokens =
      p.turnsLeft lim w call tokens := by
    unfold AcquireRun.turnsLeft RateLimiter.poll
    dsimp only
    rw [hworker]
  refine ⟨⟨h.skewed.step a, halone, ?_⟩, .of_results rfl hagree, hturns⟩
  have hstanding := h.standing
  unfold Standing at hstanding ⊢
  unfold RateLimiter.poll
  dsimp only
  cases hpolling : p.polling with
  | trying since =>
    rw [hpolling] at hstanding
    dsimp only at hstanding ⊢
    rw [hworker]
    exact ⟨hstanding.1.later hnow, hstanding.2.later rfl hnow hagree le_rfl⟩
  | asleep wake =>
    rw [hpolling] at hstanding
    exact ⟨hworker.trans hstanding.1, hstanding.2.later rfl hnow hagree le_rfl⟩
  | back =>
    rw [hpolling] at hstanding
    exact hstanding

/-- The next attempt finds at least a hundredth of a second's refill more
than the one before it left. -/
theorem DeniedSoFar.refilled (hfloor : 0 < lim.floorRate call.baseRate) {since : ℚ}
    (h : DeniedSoFar lim call tokens p since) {x ts rate reading : ℚ}
    (hstored : p.system.bucket call.targetId = some (x, ts))
    (hrate : lim.floorRate call.baseRate ≤ rate) (hreading : since ≤ reading) :
    tokens + p.results.length * (lim.floorRate call.baseRate / 100) ≤
      x + max 0 (reading - ts) * rate := by
  obtain ⟨hlevel, hts⟩ := h.level x ts hstored
  cases hempty : p.results with
  | nil =>
    rw [hempty] at hlevel
    have hgain : 0 ≤ max 0 (reading - ts) * rate :=
      mul_nonneg (le_max_left _ _) (hfloor.le.trans hrate)
    simp only [List.length_nil, Nat.zero_sub, Nat.cast_zero, zero_mul, add_zero] at hlevel ⊢
    linarith
  | cons r rest =>
    rw [hempty] at hlevel hts
    -- the sleep before this attempt brought a hundredth of a second
    have helapsed : 1 / 100 ≤ reading - ts := by
      have hslept := hts (List.cons_ne_nil r rest)
      linarith
    have hgain : lim.floorRate call.baseRate / 100 ≤ max 0 (reading - ts) * rate :=
      calc lim.floorRate call.baseRate / 100
          = 1 / 100 * lim.floorRate call.baseRate := by ring
        _ ≤ max 0 (reading - ts) * rate :=
          mul_le_mul (helapsed.trans (le_max_right _ _)) hrate hfloor.le (le_max_left _ _)
    simp only [List.length_cons, Nat.add_sub_cancel] at hlevel
    push_cast [List.length_cons]
    linarith

/-- **One more attempt is denied**: it leaves at least a hundredth of a
second's refill more than the one before it, and that still is less than
the cost. -/
theorem DeniedSoFar.deny (hfloor : 0 < lim.floorRate call.baseRate) (hcost : call.cost ≤ lim.burst)
    {since : ℚ} (h : DeniedSoFar lim call tokens p since) {rate reading : ℚ}
    (hrate : lim.floorRate call.baseRate ≤ rate) (hreading : since ≤ reading)
    (hdenied : (lim.commit (p.system.bucket call.targetId)
      ⟨reading, call.cost, rate⟩).2.allowed = false)
    (p' : AcquireRun)
    (hresults : p'.results = p.results ++
      [(lim.commit (p.system.bucket call.targetId) ⟨reading, call.cost, rate⟩).2])
    (hbucket : p'.system.bucket call.targetId =
      some (lim.commit (p.system.bucket call.targetId) ⟨reading, call.cost, rate⟩).1)
    {wake : ℚ} (hwake : reading + 1 / 100 ≤ wake) :
    p.results.length < lim.maxDenied call tokens ∧ DeniedSoFar lim call tokens p' wake := by
  obtain ⟨hless, x, ts, hstored, havailable⟩ := available_of_denied hcost rfl hdenied
  have hleft : tokens + p.results.length * (lim.floorRate call.baseRate / 100) ≤
      lim.available (p.system.bucket call.targetId) ⟨reading, call.cost, rate⟩ :=
    havailable ▸ h.refilled hfloor hstored hrate hreading
  have hmore : p.results.length < lim.maxDenied call tokens := by
    unfold RateLimiter.maxDenied
    rw [Nat.lt_ceil, lt_div_iff₀ (by positivity)]
    linarith
  refine ⟨hmore, ⟨?_, ?_, ?_⟩⟩
  · rw [hresults]
    exact List.forall_mem_append.mpr ⟨h.results, List.forall_mem_singleton.mpr hdenied⟩
  · rw [hresults, List.length_append, List.length_singleton]
    exact hmore
  · intro x' ts' hstored'
    rw [hbucket, commit_eq] at hstored'
    rw [commit_eq] at hdenied
    rw [decideAcquire_denied hdenied] at hstored'
    obtain ⟨rfl, rfl⟩ := Prod.mk.inj (Option.some.inj hstored')
    rw [hresults, List.length_append, List.length_singleton, Nat.add_sub_cancel]
    exact ⟨hleft, fun _ => hwake⟩

/-- What an action keeps, and how far it brings the worker. -/
structure Advances (lim : RateLimiter) (w : ℕ) (call : AcquireCall) (tokens : ℚ)
    (p p' : AcquireRun) : Prop where
  polls : Polls lim w call tokens p'
  takes : TakesOnce lim call p p'
  turns : p'.turnsLeft lim w call tokens < p.turnsLeft lim w call tokens

/-- The worker's own commands leave the others where they are. -/
theorem alone_advance (h : Polls lim w call tokens p) :
    ∀ w', w' ≠ w →
      ((lim.step p.system (.advance w)).workers w').acquiresFrom call.targetId = false := by
  intro w' hw'
  rw [step_advance]
  dsimp only
  rw [if_neg hw']
  exact h.alone w' hw'

/-- A command within an attempt. -/
theorem Polls.command (h : Polls lim w call tokens p) {since : ℚ} (hpolling : p.polling = .trying since)
    (hredis : (lim.command p.system.now p.system.redis (p.system.workers w)).1 = p.system.redis)
    (hfinished : (lim.command p.system.now p.system.redis (p.system.workers w)).2.2 = [])
    (hattempt : InAttempt lim call since p.system.now
      (lim.command p.system.now p.system.redis (p.system.workers w)).2.1)
    (hleft : (lim.command p.system.now p.system.redis (p.system.workers w)).2.1.commandsLeft <
      (p.system.workers w).commandsLeft) :
    Advances lim w call tokens p (lim.poll w call p .turn) := by
  have hpoll : lim.poll w call p .turn = { p with system := lim.step p.system (.advance w) } := by
    unfold RateLimiter.poll
    rw [hpolling]
    dsimp only
    rw [hfinished]
  have hworker : (lim.step p.system (.advance w)).workers w =
      (lim.command p.system.now p.system.redis (p.system.workers w)).2.1 := by
    rw [step_advance]
    exact if_pos rfl
  have hagree : p.system.redis.AgreeOn (lim.step p.system (.advance w)).redis
      (bucketKey call.targetId) := by
    rw [step_advance]
    dsimp only
    rw [hredis]
    exact ⟨rfl, rfl⟩
  have hstanding := h.standing
  unfold Standing at hstanding
  rw [hpolling] at hstanding
  rw [hpoll]
  have hskewed : SkewedInv call.targetId (lim.step p.system (.advance w)) := h.skewed.step _
  refine ⟨⟨hskewed, alone_advance h, ?_⟩, .of_results rfl hagree, ?_⟩
  · unfold Standing
    dsimp only
    rw [hpolling]
    dsimp only
    rw [hworker]
    exact ⟨hattempt, hstanding.2.later rfl le_rfl hagree le_rfl⟩
  · unfold AcquireRun.turnsLeft
    dsimp only
    rw [hpolling]
    dsimp only
    rw [hworker]
    omega

/-- The last command of an attempt: it is granted, and the worker is back,
or denied, and the worker goes to sleep. -/
theorem Polls.exec (hfloor : 0 < lim.floorRate call.baseRate) (hcost : call.cost ≤ lim.burst)
    (h : Polls lim w call tokens p) {since : ℚ} (hpolling : p.polling = .trying since) {rate : ℚ}
    {tries : ℕ} {watch : Watch Str} {raw : StoredBucket} {reading : ℚ}
    (hw : p.system.workers w = .exec call rate tries watch raw reading)
    (hchanged : p.system.redis.changed p.system.now watch = false) :
    Advances lim w call tokens p (lim.poll w call p .turn) := by
  obtain ⟨hbucket, hidle, hfinished⟩ := exec_commits lim h.skewed hw hchanged
  have hstanding := h.standing
  unfold Standing at hstanding
  rw [hpolling] at hstanding
  dsimp only at hstanding
  rw [hw] at hstanding
  obtain ⟨⟨-, hrate, hsince, hreading⟩, hdenied⟩ := hstanding
  have hpoll : lim.poll w call p .turn =
      { system := lim.step p.system (.advance w)
        polling := if (lim.commit (p.system.bucket call.targetId)
            ⟨reading, call.cost, rate⟩).2.allowed then .back
          else .asleep (p.system.now + (min (lim.commit (p.system.bucket call.targetId)
            ⟨reading, call.cost, rate⟩).2.waitSeconds 5 + 1 / 100))
        results := p.results ++ [(lim.commit (p.system.bucket call.targetId)
          ⟨reading, call.cost, rate⟩).2] } := by
    unfold RateLimiter.poll
    rw [hpolling]
    dsimp only
    rw [hfinished]
  have hbefore : p.turnsLeft lim w call tokens =
      6 * (lim.maxDenied call tokens - p.results.length) + 1 := by
    unfold AcquireRun.turnsLeft
    rw [hpolling]
    dsimp only
    rw [hw]
    rfl
  have hskewed : SkewedInv call.targetId (lim.step p.system (.advance w)) := h.skewed.step _
  have hstored : lim.storedTokens (lim.step p.system (.advance w)) call.targetId =
      (lim.commit (p.system.bucket call.targetId) ⟨reading, call.cost, rate⟩).1.1 :=
    storedTokens_of_bucket hbucket
  cases hallowed : (lim.commit (p.system.bucket call.targetId)
      ⟨reading, call.cost, rate⟩).2.allowed with
  | true =>
    have hcommit := commit_of_allowed hallowed
    rw [hpoll, hallowed, if_pos rfl]
    refine ⟨⟨hskewed, alone_advance h, ?_⟩, ⟨?_, ?_, ?_⟩, ?_⟩
    · show GrantedOnce lim call tokens _
      rw [hcommit]
      exact ⟨p.results, rfl, hdenied.results, hdenied.length⟩
    · intro hsame
      simp at hsame
    · intro r hr hno
      obtain rfl := List.singleton_inj.mp (List.append_cancel_left hr)
      rw [hallowed] at hno
      exact nomatch hno
    · intro r _ _
      refine ⟨rate, reading, hrate, hstored.trans ?_⟩
      rw [hcommit]
      rfl
    · rw [hbefore]
      exact Nat.succ_pos _
  | false =>
    have hwait : 0 ≤ (lim.commit (p.system.bucket call.targetId)
        ⟨reading, call.cost, rate⟩).2.waitSeconds :=
      waitSeconds_nonneg hcost rfl (hfloor.le.trans hrate) hallowed
    have hwake : reading + 1 / 100 ≤ p.system.now + (min (lim.commit (p.system.bucket call.targetId)
        ⟨reading, call.cost, rate⟩).2.waitSeconds 5 + 1 / 100) := by
      have hshort := le_min hwait (show (0 : ℚ) ≤ 5 by norm_num)
      linarith
    obtain ⟨hmore, hagain⟩ := hdenied.deny hfloor hcost hrate hsince hallowed
      (lim.poll w call p .turn) (by rw [hpoll]) (by rw [hpoll]; exact hbucket) hwake
    rw [hpoll, hallowed, if_neg Bool.false_ne_true] at hagain ⊢
    refine ⟨⟨hskewed, alone_advance h, ⟨hidle, hagain⟩⟩, ⟨?_, ?_, ?_⟩, ?_⟩
    · intro hsame
      simp at hsame
    · intro r _ _
      obtain ⟨-, x, ts, hfound, havailable⟩ := available_of_denied hcost rfl hallowed
      have hbefore' : lim.storedTokens p.system call.targetId = x := storedTokens_of_bucket hfound
      rw [commit_eq] at hallowed
      rw [hstored, commit_eq, decideAcquire_denied hallowed, hbefore', havailable]
      exact le_add_of_nonneg_right (mul_nonneg (le_max_left _ _) (hfloor.le.trans hrate))
    · intro r hr hyes
      obtain rfl := List.singleton_inj.mp (List.append_cancel_left hr)
      rw [hallowed] at hyes
      exact nomatch hyes
    · rw [hbefore]
      show 6 * (lim.maxDenied call tokens - (p.results ++ [_]).length) + 6 < _
      rw [List.length_append, List.length_singleton]
      omega

/-- A worker whose sleep is over begins the next attempt. -/
theorem Polls.wake (h : Polls lim w call tokens p) {wake : ℚ} (hpolling : p.polling = .asleep wake)
    (hwake : wake ≤ p.system.now) : Advances lim w call tokens p (lim.poll w call p .turn) := by
  have hstanding := h.standing
  unfold Standing at hstanding
  rw [hpolling] at hstanding
  obtain ⟨hidle, hdenied⟩ := hstanding
  have hpoll : lim.poll w call p .turn =
      { p with
        system := lim.step p.system (.start w (.tryAcquire call))
        polling := .trying p.system.now } := by
    unfold RateLimiter.poll
    rw [hpolling]
    exact if_pos hwake
  have hstart : lim.step p.system (.start w (.tryAcquire call)) =
      { p.system with
        workers := fun w' => if w' = w then .getRate call else p.system.workers w' } := by
    rw [RateLimiter.step, if_pos hidle]
    rfl
  have hskewed : SkewedInv call.targetId (lim.step p.system (.start w (.tryAcquire call))) :=
    h.skewed.step _
  rw [hstart] at hpoll hskewed
  rw [hpoll]
  refine ⟨⟨hskewed, fun w' hw' => ?_, ?_⟩, .of_results rfl ⟨rfl, rfl⟩, ?_⟩
  · dsimp only
    rw [if_neg hw']
    exact h.alone w' hw'
  · unfold Standing
    dsimp only
    rw [if_pos rfl]
    exact ⟨⟨rfl, le_rfl⟩, hdenied.later rfl le_rfl ⟨rfl, rfl⟩ hwake⟩
  · unfold AcquireRun.turnsLeft
    rw [hpolling]
    dsimp only
    rw [if_pos rfl]
    show 6 * _ + 5 < 6 * _ + 6
    omega

/-- A call that is back does nothing more. -/
theorem poll_back (hback : p.polling = .back) : lim.poll w call p .turn = p := by
  unfold RateLimiter.poll
  rw [hback]

/-- **A turn of the worker** leaves everything as it is, while it sleeps or
when it is back, or brings it on. -/
theorem Polls.turn (hfloor : 0 < lim.floorRate call.baseRate) (hcost : call.cost ≤ lim.burst)
    (h : Polls lim w call tokens p) (hok : Undisputed w call.targetId p .turn) :
    lim.poll w call p .turn = p ∧ (p.Awake → p.polling = .back) ∨
      Advances lim w call tokens p (lim.poll w call p .turn) := by
  cases hpolling : p.polling with
  | trying since =>
    have hstanding := h.standing
    unfold Standing at hstanding
    rw [hpolling] at hstanding
    rcases attempt_command hstanding.1 p.system.redis with
      ⟨rate, tries, watch, raw, reading, hw⟩ | ⟨hredis, hfinished, hattempt, hleft⟩
    · exact Or.inr (h.exec hfloor hcost hpolling hw (hok _ _ _ _ _ _ hw))
    · exact Or.inr (h.command hpolling hredis hfinished hattempt hleft)
  | asleep wake =>
    by_cases hwake : wake ≤ p.system.now
    · exact Or.inr (h.wake hpolling hwake)
    · refine Or.inl ⟨?_, fun hawake => ?_⟩
      · unfold RateLimiter.poll
        rw [hpolling]
        exact if_neg hwake
      · unfold AcquireRun.Awake at hawake
        rw [hpolling] at hawake
        exact absurd hawake hwake
  | back => exact Or.inl ⟨poll_back hpolling, fun _ => rfl⟩

/-- Any action keeps the invariant, takes from the bucket at most once, and
leaves the worker no more turns than it had. -/
theorem Polls.step (hfloor : 0 < lim.floorRate call.baseRate) (hcost : call.cost ≤ lim.burst)
    (h : Polls lim w call tokens p) (a : AcquireAction) (hok : Undisputed w call.targetId p a) :
    Polls lim w call tokens (lim.poll w call p a) ∧ TakesOnce lim call p (lim.poll w call p a) ∧
      (lim.poll w call p a).turnsLeft lim w call tokens ≤ p.turnsLeft lim w call tokens := by
  cases a with
  | others a =>
    obtain ⟨hpolls, htakes, hturns⟩ := h.others hok
    exact ⟨hpolls, htakes, hturns.le⟩
  | turn =>
    rcases h.turn hfloor hcost hok with ⟨hsame, -⟩ | hadvances
    · rw [hsame]
      exact ⟨h, .of_results rfl ⟨rfl, rfl⟩, le_rfl⟩
    · exact ⟨hadvances.polls, hadvances.takes, hadvances.turns.le⟩

/-! ## The whole call -/

/-- A worker that is busy with another target has read nothing of this one. -/
theorem readsStored_of_elsewhere {target : Str} {redis : LimiterStore} {now : ℚ} {worker : Worker}
    (h : worker.acquiresFrom target = false) : ReadsStored target redis now worker := by
  cases worker with
  | readBucket c rate tries watch => exact fun ht => absurd ht (of_decide_eq_false h)
  | readClock c rate tries watch raw => exact fun ht => absurd ht (of_decide_eq_false h)
  | exec c rate tries watch raw reading => exact fun ht => absurd ht (of_decide_eq_false h)
  | _ => trivial

/-- The call begins with the tokens that are stored. -/
theorem polls_acquire {s : LimiterSystem} (hidle : s.workers w = .idle)
    (halone : ∀ w', w' ≠ w → (s.workers w').acquiresFrom call.targetId = false)
    (hbucket : ∀ e, s.redis.entries (bucketKey call.targetId) = some e →
      ∃ x ts, e.value = .bucket x ts) :
    Polls lim w call (lim.storedTokens s call.targetId) (lim.acquire w call s) := by
  have hskewed : SkewedInv call.targetId s := by
    refine ⟨hbucket, fun v => ?_⟩
    by_cases hv : v = w
    · rw [hv, hidle]
      trivial
    · exact readsStored_of_elsewhere (halone v hv)
  have hstart : lim.step s (.start w (.tryAcquire call)) =
      { s with workers := fun w' => if w' = w then .getRate call else s.workers w' } := by
    rw [RateLimiter.step, if_pos hidle]
    rfl
  have hstep : SkewedInv call.targetId (lim.step s (.start w (.tryAcquire call))) := hskewed.step _
  unfold RateLimiter.acquire
  rw [hstart] at hstep ⊢
  refine ⟨hstep, fun w' hw' => ?_, ?_⟩
  · dsimp only
    rw [if_neg hw']
    exact halone w' hw'
  · unfold Standing
    dsimp only
    rw [if_pos rfl]
    refine ⟨⟨rfl, le_rfl⟩, ⟨fun r hr => absurd hr List.not_mem_nil, Nat.zero_le _, ?_⟩⟩
    intro x ts hstored
    have hfound : s.bucket call.targetId = some (x, ts) := hstored
    have htokens : lim.storedTokens s call.targetId = x := storedTokens_of_bucket hfound
    exact ⟨by simp [htokens], fun hne => absurd rfl hne⟩

/-- What a call of `acquire` is to do on a schedule. -/
structure AcquireReturns (lim : RateLimiter) (w : ℕ) (call : AcquireCall) (s : LimiterSystem)
    (schedule : ℕ → AcquireAction) : Prop where
  /-- It comes back. -/
  returns : ∃ n, (lim.acquiring w call s schedule n).polling = .back
  /-- When it is back, its last attempt was granted, and only that one. -/
  once : ∀ n, (lim.acquiring w call s schedule n).polling = .back →
    GrantedOnce lim call (lim.storedTokens s call.targetId)
      (lim.acquiring w call s schedule n).results
  /-- At no time it has made more attempts than that. -/
  attempts : ∀ n, (lim.acquiring w call s schedule n).results.length ≤
    lim.maxDenied call (lim.storedTokens s call.targetId) + 1
  takes : ∀ n, TakesOnce lim call (lim.acquiring w call s schedule n)
    (lim.acquiring w call s schedule (n + 1))

/-- **`acquire` comes back.** Whatever others report in the meantime, on
every schedule that keeps giving the worker its turn when it is awake, a
call whose cost the burst covers comes back after a bounded number of
attempts, with one attempt granted, and the denied ones took nothing. -/
theorem acquire_returns (lim : RateLimiter) (w : ℕ) (call : AcquireCall) (s : LimiterSystem)
    (schedule : ℕ → AcquireAction) (hrate : 0 < call.baseRate.getD lim.defaultRate)
    (hfactor : 0 < lim.minFactor) (hcost : call.cost ≤ lim.burst)
    (hidle : s.workers w = .idle)
    (halone : ∀ w', w' ≠ w → (s.workers w').acquiresFrom call.targetId = false)
    (hbucket : ∀ e, s.redis.entries (bucketKey call.targetId) = some e →
      ∃ x ts, e.value = .bucket x ts)
    (hundisputed : ∀ n, Undisputed w call.targetId (lim.acquiring w call s schedule n) (schedule n))
    (hfair : ∀ n, ∃ m, n ≤ m ∧ schedule m = .turn ∧
      (lim.acquiring w call s schedule m).Awake) :
    AcquireReturns lim w call s schedule := by
  have hfloor : 0 < lim.floorRate call.baseRate := mul_pos hrate hfactor
  have hpolls : ∀ n, Polls lim w call (lim.storedTokens s call.targetId)
      (lim.acquiring w call s schedule n) :=
    trajectory_invariant (fun p a h hok => (h.step hfloor hcost a hok).1)
      (polls_acquire hidle halone hbucket) hundisputed
  have hstep := fun n => (hpolls n).step hfloor hcost (schedule n) (hundisputed n)
  constructor
  case returns =>
    have hturns : ∀ n,
        AcquireRun.turnsLeft lim w call (lim.storedTokens s call.targetId)
            (trajectory (lim.poll w call) (lim.acquire w call s) schedule (n + 1)) ≤
          AcquireRun.turnsLeft lim w call (lim.storedTokens s call.targetId)
            (trajectory (lim.poll w call) (lim.acquire w call s) schedule n) :=
      fun n => (hstep n).2.2
    refine reaches_of_rank (fun p : AcquireRun => p.polling = .back) hturns fun n => ?_
    obtain ⟨m, hnm, hturn, hawake⟩ := hfair n
    refine ⟨m, hnm, ?_⟩
    have hok := hundisputed m
    rw [hturn] at hok
    rcases (hpolls m).turn hfloor hcost hok with ⟨-, hback⟩ | hadvances
    · exact Or.inl (hback hawake)
    · refine Or.inr ?_
      have hfalls := hadvances.turns
      rw [← hturn] at hfalls
      exact hfalls
  case once =>
    intro n hback
    have hstanding := (hpolls n).standing
    unfold Standing at hstanding
    rw [hback] at hstanding
    exact hstanding
  case attempts =>
    intro n
    have hstanding := (hpolls n).standing
    unfold Standing at hstanding
    cases hpolling : (lim.acquiring w call s schedule n).polling with
    | trying since =>
      rw [hpolling] at hstanding
      exact hstanding.2.length.trans (Nat.le_succ _)
    | asleep wake =>
      rw [hpolling] at hstanding
      exact hstanding.2.length.trans (Nat.le_succ _)
    | back =>
      rw [hpolling] at hstanding
      obtain ⟨denied, hresults, -, hlength⟩ := hstanding
      rw [hresults, List.length_append]
      exact Nat.succ_le_succ hlength
  case takes => exact fun n => (hstep n).2.1

/-! ## A contended call

Worker 1 has taken the whole burst and reports backpressure while worker 0
is in its first attempt. -/

/-- The `EXEC` that comes next fails. -/
def AcquireRun.disputed (w : ℕ) (p : AcquireRun) : Bool :=
  match p.system.workers w with
  | .exec _ _ _ watch _ _ => p.system.redis.changed p.system.now watch
  | _ => false

theorem undisputed_turn_iff :
    Undisputed w target p .turn ↔ p.disputed w = false := by
  unfold Undisputed AcquireRun.disputed
  cases hw : p.system.workers w with
  | exec call rate tries watch raw reading =>
    constructor
    · intro h
      exact h call rate tries watch raw reading rfl
    · intro h _ _ _ _ _ _ heq
      obtain ⟨-, -, -, rfl, -, -⟩ := Worker.exec.inj heq
      exact h
  | _ => simp

instance (a : AcquireAction) : Decidable (Undisputed w target p a) :=
  match a with
  | .others (.tick _) => isTrue trivial
  | .others (.start w' op) =>
      inferInstanceAs (Decidable (w' ≠ w ∧ op.begin.acquiresFrom target = false))
  | .others (.advance w') => inferInstanceAs (Decidable (w' ≠ w))
  | .turn => decidable_of_iff _ undisputed_turn_iff.symm

/-- The bucket is empty. -/
def drained : LimiterSystem :=
  { LimiterSystem.start 0 with
    redis := Store.empty.put (bucketKey "t".toList) (.bucket 0 0) (some 60) }

/-- The first attempt and the report overlap; the second attempt comes as
soon as the first has said, at half the rate, and so comes the third. -/
def contendedTurns : List AcquireAction :=
  [.turn, .turn, .others (.start 1 (.reportBackpressure "t".toList (1 / 2) 60)), .turn, .turn,
    .turn, .others (.advance 1), .turn, .others (.advance 1), .others (.tick (21 / 100)),
    .turn, .turn, .turn, .turn, .turn, .turn, .others (.tick (1 / 5)),
    .turn, .turn, .turn, .turn, .turn, .turn]

/-- Behind the list it is always the worker's turn. -/
def contendedSchedule (n : ℕ) : AcquireAction := contendedTurns.getD n .turn

def acquiringContended (n : ℕ) : AcquireRun :=
  defaultLimiter.acquiring 0 ⟨"t".toList, 1, none⟩ drained contendedSchedule n

theorem contendedSchedule_late {n : ℕ} (hn : 23 ≤ n) : contendedSchedule n = .turn := by
  show contendedTurns[n]?.getD .turn = .turn
  rw [List.getElem?_eq_none hn]
  rfl

theorem contended_back : (acquiringContended 23).polling = .back := by decide +kernel

/-- The call is back behind the list. -/
theorem acquiringContended_late {n : ℕ} (hn : 23 ≤ n) :
    acquiringContended n = acquiringContended 23 := by
  induction n, hn using Nat.le_induction with
  | base => rfl
  | succ n hn ih =>
    calc acquiringContended (n + 1)
        = defaultLimiter.poll 0 ⟨"t".toList, 1, none⟩ (acquiringContended n)
            (contendedSchedule n) := rfl
      _ = defaultLimiter.poll 0 ⟨"t".toList, 1, none⟩ (acquiringContended 23) .turn := by
          rw [ih, contendedSchedule_late hn]
      _ = acquiringContended 23 := poll_back contended_back

theorem contended_undisputed (n : ℕ) :
    Undisputed 0 "t".toList (acquiringContended n) (contendedSchedule n) := by
  rcases Nat.lt_or_ge n 23 with hn | hn
  · have hearly : ∀ i : Fin 23,
        Undisputed 0 "t".toList (acquiringContended i) (contendedSchedule i) := by decide +kernel
    exact hearly ⟨n, hn⟩
  · rw [acquiringContended_late hn, contendedSchedule_late hn]
    decide +kernel

/-- Two attempts are denied, between them and after them the worker sleeps,
and the third is granted. -/
theorem acquire_returns_contended :
    AcquireReturns defaultLimiter 0 ⟨"t".toList, 1, none⟩ drained contendedSchedule ∧
      (acquiringContended 23).results = [⟨false, 1 / 5⟩, ⟨false, 19 / 100⟩, ⟨true, 0⟩] := by
  have hbucket : drained.redis.entries (bucketKey "t".toList) = some ⟨.bucket 0 0, some 60⟩ := by
    decide +kernel
  refine ⟨acquire_returns defaultLimiter 0 ⟨"t".toList, 1, none⟩ drained contendedSchedule
    (by decide +kernel) (by decide +kernel) (by decide +kernel) rfl (fun _ _ => rfl) ?_
    contended_undisputed fun n => ?_, by decide +kernel⟩
  · intro e he
    obtain rfl := Option.some.inj (hbucket.symm.trans he)
    exact ⟨0, 0, rfl⟩
  · refine ⟨max n 23, le_max_left _ _, contendedSchedule_late (le_max_right _ _), ?_⟩
    show (acquiringContended (max n 23)).Awake
    rw [acquiringContended_late (le_max_right _ _)]
    unfold AcquireRun.Awake
    rw [contended_back]
    trivial

end Sentinel.Core
