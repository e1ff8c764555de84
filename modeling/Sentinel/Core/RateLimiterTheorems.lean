/-
Sentinel.Core.RateLimiterTheorems — the distributed bucket is a bucket.

Fix a target. `LimiterInv` ties its stored hash to the ideal bucket of
`Sentinel.TokenBucket.Window` over the attempts that succeeded so far, and
says of every worker what it may rely on where it stands: as long as the
watched version is the current one, what it read is still what is stored.
`LimiterInv.step` keeps it over every action, so it holds in every
interleaving; the bound is read off the ideal bucket.
-/
import Sentinel.Core.RateLimiter
import Sentinel.TokenBucket.Window
import Mathlib.Algebra.Order.Ring.Rat
import Mathlib.Tactic.NormNum

namespace Sentinel.Core

open Sentinel.Py Sentinel.Redis Sentinel.TokenBucket Sentinel.Trace

/-! ## Keys -/

theorem bucketKey_inj {t t' : Str} : bucketKey t = bucketKey t' ↔ t = t' := List.append_right_inj _

theorem factorKey_inj {t t' : Str} : factorKey t = factorKey t' ↔ t = t' := List.append_right_inj _

theorem bucketKey_ne_factorKey (t t' : Str) : bucketKey t ≠ factorKey t' := by
  intro h
  have hprefix := (List.append_inj h (by decide)).1
  revert hprefix
  decide

/-! ## The assumptions of the bound -/

/-- The configuration: a positive rate that refills the burst within the
hour that a bucket is kept, and a floor for the factor in (0, 1]. -/
structure Limits (lim : RateLimiter) (r : ℚ) : Prop where
  rate_pos : 0 < r
  burst_le : (lim.burst : ℚ) ≤ 3600 * r
  minFactor_pos : 0 < lim.minFactor
  minFactor_le : lim.minFactor ≤ 1

/-- What callers may ask for on a target: a positive cost at a base rate
of at most `r`, and factors in (0, 1]. -/
def LimiterOp.Admissible (lim : RateLimiter) (target : Str) (r : ℚ) : LimiterOp → Prop
  | .tryAcquire call => call.targetId = target →
      0 < call.cost ∧ 0 < call.baseRate.getD lim.defaultRate ∧
        call.baseRate.getD lim.defaultRate ≤ r
  | .reportBackpressure targetId factor _ => targetId = target → 0 < factor ∧ factor ≤ 1
  | .reportSuccess _ => True

/-- Only admissible methods are started. -/
def LimiterAction.Admissible (lim : RateLimiter) (target : Str) (r : ℚ) : LimiterAction → Prop
  | .start _ op => op.Admissible lim target r
  | _ => True

/-- The successful attempts on a target. -/
def issuesOf (log : List Attempt) (target : Str) : List (Issue ℚ) :=
  (log.filter fun a => a.targetId = target ∧ a.result.allowed).map fun a => ⟨a.reading, a.cost⟩

theorem issuesOf_append (xs ys : List Attempt) (target : Str) :
    issuesOf (xs ++ ys) target = issuesOf xs target ++ issuesOf ys target := by
  simp [issuesOf]

/-! ## The invariant -/

section

variable (lim : RateLimiter) (target : Str) (r : ℚ)

/-- The arguments of an attempt on the target, behind `_effective_rate`. -/
def AttemptOk (call : AcquireCall) (rate : ℚ) : Prop := 0 < call.cost ∧ 0 ≤ rate ∧ rate ≤ r

/-- A watch on the target's bucket, taken at the current version or an
older one; while it is the current one, an absent bucket stays absent. -/
structure WatchOk (redis : LimiterStore) (now : ℚ) (w : Watch Str) : Prop where
  key : w.key = bucketKey target
  version_le : w.version ≤ redis.version (bucketKey target)
  absent : redis.version (bucketKey target) = w.version → w.present = false →
    redis.find? now (bucketKey target) = none

/-- What was read is what is stored, as of the time `now`. -/
def ReadOk (redis : LimiterStore) (w : Watch Str) (raw : Option (ℚ × ℚ)) (now : ℚ) : Prop :=
  match raw with
  | some (tokens, ts) => w.present = true ∧ ts ≤ now ∧
      ∃ d, redis.entries (bucketKey target) = some ⟨.bucket tokens ts, d⟩
  | none => redis.find? now (bucketKey target) = none

/-- What a worker on the target may rely on. -/
def WorkerOk (redis : LimiterStore) (now : ℚ) : Worker → Prop
  | .idle | .getForSuccess _ | .deleteFactor _ => True
  | .getRate call => LimiterOp.Admissible lim target r (.tryAcquire call)
  | .watch call rate _ => call.targetId = target → AttemptOk r call rate
  | .readBucket call rate _ w => call.targetId = target →
      AttemptOk r call rate ∧ WatchOk target redis now w
  | .readClock call rate _ w raw => call.targetId = target →
      AttemptOk r call rate ∧ WatchOk target redis now w ∧
        (redis.version (bucketKey target) = w.version → ReadOk target redis w raw now)
  | .exec call rate _ w raw reading => call.targetId = target →
      AttemptOk r call rate ∧ WatchOk target redis now w ∧ reading ≤ now ∧
        (redis.version (bucketKey target) = w.version → ReadOk target redis w raw reading)
  | .getForBackpressure targetId factor ttl =>
      LimiterOp.Admissible lim target r (.reportBackpressure targetId factor ttl)
  | .setBackpressure targetId factor _ | .readTtl targetId factor | .setRecovered targetId factor _ =>
      targetId = target → factor ≤ 1

/-- The stored hash is a level of the ideal bucket, kept for an hour. -/
structure BucketOk (s : LimiterSystem) (e : Entry LimiterValue ℚ) (tokens ts d : ℚ) : Prop where
  entry : e = ⟨.bucket tokens ts, some d⟩
  level : Level (lim.burst : ℚ) r (issuesOf s.log target) tokens ts
  nonneg : 0 ≤ tokens
  capped : tokens ≤ lim.burst
  past : ts ≤ s.now
  deadline : ts + 3600 ≤ d

structure LimiterInv (s : LimiterSystem) : Prop where
  bucket : ∀ e, s.redis.entries (bucketKey target) = some e →
    ∃ tokens ts d, BucketOk lim target r s e tokens ts d
  fresh : s.redis.entries (bucketKey target) = none → issuesOf s.log target = []
  factor : ∀ e f, s.redis.entries (factorKey target) = some e → e.value = .factor f → f ≤ 1
  workers : ∀ w, WorkerOk lim target r s.redis s.now (s.workers w)

end

variable {lim : RateLimiter} {target : Str} {r : ℚ}

theorem limiterInv_start (now : ℚ) : LimiterInv lim target r (.start now) where
  bucket e h := by simp [LimiterSystem.start, Store.empty] at h
  fresh _ := rfl
  factor e f h := by simp [LimiterSystem.start, Store.empty] at h
  workers _ := trivial

/-- The window bound holds wherever the invariant does. -/
theorem LimiterInv.window (hlim : Limits lim r) {s : LimiterSystem} (h : LimiterInv lim target r s) :
    WindowBounded (lim.burst : ℚ) r (issuesOf s.log target) := by
  cases hentry : s.redis.entries (bucketKey target) with
  | none =>
    rw [h.fresh hentry]
    exact (Level.init (Nat.cast_nonneg _) hlim.rate_pos.le 0).window
  | some e =>
    obtain ⟨tokens, ts, d, hbucket⟩ := h.bucket e hentry
    exact hbucket.level.window

/-! ## Steps that leave the bucket alone -/

theorem find?_none_of_agree {redis redis' : LimiterStore} {k : Str} {now now' : ℚ}
    (hagree : redis'.entries k = redis.entries k) (hnow : now ≤ now')
    (h : redis.find? now k = none) : redis'.find? now' k = none := by
  rw [Store.find?_eq_none_iff] at h ⊢
  intro e he
  obtain ⟨d, hd, hle⟩ := h e (hagree ▸ he)
  exact ⟨d, hd, hle.trans hnow⟩

theorem WatchOk.of_agree {redis redis' : LimiterStore} {now now' : ℚ} {w : Watch Str}
    (h : WatchOk target redis now w) (hnow : now ≤ now')
    (hagree : redis.AgreeOn redis' (bucketKey target)) : WatchOk target redis' now' w where
  key := h.key
  version_le := hagree.2 ▸ h.version_le
  absent hversion hpresent :=
    find?_none_of_agree hagree.1 hnow (h.absent (hagree.2 ▸ hversion) hpresent)

theorem ReadOk.of_agree {redis redis' : LimiterStore} {w : Watch Str} {raw : Option (ℚ × ℚ)}
    {now now' : ℚ} (h : ReadOk target redis w raw now) (hnow : now ≤ now')
    (hagree : redis.AgreeOn redis' (bucketKey target)) : ReadOk target redis' w raw now' := by
  cases raw with
  | none => exact find?_none_of_agree hagree.1 hnow h
  | some pair =>
    obtain ⟨hpresent, hts, d, hd⟩ := h
    exact ⟨hpresent, hts.trans hnow, d, hagree.1.trans hd⟩

/-- A worker keeps what it relies on while the bucket stays as it is. -/
theorem WorkerOk.of_agree {redis redis' : LimiterStore} {now now' : ℚ} {w : Worker}
    (h : WorkerOk lim target r redis now w) (hnow : now ≤ now')
    (hagree : redis.AgreeOn redis' (bucketKey target)) : WorkerOk lim target r redis' now' w := by
  cases w with
  | readBucket call rate tries watch =>
    intro ht
    obtain ⟨hattempt, hwatch⟩ := h ht
    exact ⟨hattempt, hwatch.of_agree hnow hagree⟩
  | readClock call rate tries watch raw =>
    intro ht
    obtain ⟨hattempt, hwatch, hread⟩ := h ht
    exact ⟨hattempt, hwatch.of_agree hnow hagree,
      fun hv => (hread (hagree.2 ▸ hv)).of_agree hnow hagree⟩
  | exec call rate tries watch raw reading =>
    intro ht
    obtain ⟨hattempt, hwatch, hpast, hread⟩ := h ht
    exact ⟨hattempt, hwatch.of_agree hnow hagree, hpast.trans hnow,
      fun hv => (hread (hagree.2 ▸ hv)).of_agree le_rfl hagree⟩
  | _ => exact h

/-- Once the bucket is overwritten, no watch on it is current. -/
theorem WatchOk.of_overwritten {redis redis' : LimiterStore} {now : ℚ} {w : Watch Str}
    (h : WatchOk target redis now w)
    (hversion : redis.version (bucketKey target) < redis'.version (bucketKey target)) :
    WatchOk target redis' now w ∧ redis'.version (bucketKey target) ≠ w.version := by
  have hne : redis'.version (bucketKey target) ≠ w.version := by
    have := h.version_le
    omega
  exact ⟨⟨h.key, h.version_le.trans hversion.le, fun heq => absurd heq hne⟩, hne⟩

/-- Then a worker relies on nothing it read. -/
theorem WorkerOk.of_overwritten {redis redis' : LimiterStore} {now : ℚ} {w : Worker}
    (h : WorkerOk lim target r redis now w)
    (hversion : redis.version (bucketKey target) < redis'.version (bucketKey target)) :
    WorkerOk lim target r redis' now w := by
  cases w with
  | readBucket call rate tries watch =>
    intro ht
    obtain ⟨hattempt, hwatch⟩ := h ht
    exact ⟨hattempt, (hwatch.of_overwritten hversion).1⟩
  | readClock call rate tries watch raw =>
    intro ht
    obtain ⟨hattempt, hwatch, -⟩ := h ht
    obtain ⟨hwatch, hstale⟩ := hwatch.of_overwritten hversion
    exact ⟨hattempt, hwatch, fun heq => absurd heq hstale⟩
  | exec call rate tries watch raw reading =>
    intro ht
    obtain ⟨hattempt, hwatch, hpast, -⟩ := h ht
    obtain ⟨hwatch, hstale⟩ := hwatch.of_overwritten hversion
    exact ⟨hattempt, hwatch, hpast, fun heq => absurd heq hstale⟩
  | _ => exact h

/-- The frame rule of the invariant: bucket and successes stay, the factor
stays within bounds, and each worker stands where it did or at a place
that is in order. -/
theorem LimiterInv.of_agree {s s' : LimiterSystem} (h : LimiterInv lim target r s)
    (hnow : s.now ≤ s'.now) (hagree : s.redis.AgreeOn s'.redis (bucketKey target))
    (hlog : issuesOf s'.log target = issuesOf s.log target)
    (hfactor : ∀ e f, s'.redis.entries (factorKey target) = some e → e.value = .factor f → f ≤ 1)
    (hworkers : ∀ w, s'.workers w = s.workers w ∨
      WorkerOk lim target r s'.redis s'.now (s'.workers w)) :
    LimiterInv lim target r s' where
  bucket e he := by
    obtain ⟨tokens, ts, d, hbucket⟩ := h.bucket e (hagree.1 ▸ he)
    exact ⟨tokens, ts, d, hbucket.entry, hlog ▸ hbucket.level, hbucket.nonneg, hbucket.capped,
      hbucket.past.trans hnow, hbucket.deadline⟩
  fresh he := hlog.trans (h.fresh (hagree.1 ▸ he))
  factor := hfactor
  workers w := by
    rcases hworkers w with hsame | hok
    · rw [hsame]
      exact (h.workers w).of_agree hnow hagree
    · exact hok

/-! ## The factor -/

theorem readFactor_le {s : LimiterSystem} (h : LimiterInv lim target r s) :
    (readFactor s.redis s.now target).getD 1 ≤ 1 := by
  unfold readFactor Store.get
  cases hfind : s.redis.find? s.now (factorKey target) with
  | none => simp
  | some e =>
    cases hvalue : e.value with
    | bucket tokens ts => simp [hvalue]
    | factor f => simpa [hvalue] using h.factor e f (Store.entries_of_find? hfind) hvalue

/-- `_effective_rate` lies between 0 and the base rate. -/
theorem effectiveRate_bounds (hlim : Limits lim r) {baseRate factor : Option ℚ}
    (hpos : 0 < baseRate.getD lim.defaultRate) (hle : baseRate.getD lim.defaultRate ≤ r)
    (hfactor : factor.getD 1 ≤ 1) :
    0 ≤ lim.effectiveRate baseRate factor ∧ lim.effectiveRate baseRate factor ≤ r := by
  unfold RateLimiter.effectiveRate
  dsimp only
  have hfloor := mul_pos hpos hlim.minFactor_pos
  have hupper : ∀ {f : ℚ}, f ≤ 1 → baseRate.getD lim.defaultRate * f ≤ r := by
    intro f hf
    have := mul_le_mul_of_nonneg_left hf hpos.le
    linarith
  exact ⟨hfloor.le.trans (le_max_right _ _), max_le (hupper hfactor) (hupper hlim.minFactor_le)⟩

/-! ## The decision -/

/-- The tokens a worker computes from a valid read are a level of the
ideal bucket at its reading: refilled since the stored moment, or a full
bucket when there is none or its hour is over. -/
theorem refill_level (hlim : Limits lim r) {s : LimiterSystem} (h : LimiterInv lim target r s)
    {w : Watch Str} {raw : Option (ℚ × ℚ)} {reading rate : ℚ}
    (hread : ReadOk target s.redis w raw reading) (hrate : 0 ≤ rate ∧ rate ≤ r) :
    Level (lim.burst : ℚ) r (issuesOf s.log target) (lim.refill rate raw reading) reading ∧
      0 ≤ lim.refill rate raw reading := by
  have hr := hlim.rate_pos.le
  have hb : (0 : ℚ) ≤ lim.burst := Nat.cast_nonneg _
  cases raw with
  | some pair =>
    obtain ⟨tokens, ts⟩ := pair
    obtain ⟨-, hts, d, hentry⟩ := hread
    obtain ⟨tokens', ts', d', hbucket⟩ := h.bucket _ hentry
    have heq := hbucket.entry
    simp only [Entry.mk.injEq, LimiterValue.bucket.injEq] at heq
    obtain ⟨⟨rfl, rfl⟩, -⟩ := heq
    have helapsed : max 0 (reading - ts) = reading - ts := max_eq_right (sub_nonneg.mpr hts)
    simp only [RateLimiter.refill, Option.map_some, Option.getD_some, helapsed]
    refine ⟨hbucket.level.elapse hr hrate.2 hts, le_min hb ?_⟩
    have := mul_nonneg (sub_nonneg.mpr hts) hrate.1
    have := hbucket.nonneg
    linarith
  | none =>
    have hfull : lim.refill rate none reading = lim.burst := by simp [RateLimiter.refill]
    rw [hfull]
    refine ⟨?_, hb⟩
    cases hentry : s.redis.entries (bucketKey target) with
    | none =>
      rw [h.fresh hentry]
      exact Level.init hb hr reading
    | some e =>
      obtain ⟨tokens, ts, d, hbucket⟩ := h.bucket e hentry
      obtain ⟨d', hd', hover⟩ := (Store.find?_eq_none_iff _ _ _).mp hread e hentry
      obtain rfl : d = d' := by
        rw [hbucket.entry] at hd'
        exact Option.some.inj hd'
      have hhour : ts + 3600 ≤ reading := hbucket.deadline.trans hover
      refine hbucket.level.reset hr hbucket.nonneg (by linarith) ?_
      have := mul_le_mul_of_nonneg_left (show (3600 : ℚ) ≤ reading - ts by linarith) hr
      have := hlim.burst_le
      linarith

/-- The decision keeps the level, over the issue if there is one. -/
theorem decideAcquire_level (hr : 0 ≤ r) {b tokens reading : ℚ} (cost rate : ℚ)
    {log : List (Issue ℚ)} (hlevel : Level b r log tokens reading) :
    Level b r (log ++ if (decideAcquire tokens cost rate).2.allowed then [⟨reading, cost⟩] else [])
      (decideAcquire tokens cost rate).1 reading := by
  unfold decideAcquire
  split
  · next hcost => simpa using hlevel.issue hr hcost
  · simpa using hlevel

theorem decideAcquire_nonneg {tokens : ℚ} (hnonneg : 0 ≤ tokens) (cost rate : ℚ) :
    0 ≤ (decideAcquire tokens cost rate).1 := by
  unfold decideAcquire
  split
  · next hcost => exact sub_nonneg.mpr hcost
  · exact hnonneg

theorem refill_le (lim : RateLimiter) (rate : ℚ) (raw : Option (ℚ × ℚ)) (reading : ℚ) :
    lim.refill rate raw reading ≤ lim.burst := min_le_left _ _

theorem decideAcquire_le {cost : ℚ} (hcost : 0 < cost) (tokens rate : ℚ) :
    (decideAcquire tokens cost rate).1 ≤ tokens := by
  unfold decideAcquire
  split
  · exact sub_le_self tokens hcost.le
  · exact le_rfl

/-- A denied decision leaves the tokens. -/
theorem decideAcquire_denied {tokens cost rate : ℚ}
    (hdenied : (decideAcquire tokens cost rate).2.allowed = false) :
    (decideAcquire tokens cost rate).1 = tokens := by
  unfold decideAcquire at hdenied ⊢
  split at hdenied
  · simp at hdenied
  · next hcost => rw [if_neg hcost]

/-! ## Every action keeps the invariant -/

/-- A command that leaves the bucket alone. -/
theorem LimiterInv.of_command {s : LimiterSystem} (h : LimiterInv lim target r s) (w : ℕ)
    {redis : LimiterStore} {worker : Worker} {finished : List Attempt}
    (hagree : s.redis.AgreeOn redis (bucketKey target)) (hfinished : issuesOf finished target = [])
    (hfactor : ∀ e f, redis.entries (factorKey target) = some e → e.value = .factor f → f ≤ 1)
    (hok : WorkerOk lim target r redis s.now worker) :
    LimiterInv lim target r { s with
      redis := redis
      workers := fun w' => if w' = w then worker else s.workers w'
      log := s.log ++ finished } := by
  refine h.of_agree le_rfl hagree (by simp [issuesOf_append, hfinished]) hfactor fun w' => ?_
  by_cases hw : w' = w
  · exact Or.inr (by simpa [hw] using hok)
  · exact Or.inl (by simp [hw])

theorem issuesOf_other {a : Attempt} (h : a.targetId ≠ target ∨ a.result.allowed = false) :
    issuesOf [a] target = [] := by
  have hnot : ¬ (a.targetId = target ∧ a.result.allowed = true) := by
    rintro ⟨ht, hallowed⟩
    rcases h with h | h
    · exact h ht
    · exact Bool.false_ne_true (h.symm.trans hallowed)
  simp [issuesOf, hnot]

/-- An `EXEC` on the target that goes through: the decision was made on
what is still stored. -/
theorem LimiterInv.exec (hlim : Limits lim r) {s : LimiterSystem} (h : LimiterInv lim target r s)
    (w : ℕ) {watch : Watch Str} {raw : Option (ℚ × ℚ)} {reading cost rate : ℚ}
    (hread : ReadOk target s.redis watch raw reading) (hreading : reading ≤ s.now)
    (hcost : 0 < cost) (hrate : 0 ≤ rate ∧ rate ≤ r) :
    LimiterInv lim target r { s with
      redis := s.redis.put (bucketKey target)
        (.bucket (decideAcquire (lim.refill rate raw reading) cost rate).1 reading)
        (some (s.now + 3600))
      workers := fun w' => if w' = w then .idle else s.workers w'
      log := s.log ++
        [⟨target, cost, reading, (decideAcquire (lim.refill rate raw reading) cost rate).2⟩] } := by
  obtain ⟨hlevel, hnonneg⟩ := refill_level hlim h hread hrate
  replace hlevel := decideAcquire_level hlim.rate_pos.le cost rate hlevel
  replace hnonneg := decideAcquire_nonneg hnonneg cost rate
  have hcapped := (decideAcquire_le hcost (lim.refill rate raw reading) rate).trans
    (refill_le lim rate raw reading)
  generalize decideAcquire (lim.refill rate raw reading) cost rate = decision
    at hlevel hnonneg hcapped ⊢
  have hissues : issuesOf (s.log ++ [⟨target, cost, reading, decision.2⟩]) target =
      issuesOf s.log target ++ if decision.2.allowed then [⟨reading, cost⟩] else [] := by
    rw [issuesOf_append]
    cases hallowed : decision.2.allowed <;> simp [issuesOf, hallowed]
  constructor
  case bucket =>
    intro e he
    rw [Store.put_entries] at he
    refine ⟨decision.1, reading, s.now + 3600, (Option.some.inj he).symm, ?_, hnonneg, hcapped,
      hreading, ?_⟩
    · rw [hissues]
      exact hlevel
    · linarith
  case fresh =>
    intro he
    simp [Store.put_entries] at he
  case factor =>
    intro e f he
    have hother := Store.put_agreeOn (s := s.redis) (bucketKey_ne_factorKey target target).symm
      (.bucket decision.1 reading) (some (s.now + 3600))
    exact h.factor e f (hother.1 ▸ he)
  case workers =>
    intro w'
    dsimp only
    split
    · trivial
    · exact (h.workers w').of_overwritten (by rw [Store.put_version]; exact Nat.lt_succ_self _)

/-- A new factor of at most 1, or none, keeps the factor bound. -/
theorem factor_put {redis : LimiterStore} {targetId : Str} {value : ℚ} {deadline : Option ℚ}
    (h : ∀ e f, redis.entries (factorKey target) = some e → e.value = .factor f → f ≤ 1)
    (hvalue : targetId = target → value ≤ 1) :
    ∀ e f, (redis.put (factorKey targetId) (.factor value) deadline).entries (factorKey target) =
      some e → e.value = .factor f → f ≤ 1 := by
  intro e f he hf
  by_cases ht : targetId = target
  · subst ht
    rw [Store.put_entries, Option.some.injEq] at he
    subst he
    rw [← LimiterValue.factor.inj hf]
    exact hvalue rfl
  · have hkey : factorKey target ≠ factorKey targetId := fun heq => ht (factorKey_inj.mp heq).symm
    exact h e f ((Store.put_agreeOn hkey _ _).1 ▸ he) hf

/-- An `EXEC` whose watched key did not change commits the decision. -/
theorem command_exec_commit {now : ℚ} {redis : LimiterStore} {watch : Watch Str}
    (hchanged : redis.changed now watch = false) (call : AcquireCall) (rate : ℚ) (tries : ℕ)
    (raw : Option (ℚ × ℚ)) (reading : ℚ) :
    lim.command now redis (.exec call rate tries watch raw reading) =
      (redis.put (bucketKey call.targetId)
          (.bucket (decideAcquire (lim.refill rate raw reading) call.cost rate).1 reading)
          (some (now + 3600)), .idle,
        [⟨call.targetId, call.cost, reading,
          (decideAcquire (lim.refill rate raw reading) call.cost rate).2⟩]) := by
  unfold RateLimiter.command
  simp [hchanged]

/-- One whose watched key changed writes nothing. -/
theorem command_exec_conflict {now : ℚ} {redis : LimiterStore} {watch : Watch Str}
    (hchanged : redis.changed now watch = true) (call : AcquireCall) (rate : ℚ) (tries : ℕ)
    (raw : Option (ℚ × ℚ)) (reading : ℚ) :
    lim.command now redis (.exec call rate tries watch raw reading) =
      match tries with
      | 0 => (redis, .idle, [⟨call.targetId, call.cost, reading, ⟨false, 1 / rate⟩⟩])
      | tries + 1 => (redis, .watch call rate tries, []) := by
  unfold RateLimiter.command
  cases tries <;> simp [hchanged]

theorem step_advance (s : LimiterSystem) (w : ℕ) :
    lim.step s (.advance w) =
      { s with
        redis := (lim.command s.now s.redis (s.workers w)).1
        workers := fun w' =>
          if w' = w then (lim.command s.now s.redis (s.workers w)).2.1 else s.workers w'
        log := s.log ++ (lim.command s.now s.redis (s.workers w)).2.2 } := rfl

/-- The outcome of a command that leaves the target's bucket alone. -/
structure Quiet (lim : RateLimiter) (target : Str) (r : ℚ) (s : LimiterSystem)
    (out : LimiterStore × Worker × List Attempt) : Prop where
  agree : s.redis.AgreeOn out.1 (bucketKey target)
  finished : issuesOf out.2.2 target = []
  factor : ∀ e f, out.1.entries (factorKey target) = some e → e.value = .factor f → f ≤ 1
  worker : WorkerOk lim target r out.1 s.now out.2.1

/-- A command that only reads. -/
theorem Quiet.read {s : LimiterSystem} (h : LimiterInv lim target r s) {worker : Worker}
    (hok : WorkerOk lim target r s.redis s.now worker) :
    Quiet lim target r s (s.redis, worker, []) :=
  ⟨⟨rfl, rfl⟩, rfl, h.factor, hok⟩

/-- A fresh watch is in order. -/
theorem watchOk_watch (redis : LimiterStore) (now : ℚ) :
    WatchOk target redis now (redis.watch now (bucketKey target)) where
  key := rfl
  version_le := le_rfl
  absent _ hpresent := by simpa [Store.watch] using hpresent

/-- A bucket that is there under a current watch was there when the watch
was taken. -/
theorem WatchOk.present_of_find? {redis : LimiterStore} {now : ℚ} {w : Watch Str}
    (hwatch : WatchOk target redis now w) (hversion : redis.version (bucketKey target) = w.version)
    {e : Entry LimiterValue ℚ} (hfind : redis.find? now (bucketKey target) = some e) :
    w.present = true := by
  by_contra habsent
  have hnone := hwatch.absent hversion (by simpa using habsent)
  exact nomatch hnone.symm.trans hfind

/-- What was there when the watch was taken is there as long as the watched
key did not change. -/
theorem find?_of_unchanged {redis : LimiterStore} {now : ℚ} {w : Watch Str}
    (hkey : w.key = bucketKey target) (hchanged : redis.changed now w = false)
    (hpresent : w.present = true) {e : Entry LimiterValue ℚ}
    (hentry : redis.entries (bucketKey target) = some e) :
    redis.find? now (bucketKey target) = some e := by
  have hlive := ((Store.changed_eq_false_iff _ _ _).mp hchanged).2 hpresent
  rw [hkey] at hlive
  obtain ⟨e', he'⟩ := Option.isSome_iff_exists.mp hlive
  rwa [← Option.some.inj (hentry.symm.trans (Store.entries_of_find? he'))] at he'

/-- What `HMGET` returns under an unchanged watch is what is stored. -/
theorem readOk_readBucket {s : LimiterSystem} (h : LimiterInv lim target r s) {w : Watch Str}
    (hwatch : WatchOk target s.redis s.now w)
    (hversion : s.redis.version (bucketKey target) = w.version) :
    ReadOk target s.redis w (readBucket s.redis s.now target) s.now := by
  unfold readBucket Store.get
  cases hfind : s.redis.find? s.now (bucketKey target) with
  | none => simpa [ReadOk] using hfind
  | some e =>
    have hentry := Store.entries_of_find? hfind
    obtain ⟨tokens, ts, d, hbucket⟩ := h.bucket e hentry
    have hpresent := hwatch.present_of_find? hversion hfind
    rw [hbucket.entry] at hentry ⊢
    exact ⟨hpresent, hbucket.past, some d, hentry⟩

/-- An `EXEC` whose watched key changed only finishes the attempt, or
starts it over. -/
theorem quiet_exec_conflict {s : LimiterSystem} (h : LimiterInv lim target r s) {call : AcquireCall}
    {rate : ℚ} {tries : ℕ} {watch : Watch Str} {raw : Option (ℚ × ℚ)} {reading : ℚ}
    (hw : WorkerOk lim target r s.redis s.now (.exec call rate tries watch raw reading))
    (hchanged : s.redis.changed s.now watch = true) :
    Quiet lim target r s (lim.command s.now s.redis (.exec call rate tries watch raw reading)) := by
  rw [command_exec_conflict hchanged]
  cases tries with
  | zero => exact ⟨⟨rfl, rfl⟩, issuesOf_other (Or.inr rfl), h.factor, trivial⟩
  | succ tries => exact .read h fun ht => (hw ht).1

/-- An `EXEC` on another target writes another bucket. -/
theorem quiet_exec_other {s : LimiterSystem} (h : LimiterInv lim target r s) {call : AcquireCall}
    {watch : Watch Str} (ht : call.targetId ≠ target) (hchanged : s.redis.changed s.now watch = false)
    (rate : ℚ) (tries : ℕ) (raw : Option (ℚ × ℚ)) (reading : ℚ) :
    Quiet lim target r s (lim.command s.now s.redis (.exec call rate tries watch raw reading)) := by
  rw [command_exec_commit hchanged]
  have hkey : bucketKey target ≠ bucketKey call.targetId :=
    fun heq => ht (bucketKey_inj.mp heq).symm
  refine ⟨Store.put_agreeOn hkey _ _, issuesOf_other (Or.inl ht), fun e f he => ?_, trivial⟩
  have hfactor := Store.put_agreeOn (s := s.redis) (bucketKey_ne_factorKey call.targetId target).symm
  exact h.factor e f ((hfactor _ _).1 ▸ he)

/-- Deleting a factor leaves no factor, or the target's own. -/
theorem quiet_deleteFactor {s : LimiterSystem} (h : LimiterInv lim target r s) (targetId : Str) :
    Quiet lim target r s (lim.command s.now s.redis (.deleteFactor targetId)) := by
  refine ⟨Store.erase_agreeOn (bucketKey_ne_factorKey target targetId), rfl, fun e f he => ?_,
    trivial⟩
  by_cases ht : factorKey target = factorKey targetId
  · rw [RateLimiter.command, ht] at he
    simp [Store.erase_entries] at he
  · exact h.factor e f ((Store.erase_agreeOn ht).1 ▸ he)

/-- What a worker's next command does: it leaves the bucket alone, or it
is an `EXEC` on the target that goes through. -/
theorem command_cases (hlim : Limits lim r) {s : LimiterSystem} (h : LimiterInv lim target r s)
    {worker : Worker} (hw : WorkerOk lim target r s.redis s.now worker) :
    Quiet lim target r s (lim.command s.now s.redis worker) ∨
      ∃ call rate tries watch raw reading, worker = .exec call rate tries watch raw reading ∧
        call.targetId = target ∧ s.redis.changed s.now watch = false := by
  have hbucket : ∀ targetId, bucketKey target ≠ factorKey targetId :=
    bucketKey_ne_factorKey target
  cases worker with
  | idle => exact Or.inl (.read h trivial)
  | getRate call =>
    refine Or.inl (.read h fun ht => ?_)
    obtain ⟨hcost, hpos, hle⟩ := hw ht
    have hfactor := readFactor_le h
    rw [← ht] at hfactor
    exact ⟨hcost, effectiveRate_bounds hlim hpos hle hfactor⟩
  | watch call rate tries =>
    refine Or.inl (.read h fun ht => ⟨hw ht, ?_⟩)
    rw [ht]
    exact watchOk_watch s.redis s.now
  | readBucket call rate tries watch =>
    refine Or.inl (.read h fun ht => ⟨(hw ht).1, (hw ht).2, fun hversion => ?_⟩)
    rw [ht]
    exact readOk_readBucket h (hw ht).2 hversion
  | readClock call rate tries watch raw =>
    refine Or.inl (.read h fun ht => ?_)
    obtain ⟨hattempt, hwatch, hok⟩ := hw ht
    exact ⟨hattempt, hwatch, le_rfl, hok⟩
  | exec call rate tries watch raw reading =>
    cases hchanged : s.redis.changed s.now watch with
    | true => exact Or.inl (quiet_exec_conflict h hw hchanged)
    | false =>
      by_cases ht : call.targetId = target
      · exact Or.inr ⟨call, rate, tries, watch, raw, reading, rfl, ht, hchanged⟩
      · exact Or.inl (quiet_exec_other h ht hchanged rate tries raw reading)
  | getForBackpressure targetId factor ttl =>
    refine Or.inl (.read h fun ht => ?_)
    obtain ⟨hpos, hle⟩ := hw ht
    have hcurrent := readFactor_le h
    rw [← ht] at hcurrent
    have := mul_le_mul_of_nonneg_right hcurrent hpos.le
    exact max_le (by linarith) hlim.minFactor_le
  | setBackpressure targetId newFactor ttl =>
    refine Or.inl ?_
    rw [RateLimiter.command]
    split
    · exact ⟨Store.put_agreeOn (hbucket targetId) _ _, rfl, factor_put h.factor hw, trivial⟩
    · exact .read h trivial
  | getForSuccess targetId =>
    refine Or.inl ?_
    rw [RateLimiter.command]
    cases readFactor s.redis s.now targetId with
    | none => exact .read h trivial
    | some current =>
      dsimp only
      split
      · exact .read h trivial
      · exact .read h fun _ => min_le_left _ _
  | deleteFactor targetId => exact Or.inl (quiet_deleteFactor h targetId)
  | readTtl targetId recovered => exact Or.inl (.read h hw)
  | setRecovered targetId recovered ttl =>
    exact Or.inl ⟨Store.put_agreeOn (hbucket targetId) _ _, rfl, factor_put h.factor hw, trivial⟩

/-- A worker's next command keeps the invariant. -/
theorem LimiterInv.advance (hlim : Limits lim r) {s : LimiterSystem} (h : LimiterInv lim target r s)
    (w : ℕ) : LimiterInv lim target r (lim.step s (.advance w)) := by
  have hw := h.workers w
  rw [step_advance]
  rcases command_cases hlim h hw with
    hquiet | ⟨call, rate, tries, watch, raw, reading, hexec, ht, hchanged⟩
  · exact h.of_command w hquiet.agree hquiet.finished hquiet.factor hquiet.worker
  · rw [hexec] at hw ⊢
    obtain ⟨hattempt, hwatch, hreading, hread⟩ := hw ht
    have hversion := ((Store.changed_eq_false_iff _ _ _).mp hchanged).1
    rw [hwatch.key] at hversion
    rw [command_exec_commit hchanged, ht]
    exact h.exec hlim w (hread hversion) hreading hattempt.1 hattempt.2

theorem workerOk_begin {op : LimiterOp} (hop : op.Admissible lim target r) (redis : LimiterStore)
    (now : ℚ) : WorkerOk lim target r redis now op.begin := by
  cases op with
  | tryAcquire call => exact hop
  | reportBackpressure targetId factor ttl => exact hop
  | reportSuccess targetId => exact trivial

/-- One admissible action keeps the invariant. -/
theorem LimiterInv.step (hlim : Limits lim r) {s : LimiterSystem} (h : LimiterInv lim target r s)
    {a : LimiterAction} (ha : a.Admissible lim target r) : LimiterInv lim target r (lim.step s a) := by
  cases a with
  | tick seconds =>
    exact h.of_agree (show s.now ≤ s.now + max 0 seconds by simp) ⟨rfl, rfl⟩ rfl h.factor
      fun _ => Or.inl rfl
  | start w op =>
    rw [RateLimiter.step]
    split
    · refine h.of_agree le_rfl ⟨rfl, rfl⟩ rfl h.factor fun w' => ?_
      by_cases hw : w' = w
      · exact Or.inr (by simpa [hw] using workerOk_begin ha s.redis s.now)
      · exact Or.inl (by simp [hw])
    · exact h
  | advance w => exact h.advance hlim w

/-! ## What an action does to the bucket of a target -/

/-- The tokens a target's bucket stores, a full bucket when there is none. -/
def RateLimiter.storedTokens (lim : RateLimiter) (s : LimiterSystem) (target : Str) : ℚ :=
  ((readBucket s.redis s.now target).map Prod.fst).getD lim.burst

/-- An attempt that is denied, by the bucket or for contention, takes
nothing: the target's bucket holds at least as much as before. -/
def DeniedTakesNothing (lim : RateLimiter) (target : Str) (s : LimiterSystem) (a : LimiterAction) :
    Prop :=
  ∀ attempt, (lim.step s a).log = s.log ++ [attempt] → attempt.targetId = target →
    attempt.result.allowed = false →
      lim.storedTokens s target ≤ lim.storedTokens (lim.step s a) target

/-- Only a worker whose method is about the target writes its keys. -/
def KeysFramed (lim : RateLimiter) (target : Str) (s : LimiterSystem) (a : LimiterAction) : Prop :=
  (∀ w, a = .advance w → (s.workers w).targetId ≠ some target) →
    s.redis.AgreeOn (lim.step s a).redis (bucketKey target) ∧
      s.redis.AgreeOn (lim.step s a).redis (factorKey target)

/-- A command writes at most the bucket or the factor of its own target. -/
theorem command_writes (lim : RateLimiter) (now : ℚ) (redis : LimiterStore) (worker : Worker) :
    (lim.command now redis worker).1 = redis ∨
      ∃ targetId, worker.targetId = some targetId ∧
        ∀ k, k ≠ bucketKey targetId → k ≠ factorKey targetId →
          redis.AgreeOn (lim.command now redis worker).1 k := by
  cases worker with
  | exec call rate tries watch raw reading =>
    cases hchanged : redis.changed now watch with
    | true =>
      rw [command_exec_conflict hchanged]
      cases tries <;> exact Or.inl rfl
    | false =>
      rw [command_exec_commit hchanged]
      exact Or.inr ⟨call.targetId, rfl, fun k hk _ => Store.put_agreeOn hk _ _⟩
  | setBackpressure targetId newFactor ttl =>
    rw [RateLimiter.command]
    split
    · exact Or.inr ⟨targetId, rfl, fun k _ hk => Store.put_agreeOn hk _ _⟩
    · exact Or.inl rfl
  | getForSuccess targetId =>
    rw [RateLimiter.command]
    cases readFactor redis now targetId with
    | none => exact Or.inl rfl
    | some current =>
      dsimp only
      split <;> exact Or.inl rfl
  | deleteFactor targetId => exact Or.inr ⟨targetId, rfl, fun k _ hk => Store.erase_agreeOn hk⟩
  | setRecovered targetId recovered ttl =>
    exact Or.inr ⟨targetId, rfl, fun k _ hk => Store.put_agreeOn hk _ _⟩
  | _ => exact Or.inl rfl

theorem keysFramed (lim : RateLimiter) (target : Str) (s : LimiterSystem) (a : LimiterAction) :
    KeysFramed lim target s a := by
  intro hother
  cases a with
  | tick seconds => exact ⟨⟨rfl, rfl⟩, ⟨rfl, rfl⟩⟩
  | start w op =>
    rw [RateLimiter.step]
    split <;> exact ⟨⟨rfl, rfl⟩, ⟨rfl, rfl⟩⟩
  | advance w =>
    rw [step_advance]
    dsimp only
    rcases command_writes lim s.now s.redis (s.workers w) with hsame | ⟨t, ht, hwrites⟩
    · rw [hsame]
      exact ⟨⟨rfl, rfl⟩, ⟨rfl, rfl⟩⟩
    · have hne : t ≠ target := fun heq => hother w rfl (heq ▸ ht)
      exact ⟨hwrites _ (fun heq => hne (bucketKey_inj.mp heq).symm) (bucketKey_ne_factorKey _ _),
        hwrites _ (bucketKey_ne_factorKey _ _).symm fun heq => hne (factorKey_inj.mp heq).symm⟩

/-- Only an `EXEC` finishes an attempt. -/
theorem exec_of_finished {now : ℚ} {redis : LimiterStore} {worker : Worker} {attempt : Attempt}
    (h : (lim.command now redis worker).2.2 = [attempt]) :
    ∃ call rate tries watch raw reading, worker = .exec call rate tries watch raw reading := by
  cases worker with
  | exec call rate tries watch raw reading => exact ⟨_, _, _, _, _, _, rfl⟩
  | setBackpressure targetId newFactor ttl =>
    rw [RateLimiter.command] at h
    split at h <;> cases h
  | getForSuccess targetId =>
    rw [RateLimiter.command] at h
    cases hread : readFactor redis now targetId with
    | none => rw [hread] at h; cases h
    | some current =>
      rw [hread] at h
      dsimp only at h
      split at h <;> cases h
  | _ => cases h

/-- What a valid read computes is at least what is stored. -/
theorem storedTokens_le_refill {s : LimiterSystem} (h : LimiterInv lim target r s)
    {w : Watch Str} (hwatch : w.key = bucketKey target) (hchanged : s.redis.changed s.now w = false)
    {raw : Option (ℚ × ℚ)} {reading rate : ℚ} (hread : ReadOk target s.redis w raw reading)
    (hreading : reading ≤ s.now) (hrate : 0 ≤ rate) :
    lim.storedTokens s target ≤ lim.refill rate raw reading := by
  unfold RateLimiter.storedTokens readBucket Store.get
  cases raw with
  | none =>
    rw [find?_none_of_agree rfl hreading hread]
    simp [RateLimiter.refill]
  | some pair =>
    obtain ⟨tokens, ts⟩ := pair
    obtain ⟨hpresent, hts, d, hentry⟩ := hread
    have he := find?_of_unchanged hwatch hchanged hpresent hentry
    obtain ⟨tokens', ts', d', hbucket⟩ := h.bucket _ hentry
    have hvalue := hbucket.entry
    simp only [Entry.mk.injEq, LimiterValue.bucket.injEq] at hvalue
    obtain ⟨⟨rfl, rfl⟩, -⟩ := hvalue
    rw [he]
    simp only [Option.map_some, Option.getD_some, RateLimiter.refill]
    have hgain := mul_nonneg (le_max_left 0 (reading - ts)) hrate
    exact le_min hbucket.capped (by linarith)

theorem deniedTakesNothing {s : LimiterSystem} (h : LimiterInv lim target r s)
    (a : LimiterAction) : DeniedTakesNothing lim target s a := by
  intro attempt hlog htarget hdenied
  cases a with
  | tick seconds => simp [RateLimiter.step] at hlog
  | start w op =>
    rw [RateLimiter.step] at hlog
    split at hlog <;> simp at hlog
  | advance w =>
    have hw := h.workers w
    rw [step_advance] at hlog ⊢
    have hfinished := List.append_cancel_left hlog
    obtain ⟨call, rate, tries, watch, raw, reading, hexec⟩ := exec_of_finished hfinished
    rw [hexec] at hfinished hw ⊢
    cases hchanged : s.redis.changed s.now watch with
    | true =>
      rw [command_exec_conflict hchanged]
      cases tries <;> exact le_rfl
    | false =>
      rw [command_exec_commit hchanged] at hfinished ⊢
      obtain rfl := List.singleton_inj.mp hfinished
      dsimp only at htarget hdenied
      obtain ⟨hattempt, hwatch, hreading, hread⟩ := hw htarget
      have hversion := ((Store.changed_eq_false_iff _ _ _).mp hchanged).1
      rw [hwatch.key] at hversion
      rw [htarget, decideAcquire_denied hdenied]
      refine (storedTokens_le_refill h hwatch.key hchanged (hread hversion) hreading
        hattempt.2.1).trans_eq ?_
      simp [RateLimiter.storedTokens, readBucket, Store.get, Store.find?, Store.put_entries,
        Entry.isLive, Option.filter]

/-! ## The bound -/

/-- **The distributed token bucket never over-issues.** In every
interleaving of admissible methods, no window of clock readings sees more
successful cost on the target than the burst and the window's refill;
denied attempts take nothing; and nothing but methods on the target
touches its bucket or factor. -/
theorem bucket_never_over_issues (lim : RateLimiter) (target : Str) (r : ℚ) (hlim : Limits lim r)
    (now : ℚ) (actions : List LimiterAction)
    (hactions : ∀ a ∈ actions, a.Admissible lim target r) :
    WindowBounded (lim.burst : ℚ) r (issuesOf (run lim.step (.start now) actions).log target) ∧
      ∀ done a, done ++ [a] <+: actions →
        DeniedTakesNothing lim target (run lim.step (.start now) done) a ∧
          KeysFramed lim target (run lim.step (.start now) done) a := by
  have hreach : ∀ done, done <+: actions →
      LimiterInv lim target r (run lim.step (.start now) done) := by
    intro done hdone
    have hstep : ∀ s a, LimiterInv lim target r s → a.Admissible lim target r →
        LimiterInv lim target r (lim.step s a) := fun _ _ hs ha => hs.step hlim ha
    exact run_invariant hstep (limiterInv_start now)
      (Along.of_forall (fun a ha => hactions a (hdone.subset ha)) (LimiterSystem.start now))
  refine ⟨(hreach actions (List.prefix_refl _)).window hlim,
    fun done a hdone => ⟨?_, keysFramed _ _ _ _⟩⟩
  exact deniedTakesNothing (hreach done ((List.prefix_append _ _).trans hdone)) a

/-- Two workers on one target, the second between the first's read and its
`EXEC`: the first's watch fails and it tries again. -/
def contendedActions (target : Str) : List LimiterAction :=
  [.start 0 (.tryAcquire ⟨target, 1, none⟩), .advance 0, .advance 0, .advance 0, .advance 0,
    .start 1 (.tryAcquire ⟨target, 1, none⟩), .advance 1, .advance 1, .advance 1, .advance 1,
    .advance 1, .advance 0, .tick 1, .advance 0, .advance 0, .advance 0, .advance 0]

/-- The limiter with its defaults. -/
def defaultLimiter : RateLimiter := {}

/-- The default limiter under contention: two attempts succeed, and the
bound holds of them. -/
theorem bucket_never_over_issues_contended :
    (issuesOf (run defaultLimiter.step (.start 0) (contendedActions "t".toList)).log
        "t".toList).length = 2 ∧
      WindowBounded (defaultLimiter.burst : ℚ) 5
        (issuesOf (run defaultLimiter.step (.start 0) (contendedActions "t".toList)).log
          "t".toList) := by
  have hlimits : Limits defaultLimiter 5 := by
    constructor <;> norm_num [defaultLimiter]
  have hactions : ∀ a ∈ contendedActions "t".toList, a.Admissible defaultLimiter "t".toList 5 := by
    simp [contendedActions, LimiterAction.Admissible, LimiterOp.Admissible, defaultLimiter]
  exact ⟨by decide +kernel, (bucket_never_over_issues defaultLimiter "t".toList 5 hlimits 0
    (contendedActions "t".toList) hactions).1⟩

end Sentinel.Core
