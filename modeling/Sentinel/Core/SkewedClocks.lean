/-
Sentinel.Core.SkewedClocks — `try_acquire` under clocks that disagree.

The attempts that commit on a bucket follow one another: the watch makes
sure that each decides on what the one before it stored. Each decides with
a reading of its own host's clock, and stores that reading whether or not
it is later than the one it found. So a clock that is behind moves the
bucket back, and the next one that is not refills it again:
`clocksHarmless_iff` says that this is the only way clocks make tokens.
-/
import Sentinel.Core.RateLimiterTheorems

namespace Sentinel.Core

open Sentinel.Py Sentinel.Redis Sentinel.TokenBucket Sentinel.Trace

/-! ## Attempts that commit -/

/-- An attempt whose `EXEC` goes through: what its clock reads, what it
asks for, and the effective rate. -/
structure Commit where
  reading : ℚ
  cost : ℚ
  rate : ℚ
  deriving DecidableEq

/-- The stored `tokens` and `ts`, if the bucket is there. -/
abbrev StoredBucket := Option (ℚ × ℚ)

/-- The tokens an attempt finds. -/
def RateLimiter.available (lim : RateLimiter) (stored : StoredBucket) (c : Commit) : ℚ :=
  lim.refill c.rate stored c.reading

/-- What an attempt stores, and its result. -/
def RateLimiter.commit (lim : RateLimiter) (stored : StoredBucket) (c : Commit) :
    (ℚ × ℚ) × AcquireResult :=
  let (tokens, result) := decideAcquire (lim.available stored c) c.cost c.rate
  ((tokens, c.reading), result)

/-- The bucket behind attempts one after another. -/
def RateLimiter.commits (lim : RateLimiter) (stored : StoredBucket) (cs : List Commit) :
    StoredBucket :=
  cs.foldl (fun stored c => some (lim.commit stored c).1) stored

/-- The tokens an attempt gets. -/
def RateLimiter.grants (lim : RateLimiter) (stored : StoredBucket) (c : Commit) :
    List (Issue ℚ) :=
  if (lim.commit stored c).2.allowed then [⟨c.reading, c.cost⟩] else []

/-- The tokens attempts one after another get. -/
def RateLimiter.granted (lim : RateLimiter) : StoredBucket → List Commit → List (Issue ℚ)
  | _, [] => []
  | stored, c :: cs => lim.grants stored c ++ lim.granted (some (lim.commit stored c).1) cs

/-- **Clocks that disagree make no tokens.** -/
structure RateLimiter.ClocksHarmless (lim : RateLimiter) (r : ℚ) (stored : StoredBucket)
    (cs : List Commit) : Prop where
  /-- The stored `ts` never decreases. -/
  ts : ∀ done c rest bucket, cs = done ++ c :: rest → lim.commits stored done = some bucket →
    bucket.2 ≤ (lim.commit (some bucket) c).1.2
  /-- An attempt whose reading is earlier than the stored `ts` leaves no
  later attempt more than it would find without it. -/
  late : ∀ done late between c rest bucket, cs = done ++ late :: (between ++ c :: rest) →
    lim.commits stored done = some bucket → late.reading < bucket.2 →
    lim.available (lim.commits stored (done ++ late :: between)) c ≤
      lim.available (lim.commits stored (done ++ between)) c
  /-- An interval with all readings in it bounds what is granted. -/
  bound : ∀ lo hi, lo ≤ hi → (∀ c ∈ cs, lo ≤ c.reading ∧ c.reading ≤ hi) →
    ((lim.granted stored cs).map Issue.cost).sum ≤ lim.burst + r * (hi - lo)

/-- The readings come in the order of the attempts, the stored `ts` first. -/
def InOrder (stored : StoredBucket) (cs : List Commit) : Prop :=
  List.IsChain (· ≤ ·) ((stored.map Prod.snd).toList ++ cs.map Commit.reading)

/-! ## The order -/

variable {lim : RateLimiter} {r : ℚ}

theorem commit_eq (stored : StoredBucket) (c : Commit) :
    lim.commit stored c = (((decideAcquire (lim.available stored c) c.cost c.rate).1, c.reading),
      (decideAcquire (lim.available stored c) c.cost c.rate).2) := by
  unfold RateLimiter.commit
  generalize decideAcquire (lim.available stored c) c.cost c.rate = decided
  rfl

@[simp] theorem commit_ts (stored : StoredBucket) (c : Commit) :
    (lim.commit stored c).1.2 = c.reading := by
  rw [commit_eq]

theorem inOrder_some_cons {bucket : ℚ × ℚ} {c : Commit} {cs : List Commit} :
    InOrder (some bucket) (c :: cs) ↔
      bucket.2 ≤ c.reading ∧ InOrder (some (lim.commit (some bucket) c).1) cs := by
  simp [InOrder]

theorem inOrder_none_cons {c : Commit} {cs : List Commit} :
    InOrder none (c :: cs) ↔ InOrder (some (lim.commit none c).1) cs := by
  simp [InOrder]

/-- Behind attempts in order, the rest is in order. -/
theorem InOrder.behind {stored : StoredBucket} {done rest : List Commit}
    (h : InOrder stored (done ++ rest)) : InOrder (lim.commits stored done) rest := by
  induction done generalizing stored with
  | nil => exact h
  | cons c done ih =>
    refine ih ?_
    cases stored with
    | none => exact inOrder_none_cons.mp h
    | some bucket => exact (inOrder_some_cons.mp h).2

/-- **The stored `ts` never decreases** exactly if the attempts are in
order. -/
theorem ts_monotone_iff {stored : StoredBucket} {cs : List Commit} :
    (∀ done c rest bucket, cs = done ++ c :: rest → lim.commits stored done = some bucket →
      bucket.2 ≤ (lim.commit (some bucket) c).1.2) ↔ InOrder stored cs := by
  constructor
  · intro h
    induction cs generalizing stored with
    | nil => cases stored <;> simp [InOrder]
    | cons c cs ih =>
      have hrest : InOrder (some (lim.commit stored c).1) cs := by
        refine ih fun done c' rest bucket hcs hbucket => ?_
        exact h (c :: done) c' rest bucket (by rw [hcs, List.cons_append]) hbucket
      cases stored with
      | none => exact inOrder_none_cons.mpr hrest
      | some bucket => exact inOrder_some_cons.mpr ⟨h [] c cs bucket rfl rfl, hrest⟩
  · intro h done c rest bucket hcs hbucket
    rw [hcs] at h
    have hbehind : InOrder (lim.commits stored done) (c :: rest) := h.behind
    rw [hbucket] at hbehind
    rcases List.isChain_cons_cons.mp hbehind with ⟨hreading, -⟩
    exact hreading

/-! ## The bound -/

theorem available_le (stored : StoredBucket) (c : Commit) : lim.available stored c ≤ lim.burst :=
  refill_le lim c.rate stored c.reading

/-- An attempt keeps the level it finds. -/
theorem commit_level (hr : 0 ≤ r) {stored : StoredBucket} {c : Commit} {log : List (Issue ℚ)}
    (h : Level (lim.burst : ℚ) r log (lim.available stored c) c.reading) :
    Level (lim.burst : ℚ) r (log ++ lim.grants stored c) (lim.commit stored c).1.1 c.reading :=
  decideAcquire_level hr c.cost c.rate h

/-- An attempt in order finds a level. -/
theorem available_level (hr : 0 ≤ r) {bucket : ℚ × ℚ} {c : Commit} {log : List (Issue ℚ)}
    (h : Level (lim.burst : ℚ) r log bucket.1 bucket.2) (hrate : c.rate ≤ r)
    (hreading : bucket.2 ≤ c.reading) :
    Level (lim.burst : ℚ) r log (lim.available (some bucket) c) c.reading := by
  have helapsed : max 0 (c.reading - bucket.2) = c.reading - bucket.2 :=
    max_eq_right (sub_nonneg.mpr hreading)
  have hfound := h.elapse hr hrate hreading
  rw [← helapsed] at hfound
  exact hfound

/-- Attempts in order on a bucket at a level keep every window bounded. -/
theorem granted_window (hr : 0 ≤ r) {cs : List Commit} (hrates : ∀ c ∈ cs, c.rate ≤ r)
    {bucket : ℚ × ℚ} {log : List (Issue ℚ)}
    (hlevel : Level (lim.burst : ℚ) r log bucket.1 bucket.2) (horder : InOrder (some bucket) cs) :
    WindowBounded (lim.burst : ℚ) r (log ++ lim.granted (some bucket) cs) := by
  induction cs generalizing bucket log with
  | nil => simpa [RateLimiter.granted] using hlevel.window
  | cons c cs ih =>
    obtain ⟨hreading, horder⟩ := inOrder_some_cons.mp horder
    have hfound := available_level hr hlevel (hrates c List.mem_cons_self) hreading
    rw [RateLimiter.granted, ← List.append_assoc]
    exact ih (fun c' hc' => hrates c' (List.mem_cons_of_mem c hc')) (commit_level hr hfound) horder

/-- From any bucket, attempts in order keep every window bounded: the first
of them finds at most the burst. -/
theorem granted_window_of_inOrder (hr : 0 ≤ r) {cs : List Commit} (hrates : ∀ c ∈ cs, c.rate ≤ r)
    {stored : StoredBucket} (horder : InOrder stored cs) :
    WindowBounded (lim.burst : ℚ) r (lim.granted stored cs) := by
  have hfull : ∀ t, Level (lim.burst : ℚ) r [] lim.burst t :=
    Level.init (Nat.cast_nonneg lim.burst) hr
  cases cs with
  | nil => exact (hfull 0).window
  | cons c cs =>
    have hrest : InOrder (lim.commits stored [c]) cs := horder.behind
    exact granted_window hr (fun c' hc' => hrates c' (List.mem_cons_of_mem c hc'))
      (commit_level hr ((hfull c.reading).mono (available_le stored c))) hrest

theorem granted_reading {stored : StoredBucket} {cs : List Commit} {e : Issue ℚ}
    (he : e ∈ lim.granted stored cs) : ∃ c ∈ cs, e.time = c.reading := by
  induction cs generalizing stored with
  | nil => cases he
  | cons c cs ih =>
    rcases List.mem_append.mp he with he | he
    · have heq : e = ⟨c.reading, c.cost⟩ := by
        unfold RateLimiter.grants at he
        split at he
        · exact List.mem_singleton.mp he
        · cases he
      exact ⟨c, List.mem_cons_self, by rw [heq]⟩
    · obtain ⟨c', hc', htime⟩ := ih he
      exact ⟨c', List.mem_cons_of_mem c hc', htime⟩

/-- **Clocks that disagree make no tokens** exactly if the attempts commit
in the order of their readings, none of them before the stored `ts`. -/
theorem clocksHarmless_iff (lim : RateLimiter) {r : ℚ} (hr : 0 ≤ r) (stored : StoredBucket)
    (cs : List Commit) (hrates : ∀ c ∈ cs, c.rate ≤ r) :
    lim.ClocksHarmless r stored cs ↔ InOrder stored cs := by
  refine ⟨fun h => ts_monotone_iff.mp h.ts, fun h => ⟨ts_monotone_iff.mpr h, ?_, ?_⟩⟩
  · intro done late between c rest bucket hcs hbucket hlate
    have hts := ts_monotone_iff.mpr h done late _ bucket hcs hbucket
    exact absurd hlate (not_lt_of_ge hts)
  · intro lo hi hle hwithin
    have hbound : issuedWithin (lim.granted stored cs) lo hi ≤ lim.burst + r * (hi - lo) :=
      granted_window_of_inOrder hr hrates h lo hi hle
    rwa [issuedWithin_eq_sum] at hbound
    intro e he
    obtain ⟨c, hc, htime⟩ := granted_reading he
    rw [htime]
    exact hwithin c hc

/-- Two attempts in order. -/
theorem inOrder_harmless :
    defaultLimiter.ClocksHarmless 5 (some (3, 0)) [⟨1, 8, 5⟩, ⟨2, 5, 5 / 2⟩] :=
  (clocksHarmless_iff defaultLimiter (by norm_num) (some (3, 0)) [⟨1, 8, 5⟩, ⟨2, 5, 5 / 2⟩]
    (by norm_num)).mpr (by simp [InOrder])

/-- Two hosts in turn, the clock of the second two seconds behind. -/
def alternatingCommits : List Commit := [⟨2, 10, 5⟩, ⟨0, 1, 5⟩, ⟨2, 10, 5⟩, ⟨0, 1, 5⟩, ⟨2, 10, 5⟩]

/-- The first host gets 30 tokens at one reading of its clock. All readings
lie within two seconds, for which the burst and the refill are 20. -/
theorem alternatingCommits_harmful :
    ((defaultLimiter.granted none alternatingCommits).map Issue.cost).sum = 30 ∧
      ¬ defaultLimiter.ClocksHarmless 5 none alternatingCommits := by
  have hgranted : ((defaultLimiter.granted none alternatingCommits).map Issue.cost).sum = 30 := by
    decide +kernel
  refine ⟨hgranted, fun h => ?_⟩
  have hbound := h.bound 0 2 (by norm_num) (by simp [alternatingCommits])
  rw [hgranted] at hbound
  norm_num [defaultLimiter] at hbound

/-! ## Workers with clocks of their own -/

/-- A worker's next command; where it reads its clock, that reads `reading`,
and `now` is the time of Redis. -/
def RateLimiter.commandReading (lim : RateLimiter) (now reading : ℚ) (redis : LimiterStore) :
    Worker → LimiterStore × Worker × List Attempt
  | .readClock call rate tries watch raw => (redis, .exec call rate tries watch raw reading, [])
  | worker => lim.command now redis worker

inductive SkewedAction where
  | tick (seconds : ℚ)
  | start (worker : ℕ) (op : LimiterOp)
  | advance (worker : ℕ) (reading : ℚ)
  deriving DecidableEq

/-- One action. -/
def RateLimiter.stepSkewed (lim : RateLimiter) (s : LimiterSystem) : SkewedAction → LimiterSystem
  | .tick seconds => lim.step s (.tick seconds)
  | .start w op => lim.step s (.start w op)
  | .advance w reading =>
      let (redis, worker, finished) := lim.commandReading s.now reading s.redis (s.workers w)
      { s with
        redis := redis
        workers := fun w' => if w' = w then worker else s.workers w'
        log := s.log ++ finished }

/-- One clock for all is a special case. -/
theorem commandReading_now (now : ℚ) (redis : LimiterStore) (worker : Worker) :
    lim.commandReading now now redis worker = lim.command now redis worker := by
  cases worker <;> rfl

theorem stepSkewed_now (s : LimiterSystem) (w : ℕ) :
    lim.stepSkewed s (.advance w s.now) = lim.step s (.advance w) := by
  rw [RateLimiter.stepSkewed, commandReading_now]
  rfl

/-- The attempt on the target a worker is about to commit. -/
def Worker.committing (target : Str) (redis : LimiterStore) (now : ℚ) : Worker → List Commit
  | .exec call rate _ w _ reading =>
      if call.targetId = target ∧ redis.changed now w = false then
        [⟨reading, call.cost, rate⟩]
      else []
  | _ => []

/-- The attempt on the target an action commits. -/
def committed (target : Str) (s : LimiterSystem) : SkewedAction → List Commit
  | .advance w _ => (s.workers w).committing target s.redis s.now
  | _ => []

/-- The attempts on the target that commit in a run. -/
def RateLimiter.committedIn (lim : RateLimiter) (target : Str) :
    LimiterSystem → List SkewedAction → List Commit
  | _, [] => []
  | s, a :: actions => committed target s a ++ lim.committedIn target (lim.stepSkewed s a) actions

/-- The stored bucket of a target. -/
def LimiterSystem.bucket (s : LimiterSystem) (target : Str) : StoredBucket :=
  readBucket s.redis s.now target

/-- The bucket does not expire. -/
def Unexpired (target : Str) (s : LimiterSystem) : SkewedAction → Prop
  | .tick seconds => (s.bucket target).isSome = true →
      (s.redis.find? (s.now + max 0 seconds) (bucketKey target)).isSome = true
  | _ => True

/-! ## What a worker has read -/

/-- What was read is what is stored. -/
def StoredRead (target : Str) (redis : LimiterStore) (now : ℚ) (w : Watch Str) :
    StoredBucket → Prop
  | some (tokens, ts) => w.present = true ∧
      ∃ d, redis.entries (bucketKey target) = some ⟨.bucket tokens ts, d⟩
  | none => redis.find? now (bucketKey target) = none

/-- As long as its watch is current, a worker on the target has read what is
stored. -/
def ReadsStored (target : Str) (redis : LimiterStore) (now : ℚ) : Worker → Prop
  | .readBucket call _ _ w => call.targetId = target → WatchOk target redis now w
  | .readClock call _ _ w raw | .exec call _ _ w raw _ => call.targetId = target →
      WatchOk target redis now w ∧
        (redis.version (bucketKey target) = w.version → StoredRead target redis now w raw)
  | _ => True

/-- The bucket's key holds a bucket, and workers have read what is stored. -/
structure SkewedInv (target : Str) (s : LimiterSystem) : Prop where
  bucket : ∀ e, s.redis.entries (bucketKey target) = some e → ∃ tokens ts, e.value = .bucket tokens ts
  workers : ∀ w, ReadsStored target s.redis s.now (s.workers w)

variable {target : Str}

theorem StoredRead.of_agree {redis redis' : LimiterStore} {now now' : ℚ} {w : Watch Str}
    {raw : StoredBucket} (h : StoredRead target redis now w raw) (hnow : now ≤ now')
    (hagree : redis.AgreeOn redis' (bucketKey target)) : StoredRead target redis' now' w raw := by
  cases raw with
  | none => exact find?_none_of_agree hagree.1 hnow h
  | some pair =>
    obtain ⟨hpresent, d, hd⟩ := h
    exact ⟨hpresent, d, hagree.1.trans hd⟩

theorem ReadsStored.of_agree {redis redis' : LimiterStore} {now now' : ℚ} {w : Worker}
    (h : ReadsStored target redis now w) (hnow : now ≤ now')
    (hagree : redis.AgreeOn redis' (bucketKey target)) : ReadsStored target redis' now' w := by
  cases w with
  | readBucket call rate tries watch => exact fun ht => (h ht).of_agree hnow hagree
  | readClock call rate tries watch raw =>
    intro ht
    obtain ⟨hwatch, hread⟩ := h ht
    exact ⟨hwatch.of_agree hnow hagree, fun hv => (hread (hagree.2 ▸ hv)).of_agree hnow hagree⟩
  | exec call rate tries watch raw reading =>
    intro ht
    obtain ⟨hwatch, hread⟩ := h ht
    exact ⟨hwatch.of_agree hnow hagree, fun hv => (hread (hagree.2 ▸ hv)).of_agree hnow hagree⟩
  | _ => exact h

theorem ReadsStored.of_overwritten {redis redis' : LimiterStore} {now : ℚ} {w : Worker}
    (h : ReadsStored target redis now w)
    (hversion : redis.version (bucketKey target) < redis'.version (bucketKey target)) :
    ReadsStored target redis' now w := by
  cases w with
  | readBucket call rate tries watch => exact fun ht => ((h ht).of_overwritten hversion).1
  | readClock call rate tries watch raw =>
    intro ht
    obtain ⟨hwatch, hstale⟩ := (h ht).1.of_overwritten hversion
    exact ⟨hwatch, fun heq => absurd heq hstale⟩
  | exec call rate tries watch raw reading =>
    intro ht
    obtain ⟨hwatch, hstale⟩ := (h ht).1.of_overwritten hversion
    exact ⟨hwatch, fun heq => absurd heq hstale⟩
  | _ => exact h

/-- What `HMGET` returns is what is stored. -/
theorem storedRead_readBucket {s : LimiterSystem} (h : SkewedInv target s) {w : Watch Str}
    (hwatch : WatchOk target s.redis s.now w)
    (hversion : s.redis.version (bucketKey target) = w.version) :
    StoredRead target s.redis s.now w (readBucket s.redis s.now target) := by
  unfold readBucket Store.get
  cases hfind : s.redis.find? s.now (bucketKey target) with
  | none => exact hfind
  | some e =>
    have hentry := Store.entries_of_find? hfind
    obtain ⟨tokens, ts, hvalue⟩ := h.bucket e hentry
    have hpresent := hwatch.present_of_find? hversion hfind
    obtain ⟨value, d⟩ := e
    obtain rfl : value = .bucket tokens ts := hvalue
    exact ⟨hpresent, d, hentry⟩

/-- What was read under a watch that did not change is what is stored now. -/
theorem readBucket_of_storedRead {redis : LimiterStore} {now : ℚ} {w : Watch Str}
    {raw : StoredBucket} (hkey : w.key = bucketKey target) (hchanged : redis.changed now w = false)
    (h : StoredRead target redis now w raw) : readBucket redis now target = raw := by
  unfold readBucket Store.get
  cases raw with
  | none =>
    have hnone : redis.find? now (bucketKey target) = none := h
    rw [hnone]
    rfl
  | some pair =>
    obtain ⟨hpresent, d, hentry⟩ := h
    rw [find?_of_unchanged hkey hchanged hpresent hentry]
    rfl

/-! ## What a command does to the bucket -/

/-- A command that leaves the target's bucket alone and finishes no
successful attempt on it. -/
structure Passive (target : Str) (s : LimiterSystem) (out : LimiterStore × Worker × List Attempt) :
    Prop where
  agree : s.redis.AgreeOn out.1 (bucketKey target)
  finished : issuesOf out.2.2 target = []
  worker : ReadsStored target out.1 s.now out.2.1

theorem Passive.read {s : LimiterSystem} {worker : Worker}
    (hworker : ReadsStored target s.redis s.now worker) : Passive target s (s.redis, worker, []) :=
  ⟨⟨rfl, rfl⟩, rfl, hworker⟩

/-- A command commits an attempt on the target, or leaves its bucket alone. -/
theorem commandReading_cases {s : LimiterSystem} (h : SkewedInv target s) {worker : Worker}
    (hw : ReadsStored target s.redis s.now worker) (reading : ℚ) :
    (worker.committing target s.redis s.now = [] ∧
      Passive target s (lim.commandReading s.now reading s.redis worker)) ∨
    ∃ call rate tries watch raw now, worker = .exec call rate tries watch raw now ∧
      call.targetId = target ∧ s.redis.changed s.now watch = false := by
  have hbucket : ∀ targetId, bucketKey target ≠ factorKey targetId :=
    bucketKey_ne_factorKey target
  cases worker with
  | idle => exact Or.inl ⟨rfl, .read trivial⟩
  | getRate call => exact Or.inl ⟨rfl, .read trivial⟩
  | watch call rate tries =>
    refine Or.inl ⟨rfl, .read fun ht => ?_⟩
    rw [ht]
    exact watchOk_watch s.redis s.now
  | readBucket call rate tries watch =>
    refine Or.inl ⟨rfl, .read fun ht => ⟨hw ht, fun hversion => ?_⟩⟩
    rw [ht]
    exact storedRead_readBucket h (hw ht) hversion
  | readClock call rate tries watch raw => exact Or.inl ⟨rfl, .read hw⟩
  | exec call rate tries watch raw now =>
    cases hchanged : s.redis.changed s.now watch with
    | true =>
      refine Or.inl ⟨by simp [Worker.committing, hchanged], ?_⟩
      rw [RateLimiter.commandReading, command_exec_conflict hchanged]
      · cases tries with
        | zero => exact ⟨⟨rfl, rfl⟩, issuesOf_other (Or.inr rfl), trivial⟩
        | succ tries => exact .read trivial
      · simp
    | false =>
      by_cases ht : call.targetId = target
      · exact Or.inr ⟨call, rate, tries, watch, raw, now, rfl, ht, hchanged⟩
      · refine Or.inl ⟨by simp [Worker.committing, ht], ?_⟩
        rw [RateLimiter.commandReading, command_exec_commit hchanged]
        · have hkey : bucketKey target ≠ bucketKey call.targetId :=
            fun heq => ht (bucketKey_inj.mp heq).symm
          exact ⟨Store.put_agreeOn hkey _ _, issuesOf_other (Or.inl ht), trivial⟩
        · simp
  | getForBackpressure targetId factor ttl => exact Or.inl ⟨rfl, .read trivial⟩
  | setBackpressure targetId newFactor ttl =>
    refine Or.inl ⟨rfl, ?_⟩
    rw [RateLimiter.commandReading, RateLimiter.command]
    · split
      · exact ⟨Store.put_agreeOn (hbucket targetId) _ _, rfl, trivial⟩
      · exact .read trivial
    · simp
  | getForSuccess targetId =>
    refine Or.inl ⟨rfl, ?_⟩
    rw [RateLimiter.commandReading, RateLimiter.command]
    · cases readFactor s.redis s.now targetId with
      | none => exact .read trivial
      | some current =>
        dsimp only
        split <;> exact .read trivial
    · simp
  | deleteFactor targetId =>
    exact Or.inl ⟨rfl, Store.erase_agreeOn (hbucket targetId), rfl, trivial⟩
  | readTtl targetId recovered => exact Or.inl ⟨rfl, .read trivial⟩
  | setRecovered targetId recovered ttl =>
    exact Or.inl ⟨rfl, Store.put_agreeOn (hbucket targetId) _ _, rfl, trivial⟩

/-! ## Runs -/

/-- What an action makes of the target's bucket, and of what was granted,
is what the attempt it commits makes of them. -/
structure Commits (lim : RateLimiter) (target : Str) (s s' : LimiterSystem) (cs : List Commit) :
    Prop where
  bucket : s'.bucket target = lim.commits (s.bucket target) cs
  granted : issuesOf s'.log target = issuesOf s.log target ++ lim.granted (s.bucket target) cs

theorem bucket_of_find? {s s' : LimiterSystem}
    (h : s'.redis.find? s'.now (bucketKey target) = s.redis.find? s.now (bucketKey target)) :
    s'.bucket target = s.bucket target := by
  unfold LimiterSystem.bucket readBucket Store.get
  rw [h]

theorem bucket_of_agree {s s' : LimiterSystem} (hnow : s'.now = s.now)
    (hagree : s.redis.AgreeOn s'.redis (bucketKey target)) :
    s'.bucket target = s.bucket target := by
  refine bucket_of_find? ?_
  unfold Store.find?
  rw [hagree.1, hnow]

/-- The clock of Redis moves on, and the bucket does not expire. -/
theorem bucket_tick {s : LimiterSystem} (h : SkewedInv target s) {seconds : ℚ}
    (hkept : Unexpired target s (.tick seconds)) :
    (lim.stepSkewed s (.tick seconds)).bucket target = s.bucket target := by
  refine bucket_of_find? ?_
  show s.redis.find? (s.now + max 0 seconds) (bucketKey target) = _
  cases hfind : s.redis.find? s.now (bucketKey target) with
  | none => exact find?_none_of_agree rfl (show s.now ≤ s.now + max 0 seconds by simp) hfind
  | some e =>
    have hentry := Store.entries_of_find? hfind
    obtain ⟨tokens, ts, hvalue⟩ := h.bucket e hentry
    have hthere : (s.bucket target).isSome = true := by
      simp [LimiterSystem.bucket, readBucket, Store.get, hfind, hvalue]
    obtain ⟨e', he'⟩ := Option.isSome_iff_exists.mp (hkept hthere)
    obtain rfl := Option.some.inj (hentry.symm.trans (Store.entries_of_find? he'))
    exact he'

/-- An attempt that commits has read the stored bucket. -/
theorem bucket_of_exec {s : LimiterSystem} (h : SkewedInv target s) {w : ℕ} {call : AcquireCall}
    {rate : ℚ} {tries : ℕ} {watch : Watch Str} {raw : StoredBucket} {now : ℚ}
    (hw : s.workers w = .exec call rate tries watch raw now) (ht : call.targetId = target)
    (hchanged : s.redis.changed s.now watch = false) : s.bucket target = raw := by
  have hworker := h.workers w
  rw [hw] at hworker
  obtain ⟨hwatch, hread⟩ := hworker ht
  have hversion := ((Store.changed_eq_false_iff _ _ _).mp hchanged).1
  rw [hwatch.key] at hversion
  exact readBucket_of_storedRead hwatch.key hchanged (hread hversion)

/-- Writing the bucket keeps the invariant. -/
theorem SkewedInv.put {s : LimiterSystem} (h : SkewedInv target s) (w : ℕ) (tokens ts deadline : ℚ)
    (finished : List Attempt) :
    SkewedInv target { s with
      redis := s.redis.put (bucketKey target) (.bucket tokens ts) (some deadline)
      workers := fun w' => if w' = w then .idle else s.workers w'
      log := s.log ++ finished } where
  bucket e he := by
    rw [Store.put_entries] at he
    obtain rfl := Option.some.inj he
    exact ⟨tokens, ts, rfl⟩
  workers w' := by
    dsimp only
    split
    · trivial
    · refine (h.workers w').of_overwritten ?_
      rw [Store.put_version]
      exact Nat.lt_succ_self _

/-- A committed attempt stores what it computed from the stored bucket. -/
theorem commits_exec {s : LimiterSystem} (h : SkewedInv target s) (w : ℕ) (reading : ℚ)
    {call : AcquireCall} {rate : ℚ} {tries : ℕ} {watch : Watch Str} {raw : StoredBucket} {now : ℚ}
    (hw : s.workers w = .exec call rate tries watch raw now) (ht : call.targetId = target)
    (hchanged : s.redis.changed s.now watch = false) :
    SkewedInv target (lim.stepSkewed s (.advance w reading)) ∧
      Commits lim target s (lim.stepSkewed s (.advance w reading))
        (committed target s (.advance w reading)) := by
  have hstored := bucket_of_exec h hw ht hchanged
  have hcommitted : committed target s (.advance w reading) = [⟨now, call.cost, rate⟩] := by
    simp [committed, hw, Worker.committing, ht, hchanged]
  have hcommand : lim.commandReading s.now reading s.redis (s.workers w) =
      (s.redis.put (bucketKey target)
          (.bucket (lim.commit raw ⟨now, call.cost, rate⟩).1.1 now) (some (s.now + 3600)), .idle,
        [⟨target, call.cost, now, (lim.commit raw ⟨now, call.cost, rate⟩).2⟩]) := by
    rw [hw, ← ht]
    exact command_exec_commit hchanged call rate tries raw now
  rw [hcommitted, RateLimiter.stepSkewed, hcommand]
  refine ⟨h.put w _ now (s.now + 3600) _, ?_, ?_⟩
  · rw [hstored]
    simp [LimiterSystem.bucket, readBucket, Store.get, Store.find?, Store.put_entries,
      Entry.isLive, Option.filter, RateLimiter.commits]
    rfl
  · rw [hstored, issuesOf_append]
    refine congrArg _ ?_
    simp only [RateLimiter.granted, RateLimiter.grants, List.append_nil]
    cases hallowed : (lim.commit raw ⟨now, call.cost, rate⟩).2.allowed <;>
      simp [issuesOf, hallowed]

/-- Time passes. -/
theorem SkewedInv.tick {s : LimiterSystem} (h : SkewedInv target s) (seconds : ℚ) :
    SkewedInv target (lim.step s (.tick seconds)) where
  bucket := h.bucket
  workers w := (h.workers w).of_agree (show s.now ≤ s.now + max 0 seconds by simp) ⟨rfl, rfl⟩

/-- **One action.** -/
theorem commits_step {s : LimiterSystem} (h : SkewedInv target s) {a : SkewedAction}
    (hkept : Unexpired target s a) :
    SkewedInv target (lim.stepSkewed s a) ∧
      Commits lim target s (lim.stepSkewed s a) (committed target s a) := by
  cases a with
  | tick seconds =>
    have hticked : SkewedInv target (lim.step s (.tick seconds)) := h.tick seconds
    exact ⟨hticked, bucket_tick h hkept, (List.append_nil _).symm⟩
  | start w op =>
    rw [RateLimiter.stepSkewed, RateLimiter.step]
    split
    · refine ⟨⟨h.bucket, fun w' => ?_⟩, rfl, (List.append_nil _).symm⟩
      dsimp only
      split
      · cases op <;> trivial
      · exact h.workers w'
    · exact ⟨h, rfl, (List.append_nil _).symm⟩
  | advance w reading =>
    rcases commandReading_cases h (h.workers w) reading with
      ⟨hnone, hpassive⟩ | ⟨call, rate, tries, watch, raw, now, hw, ht, hchanged⟩
    · have hcommitted : committed target s (.advance w reading) = [] := hnone
      rw [hcommitted, RateLimiter.stepSkewed]
      refine ⟨⟨fun e he => h.bucket e (hpassive.agree.1 ▸ he), fun w' => ?_⟩,
        bucket_of_agree rfl hpassive.agree, ?_⟩
      · dsimp only
        split
        · exact hpassive.worker
        · exact (h.workers w').of_agree le_rfl hpassive.agree
      · rw [issuesOf_append, hpassive.finished]
        rfl
    · exact commits_exec h w reading hw ht hchanged

theorem granted_append (stored : StoredBucket) (xs ys : List Commit) :
    lim.granted stored (xs ++ ys) =
      lim.granted stored xs ++ lim.granted (lim.commits stored xs) ys := by
  induction xs generalizing stored with
  | nil => rfl
  | cons x xs ih =>
    rw [List.cons_append, RateLimiter.granted, ih, RateLimiter.granted, List.append_assoc]
    rfl

/-- **Refinement.** Whatever the workers' clocks read and however their
commands interleave, the target's bucket is what the attempts that commit
make of it one after another, and what was granted is what they get. -/
theorem commits_run {s : LimiterSystem} (h : SkewedInv target s) {actions : List SkewedAction}
    (hkept : Along lim.stepSkewed (Unexpired target) s actions) :
    Commits lim target s (run lim.stepSkewed s actions) (lim.committedIn target s actions) := by
  induction actions generalizing s with
  | nil => exact ⟨rfl, (List.append_nil _).symm⟩
  | cons a actions ih =>
    obtain ⟨hinv, hstep⟩ := commits_step h hkept.1
    obtain ⟨hbucket, hgranted⟩ := ih hinv hkept.2
    rw [hstep.bucket] at hbucket hgranted
    constructor
    case bucket =>
      rw [run_cons, hbucket, RateLimiter.committedIn]
      exact (List.foldl_append ..).symm
    case granted =>
      rw [run_cons, hgranted, hstep.granted, RateLimiter.committedIn, granted_append,
        List.append_assoc]

end Sentinel.Core
