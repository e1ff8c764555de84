/-
Sentinel.Core.RateLimiter — `sentinel_core.rate_limiter.limiter` at the
level of single Redis commands.

Each worker runs the limiter's methods one Redis command (or clock
reading) at a time; where it stands, with its local variables, is a
`Worker`. `command` executes the next command of a worker. A system is a
clock, a Redis and any number of workers, and a list of actions is an
interleaving: the clock moves, a worker starts a method, a worker
executes its next command. Arithmetic is exact.
-/
import Sentinel.Redis.Store
import Sentinel.Trace.Run
import Sentinel.Py.Text
import Mathlib.Data.Rat.Floor

namespace Sentinel.Core

open Sentinel.Py Sentinel.Redis

/-- The values the limiter keeps in Redis: the hash of a bucket, and the
number under a factor key. -/
inductive LimiterValue where
  | bucket (tokens ts : ℚ)
  | factor (value : ℚ)
  deriving DecidableEq

abbrev LimiterStore := Store Str LimiterValue ℚ

structure RateLimiter where
  defaultRate : ℚ := 5
  burst : ℕ := 10
  minFactor : ℚ := 1 / 20

structure AcquireResult where
  allowed : Bool
  waitSeconds : ℚ
  deriving DecidableEq

/-- The arguments of `try_acquire`. -/
structure AcquireCall where
  targetId : Str
  cost : ℚ := 1
  baseRate : Option ℚ := none
  deriving DecidableEq

/-- A method call of the limiter. -/
inductive LimiterOp where
  | tryAcquire (call : AcquireCall)
  | reportBackpressure (targetId : Str) (factor : ℚ) (ttl : ℤ)
  | reportSuccess (targetId : Str)
  deriving DecidableEq

/-- A finished `try_acquire` with the clock reading its decision used. -/
structure Attempt where
  targetId : Str
  cost : ℚ
  reading : ℚ
  result : AcquireResult
  deriving DecidableEq

/-- `_MAX_CAS_RETRIES`. -/
def maxCasRetries : ℕ := 10

/-- `_bucket_key`. -/
def bucketKey (targetId : Str) : Str := "ratelimit:bucket:".toList ++ targetId

/-- `_factor_key`. -/
def factorKey (targetId : Str) : Str := "ratelimit:factor:".toList ++ targetId

/-! ## Where a worker stands -/

/-- The next thing a worker does. `tries` counts the CAS attempts that are
left behind the current one. -/
inductive Worker where
  | idle
  | getRate (call : AcquireCall)
  | watch (call : AcquireCall) (rate : ℚ) (tries : ℕ)
  | readBucket (call : AcquireCall) (rate : ℚ) (tries : ℕ) (watch : Watch Str)
  | readClock (call : AcquireCall) (rate : ℚ) (tries : ℕ) (watch : Watch Str)
      (raw : Option (ℚ × ℚ))
  | exec (call : AcquireCall) (rate : ℚ) (tries : ℕ) (watch : Watch Str)
      (raw : Option (ℚ × ℚ)) (now : ℚ)
  | getForBackpressure (targetId : Str) (factor : ℚ) (ttl : ℤ)
  | setBackpressure (targetId : Str) (newFactor : ℚ) (ttl : ℤ)
  | getForSuccess (targetId : Str)
  | deleteFactor (targetId : Str)
  | readTtl (targetId : Str) (recovered : ℚ)
  | setRecovered (targetId : Str) (recovered : ℚ) (ttl : ℤ)
  deriving DecidableEq

/-- The first command of a method. -/
def LimiterOp.begin : LimiterOp → Worker
  | .tryAcquire call => .getRate call
  | .reportBackpressure targetId factor ttl => .getForBackpressure targetId factor ttl
  | .reportSuccess targetId => .getForSuccess targetId

/-! ## Reading Redis -/

/-- `GET` of a factor key. -/
def readFactor (redis : LimiterStore) (now : ℚ) (targetId : Str) : Option ℚ :=
  match redis.get now (factorKey targetId) with
  | some (.factor f) => some f
  | _ => none

/-- `HMGET` of a bucket's `tokens` and `ts`. -/
def readBucket (redis : LimiterStore) (now : ℚ) (targetId : Str) : Option (ℚ × ℚ) :=
  match redis.get now (bucketKey targetId) with
  | some (.bucket tokens ts) => some (tokens, ts)
  | _ => none

/-- `TTL` in whole seconds: -2 without the key, -1 without a deadline. -/
def readTtl (redis : LimiterStore) (now : ℚ) (key : Str) : ℤ :=
  match redis.find? now key with
  | none => -2
  | some e =>
      match e.deadline with
      | none => -1
      | some d => ⌊d - now + 1 / 2⌋

/-! ## The methods, command by command -/

/-- `_effective_rate` behind its `GET`. -/
def RateLimiter.effectiveRate (lim : RateLimiter) (baseRate : Option ℚ) (factor : Option ℚ) : ℚ :=
  let rate := baseRate.getD lim.defaultRate
  max (rate * factor.getD 1) (rate * lim.minFactor)

/-- The tokens of the bucket at the reading `now`. -/
def RateLimiter.refill (lim : RateLimiter) (rate : ℚ) (raw : Option (ℚ × ℚ)) (now : ℚ) : ℚ :=
  let tokens := (raw.map Prod.fst).getD lim.burst
  let ts := (raw.map Prod.snd).getD now
  min lim.burst (tokens + max 0 (now - ts) * rate)

/-- The decision on an attempt: what is left in the bucket, and the result. -/
def decideAcquire (tokens cost rate : ℚ) : ℚ × AcquireResult :=
  if cost ≤ tokens then (tokens - cost, ⟨true, 0⟩) else (tokens, ⟨false, (cost - tokens) / rate⟩)

/-- A worker's next command: the store behind it, where the worker stands
then, and the attempt it finished. -/
def RateLimiter.command (lim : RateLimiter) (now : ℚ) (redis : LimiterStore) :
    Worker → LimiterStore × Worker × List Attempt
  | .idle => (redis, .idle, [])
  | .getRate call =>
      let rate := lim.effectiveRate call.baseRate (readFactor redis now call.targetId)
      (redis, .watch call rate (maxCasRetries - 1), [])
  | .watch call rate tries =>
      (redis, .readBucket call rate tries (redis.watch now (bucketKey call.targetId)), [])
  | .readBucket call rate tries watch =>
      (redis, .readClock call rate tries watch (readBucket redis now call.targetId), [])
  | .readClock call rate tries watch raw => (redis, .exec call rate tries watch raw now, [])
  | .exec call rate tries watch raw reading =>
      if redis.changed now watch then
        match tries with
        | 0 => (redis, .idle, [⟨call.targetId, call.cost, reading, ⟨false, 1 / rate⟩⟩])
        | tries + 1 => (redis, .watch call rate tries, [])
      else
        let (tokens, result) := decideAcquire (lim.refill rate raw reading) call.cost rate
        (redis.put (bucketKey call.targetId) (.bucket tokens reading) (some (now + 3600)), .idle,
          [⟨call.targetId, call.cost, reading, result⟩])
  | .getForBackpressure targetId factor ttl =>
      let current := (readFactor redis now targetId).getD 1
      (redis, .setBackpressure targetId (max (current * factor) lim.minFactor) ttl, [])
  | .setBackpressure targetId newFactor ttl =>
      if 0 < ttl then (redis.put (factorKey targetId) (.factor newFactor) (some (now + ttl)), .idle, [])
      else (redis, .idle, [])
  | .getForSuccess targetId =>
      match readFactor redis now targetId with
      | none => (redis, .idle, [])
      | some current =>
          if 1 ≤ current then (redis, .deleteFactor targetId, [])
          else (redis, .readTtl targetId (min 1 (current * (11 / 10))), [])
  | .deleteFactor targetId => (redis.erase (factorKey targetId), .idle, [])
  | .readTtl targetId recovered =>
      (redis, .setRecovered targetId recovered (readTtl redis now (factorKey targetId)), [])
  | .setRecovered targetId recovered ttl =>
      let seconds : ℤ := if 0 < ttl then ttl else 60
      (redis.put (factorKey targetId) (.factor recovered) (some (now + seconds)), .idle, [])

/-! ## Interleavings -/

/-- The clock, the Redis, the workers, and the attempts finished so far. -/
structure LimiterSystem where
  now : ℚ
  redis : LimiterStore
  workers : ℕ → Worker
  log : List Attempt

/-- An empty Redis and idle workers at time `now`. -/
def LimiterSystem.start (now : ℚ) : LimiterSystem := ⟨now, .empty, fun _ => .idle, []⟩

inductive LimiterAction where
  | tick (seconds : ℚ)
  | start (worker : ℕ) (op : LimiterOp)
  | advance (worker : ℕ)
  deriving DecidableEq

/-- One action. The clock does not go back, and a worker starts a method
only when it is idle. -/
def RateLimiter.step (lim : RateLimiter) (s : LimiterSystem) : LimiterAction → LimiterSystem
  | .tick seconds => { s with now := s.now + max 0 seconds }
  | .start w op =>
      if s.workers w = .idle then
        { s with workers := fun w' => if w' = w then op.begin else s.workers w' }
      else s
  | .advance w =>
      let (redis, worker, finished) := lim.command s.now s.redis (s.workers w)
      { s with
        redis := redis
        workers := fun w' => if w' = w then worker else s.workers w'
        log := s.log ++ finished }

/-- The target a worker's method is about. -/
def Worker.targetId : Worker → Option Str
  | .idle => none
  | .getRate call | .watch call _ _ | .readBucket call _ _ _ | .readClock call _ _ _ _
  | .exec call _ _ _ _ _ => some call.targetId
  | .getForBackpressure targetId _ _ | .setBackpressure targetId _ _ | .getForSuccess targetId
  | .deleteFactor targetId | .readTtl targetId _ | .setRecovered targetId _ _ => some targetId

end Sentinel.Core
