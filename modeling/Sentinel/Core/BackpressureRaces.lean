/-
Sentinel.Core.BackpressureRaces — reports about one target that overlap.

A report reads the factor of its target and writes a new one, one command
after another. The factor is the one of some sequential order of the
reports if each write finds the factor its report has read
(`reports_serial`).
-/
import Sentinel.Core.RateLimiterTheorems
import Sentinel.Trace.Serial

namespace Sentinel.Core

open Sentinel.Py Sentinel.Redis Sentinel.Trace

/-! ## One report after another -/

/-- The operation is a report on the target. -/
def LimiterOp.reportsOn (target : Str) : LimiterOp → Bool
  | .reportBackpressure targetId _ _ | .reportSuccess targetId => targetId = target
  | .tryAcquire _ => false

/-- What an operation alone makes of the factor of its target. A deadline
that is not in the future is an error of Redis. -/
def RateLimiter.applyReport (lim : RateLimiter) : LimiterOp → Option ℚ → Option ℚ
  | .reportBackpressure _ factor ttl, current =>
      if 0 < ttl then some (max (current.getD 1 * factor) lim.minFactor) else current
  | .reportSuccess _, none => none
  | .reportSuccess _, some current =>
      if 1 ≤ current then none else some (min 1 (current * (11 / 10)))
  | .tryAcquire _, current => current

/-- The factor that reports one after another lead to. -/
def RateLimiter.applyReports (lim : RateLimiter) (reports : List LimiterOp) (factor : Option ℚ) :
    Option ℚ :=
  reports.foldl (fun factor op => lim.applyReport op factor) factor

/-! ## Runs with what was read -/

/-- The worker is in a report on the target. -/
def Worker.reportsOn (target : Str) : Worker → Bool
  | .getForBackpressure targetId _ _ | .setBackpressure targetId _ _ | .getForSuccess targetId
  | .deleteFactor targetId | .readTtl targetId _ | .setRecovered targetId _ _ => targetId = target
  | _ => false

/-- Its next command is the `GET` of the factor. -/
def Worker.readsFactor (target : Str) : Worker → Bool
  | .getForBackpressure targetId _ _ | .getForSuccess targetId => targetId = target
  | _ => false

/-- Its next command is a `SET` or `DEL` of the factor. -/
def Worker.writesFactor (target : Str) : Worker → Bool
  | .setBackpressure targetId _ ttl => targetId = target ∧ 0 < ttl
  | .deleteFactor targetId | .setRecovered targetId _ _ => targetId = target
  | _ => false

/-- A system, and what each worker has got from its last `GET` of the factor. -/
structure FactorRun where
  system : LimiterSystem
  read : ℕ → Option ℚ := fun _ => none

/-- The factor of a target. -/
def LimiterSystem.factor (s : LimiterSystem) (target : Str) : Option ℚ :=
  readFactor s.redis s.now target

/-- A step of the system; a `GET` is remembered. -/
def FactorRun.step (lim : RateLimiter) (target : Str) (s : FactorRun) (a : LimiterAction) :
    FactorRun where
  system := lim.step s.system a
  read := fun w =>
    if a = .advance w ∧ (s.system.workers w).readsFactor target then s.system.factor target
    else s.read w

/-- A write finds the factor that its report has read, and the factor does
not expire. -/
def FactorRun.Undisturbed (target : Str) (s : FactorRun) : LimiterAction → Prop
  | .tick seconds =>
      (s.system.redis.find? (s.system.now + max 0 seconds) (factorKey target)).isSome =
        (s.system.redis.find? s.system.now (factorKey target)).isSome
  | .start _ _ => True
  | .advance w => (s.system.workers w).writesFactor target = true →
      s.system.factor target = s.read w

instance (target : Str) (s : FactorRun) (a : LimiterAction) :
    Decidable (s.Undisturbed target a) :=
  match a with
  | .tick _ => inferInstanceAs (Decidable (_ = _))
  | .start _ _ => isTrue trivial
  | .advance _ => inferInstanceAs (Decidable (_ → _))

/-- The reports on the target that an action begins. -/
def begunReport (target : Str) (s : LimiterSystem) : LimiterAction → List LimiterOp
  | .start w op => if s.workers w = .idle ∧ op.reportsOn target then [op] else []
  | _ => []

/-- The reports on the target that are begun in a run. -/
def begunReports (lim : RateLimiter) (target : Str) :
    LimiterSystem → List LimiterAction → List LimiterOp
  | _, [] => []
  | s, a :: actions => begunReport target s a ++ begunReports lim target (lim.step s a) actions

theorem run_system (lim : RateLimiter) (target : Str) (s : FactorRun)
    (actions : List LimiterAction) :
    (run (FactorRun.step lim target) s actions).system = run lim.step s.system actions := by
  induction actions generalizing s with
  | nil => rfl
  | cons a actions ih => exact ih (s.step lim target a)

/-! ## Where a report stands -/

/-- The worker is in the operation, having read this factor. -/
def Worker.Runs (lim : RateLimiter) (read : Option ℚ) : Worker → LimiterOp → Prop
  | .getForBackpressure targetId factor ttl, op => op = .reportBackpressure targetId factor ttl
  | .setBackpressure targetId newFactor ttl, op => ∃ factor,
      op = .reportBackpressure targetId factor ttl ∧
        newFactor = max (read.getD 1 * factor) lim.minFactor
  | .getForSuccess targetId, op => op = .reportSuccess targetId
  | .deleteFactor targetId, op => op = .reportSuccess targetId ∧ ∃ c, read = some c ∧ 1 ≤ c
  | .readTtl targetId recovered, op | .setRecovered targetId recovered _, op =>
      op = .reportSuccess targetId ∧
        ∃ c, read = some c ∧ ¬ 1 ≤ c ∧ recovered = min 1 (c * (11 / 10))
  | _, _ => False

/-- The reports `running` are under way, and the others have led to the
factor one after another. -/
structure InSeries (lim : RateLimiter) (target : Str) (start : Option ℚ) (begun : List LimiterOp)
    (running : List (ℕ × LimiterOp)) (s : FactorRun) : Prop where
  nodup : (running.map Prod.fst).Nodup
  workers : ∀ w, (s.system.workers w).reportsOn target = true ↔ w ∈ running.map Prod.fst
  runs : ∀ w op, (w, op) ∈ running → (s.system.workers w).Runs lim (s.read w) op
  serial : Serial lim.applyReport start begun running (s.system.factor target)

variable {lim : RateLimiter} {target : Str} {start : Option ℚ} {begun : List LimiterOp}
  {running : List (ℕ × LimiterOp)} {s s' : FactorRun} {w : ℕ} {op : LimiterOp}

/-- Reports do not notice what happens elsewhere. -/
theorem InSeries.elsewhere (h : InSeries lim target start begun running s)
    (hsame : ∀ w, (s.system.workers w).reportsOn target = true →
      s'.system.workers w = s.system.workers w ∧ s'.read w = s.read w)
    (hothers : ∀ w, (s.system.workers w).reportsOn target = false →
      (s'.system.workers w).reportsOn target = false)
    (hfactor : s'.system.factor target = s.system.factor target) :
    InSeries lim target start begun running s' where
  nodup := h.nodup
  workers := by
    intro w
    rw [← h.workers w]
    cases hw : (s.system.workers w).reportsOn target with
    | true => rw [(hsame w hw).1, hw]
    | false => rw [hothers w hw]
  runs := by
    intro w op hrunning
    obtain ⟨hworker, hread⟩ := hsame w ((h.workers w).mpr (List.mem_map_of_mem hrunning))
    rw [hworker, hread]
    exact h.runs w op hrunning
  serial := hfactor ▸ h.serial

/-- A worker begins a report. -/
theorem InSeries.begin (h : InSeries lim target start begun running s)
    (hbefore : (s.system.workers w).reportsOn target = false)
    (hothers : ∀ w', w' ≠ w →
      s'.system.workers w' = s.system.workers w' ∧ s'.read w' = s.read w')
    (hreports : (s'.system.workers w).reportsOn target = true)
    (hruns : (s'.system.workers w).Runs lim (s'.read w) op)
    (hfactor : s'.system.factor target = s.system.factor target) :
    InSeries lim target start (begun ++ [op]) ((w, op) :: running) s' := by
  have hnew : w ∉ running.map Prod.fst := fun hmem => by
    rw [← h.workers w, hbefore] at hmem
    cases hmem
  refine ⟨List.nodup_cons.mpr ⟨hnew, h.nodup⟩, fun w' => ?_, fun w' op' hrunning => ?_, ?_⟩
  · rw [List.map_cons, List.mem_cons]
    rcases eq_or_ne w' w with rfl | hne
    · exact ⟨fun _ => Or.inl rfl, fun _ => hreports⟩
    · rw [(hothers w' hne).1, h.workers w']
      exact ⟨Or.inr, fun hmem => hmem.resolve_left hne⟩
  · rcases List.mem_cons.mp hrunning with heq | hrunning
    · obtain ⟨rfl, rfl⟩ := Prod.mk.inj heq
      exact hruns
    · have hne : w' ≠ w := fun heq => hnew (heq ▸ List.mem_map_of_mem hrunning)
      rw [(hothers w' hne).1, (hothers w' hne).2]
      exact h.runs w' op' hrunning
  · exact hfactor ▸ h.serial.begin w op

/-- A report goes on without a write. -/
theorem InSeries.goOn (h : InSeries lim target start begun running s)
    (hrunning : (w, op) ∈ running)
    (hothers : ∀ w', w' ≠ w →
      s'.system.workers w' = s.system.workers w' ∧ s'.read w' = s.read w')
    (hreports : (s'.system.workers w).reportsOn target = true)
    (hruns : (s'.system.workers w).Runs lim (s'.read w) op)
    (hfactor : s'.system.factor target = s.system.factor target) :
    InSeries lim target start begun running s' := by
  refine ⟨h.nodup, fun w' => ?_, fun w' op' hrunning' => ?_, hfactor ▸ h.serial⟩
  · rcases eq_or_ne w' w with rfl | hne
    · exact ⟨fun _ => List.mem_map_of_mem hrunning, fun _ => hreports⟩
    · rw [(hothers w' hne).1, h.workers w']
  · rcases eq_or_ne w' w with rfl | hne
    · have hsame : op' = op := congrArg Prod.snd
        (List.inj_on_of_nodup_map h.nodup hrunning' hrunning rfl)
      exact hsame ▸ hruns
    · rw [(hothers w' hne).1, (hothers w' hne).2]
      exact h.runs w' op' hrunning'

/-- A report ends, and the factor is what it makes of the one before. -/
theorem InSeries.finish (h : InSeries lim target start begun running s)
    (hrunning : (w, op) ∈ running)
    (hothers : ∀ w', w' ≠ w →
      s'.system.workers w' = s.system.workers w' ∧ s'.read w' = s.read w')
    (hends : (s'.system.workers w).reportsOn target = false)
    (hfactor : s'.system.factor target = lim.applyReport op (s.system.factor target)) :
    InSeries lim target start begun (running.erase (w, op)) s' := by
  have hperm : running.Perm ((w, op) :: running.erase (w, op)) := List.perm_cons_erase hrunning
  have hkeys : (running.map Prod.fst).Perm (w :: (running.erase (w, op)).map Prod.fst) :=
    hperm.map Prod.fst
  obtain ⟨hgone, hnodup⟩ := List.nodup_cons.mp (hkeys.nodup_iff.mp h.nodup)
  refine ⟨hnodup, fun w' => ?_, fun w' op' hrunning' => ?_, hfactor ▸ h.serial.finish hperm⟩
  · rcases eq_or_ne w' w with rfl | hne
    · exact ⟨fun hreports => absurd (hends.symm.trans hreports) (by decide),
        fun hmem => absurd hmem hgone⟩
    · rw [(hothers w' hne).1, h.workers w', hkeys.mem_iff, List.mem_cons]
      exact ⟨fun hmem => hmem.resolve_left hne, Or.inr⟩
  · have hne : w' ≠ w := by
      rintro rfl
      exact hgone (List.mem_map_of_mem hrunning')
    rw [(hothers w' hne).1, (hothers w' hne).2]
    exact h.runs w' op' (List.mem_of_mem_erase hrunning')

/-! ## Steps -/

/-- A command of a worker that does not report on the target leaves the
factor alone. -/
theorem command_elsewhere (lim : RateLimiter) (now : ℚ) (redis : LimiterStore) {worker : Worker}
    (h : worker.reportsOn target = false) :
    (lim.command now redis worker).1.entries (factorKey target) =
        redis.entries (factorKey target) ∧
      (lim.command now redis worker).2.1.reportsOn target = false := by
  have hother {targetId : Str} (ht : decide (targetId = target) = false) :
      factorKey target ≠ factorKey targetId := by
    rw [Ne, factorKey_inj]
    exact fun heq => of_decide_eq_false ht heq.symm
  cases worker with
  | idle => exact ⟨rfl, rfl⟩
  | getRate call => exact ⟨rfl, rfl⟩
  | watch call rate tries => exact ⟨rfl, rfl⟩
  | readBucket call rate tries watch => exact ⟨rfl, rfl⟩
  | readClock call rate tries watch raw => exact ⟨rfl, rfl⟩
  | exec call rate tries watch raw reading =>
    cases hchanged : redis.changed now watch with
    | true =>
      rw [command_exec_conflict hchanged]
      cases tries <;> exact ⟨rfl, rfl⟩
    | false =>
      rw [command_exec_commit hchanged]
      exact ⟨(Store.put_agreeOn (bucketKey_ne_factorKey _ _).symm _ _).1, rfl⟩
  | getForBackpressure targetId factor ttl => exact ⟨rfl, h⟩
  | setBackpressure targetId newFactor ttl =>
    simp only [RateLimiter.command]
    split
    · exact ⟨(Store.put_agreeOn (hother h) _ _).1, rfl⟩
    · exact ⟨rfl, rfl⟩
  | getForSuccess targetId =>
    simp only [RateLimiter.command]
    split
    · exact ⟨rfl, rfl⟩
    · split
      · exact ⟨rfl, h⟩
      · exact ⟨rfl, h⟩
  | deleteFactor targetId => exact ⟨(Store.erase_agreeOn (hother h)).1, rfl⟩
  | readTtl targetId recovered => exact ⟨rfl, h⟩
  | setRecovered targetId recovered ttl => exact ⟨(Store.put_agreeOn (hother h) _ _).1, rfl⟩

/-- The factor depends on the entry and the clock. -/
theorem factor_congr {redis redis' : LimiterStore} {now : ℚ}
    (h : redis'.entries (factorKey target) = redis.entries (factorKey target)) :
    readFactor redis' now target = readFactor redis now target := by
  unfold readFactor Store.get Store.find?
  rw [h]

theorem readFactor_put (redis : LimiterStore) {now deadline : ℚ} (h : now < deadline) (value : ℚ) :
    readFactor (redis.put (factorKey target) (.factor value) (some deadline)) now target =
      some value := by
  unfold readFactor Store.get Store.find?
  rw [Store.put_entries]
  simp [Option.filter, Entry.isLive, h]

theorem lt_deadline (now : ℚ) {seconds : ℤ} (h : 0 < seconds) : now < now + (seconds : ℚ) := by
  have : (0 : ℚ) < seconds := by exact_mod_cast h
  linarith

/-- The lifetime of a factor that has recovered in part. -/
theorem recovery_pos (ttl : ℤ) : 0 < (if 0 < ttl then ttl else 60 : ℤ) := by split <;> omega

theorem readFactor_erase (redis : LimiterStore) (now : ℚ) :
    readFactor (redis.erase (factorKey target)) now target = none := by
  unfold readFactor Store.get Store.find?
  rw [Store.erase_entries]
  rfl

/-- A tick in which the factor does not expire. -/
theorem readFactor_tick {redis : LimiterStore} {now now' : ℚ}
    (h : (redis.find? now' (factorKey target)).isSome =
      (redis.find? now (factorKey target)).isSome) :
    readFactor redis now' target = readFactor redis now target := by
  have hsame : redis.find? now' (factorKey target) = redis.find? now (factorKey target) := by
    cases hfind : redis.find? now (factorKey target) with
    | none => simpa [hfind] using h
    | some e =>
      rw [hfind] at h
      obtain ⟨e', hfind'⟩ := Option.isSome_iff_exists.mp h
      rw [hfind', ← Store.entries_of_find? hfind', ← Store.entries_of_find? hfind]
  unfold readFactor Store.get
  rw [hsame]

/-- The workers behind an action, but for the one it is about. -/
theorem step_others (lim : RateLimiter) (target : Str) (s : FactorRun) {w w' : ℕ} (hne : w' ≠ w) :
    (s.step lim target (.advance w)).system.workers w' = s.system.workers w' ∧
      (s.step lim target (.advance w)).read w' = s.read w' := by
  refine ⟨if_neg hne, if_neg ?_⟩
  rintro ⟨heq, -⟩
  exact hne (LimiterAction.advance.inj heq).symm

theorem step_worker (lim : RateLimiter) (target : Str) (s : FactorRun) (w : ℕ) :
    (s.step lim target (.advance w)).system.workers w =
      (lim.command s.system.now s.system.redis (s.system.workers w)).2.1 := if_pos rfl

theorem step_read (lim : RateLimiter) (target : Str) (s : FactorRun) (w : ℕ) :
    (s.step lim target (.advance w)).read w =
      if (s.system.workers w).readsFactor target then s.system.factor target else s.read w := by
  simp [FactorRun.step]

/-! ## Commands of a report -/

/-- After the command the report goes on, knowing this factor, and nothing
was written. -/
def GoesOn (lim : RateLimiter) (target : Str) (read : Option ℚ) (op : LimiterOp) (now : ℚ)
    (redis redis' : LimiterStore) (worker' : Worker) : Prop :=
  worker'.reportsOn target = true ∧ worker'.Runs lim read op ∧
    readFactor redis' now target = readFactor redis now target

/-- After the command the report is over, and its write is made. -/
def Ends (lim : RateLimiter) (target : Str) (op : LimiterOp) (now : ℚ)
    (redis redis' : LimiterStore) (worker' : Worker) : Prop :=
  worker'.reportsOn target = false ∧
    readFactor redis' now target = lim.applyReport op (readFactor redis now target)

variable {now : ℚ} {redis : LimiterStore} {read : Option ℚ}

theorem setBackpressure_ends (target : Str) {factor : ℚ} {ttl : ℤ}
    (hok : 0 < ttl → readFactor redis now target = read) :
    Ends lim target (.reportBackpressure target factor ttl) now redis
      (lim.command now redis (.setBackpressure target
        (max (read.getD 1 * factor) lim.minFactor) ttl)).1
      (lim.command now redis (.setBackpressure target
        (max (read.getD 1 * factor) lim.minFactor) ttl)).2.1 := by
  unfold Ends
  simp only [RateLimiter.command, RateLimiter.applyReport]
  by_cases httl : 0 < ttl
  · rw [if_pos httl, if_pos httl, hok httl]
    exact ⟨rfl, readFactor_put redis (lt_deadline now httl) _⟩
  · rw [if_neg httl, if_neg httl]
    exact ⟨rfl, rfl⟩

/-- A success ends where there is no factor, and else knows which way to go. -/
theorem getForSuccess_command (lim : RateLimiter) (target : Str) (now : ℚ) (redis : LimiterStore) :
    GoesOn lim target (readFactor redis now target) (.reportSuccess target) now redis
        (lim.command now redis (.getForSuccess target)).1
        (lim.command now redis (.getForSuccess target)).2.1 ∨
      Ends lim target (.reportSuccess target) now redis
        (lim.command now redis (.getForSuccess target)).1
        (lim.command now redis (.getForSuccess target)).2.1 := by
  unfold GoesOn Ends
  simp only [RateLimiter.command]
  cases hfactor : readFactor redis now target with
  | none => exact .inr ⟨rfl, hfactor⟩
  | some current =>
    left
    by_cases hle : 1 ≤ current
    · simp only [if_pos hle]
      exact ⟨by simp [Worker.reportsOn], ⟨rfl, current, rfl, hle⟩, hfactor⟩
    · simp only [if_neg hle]
      exact ⟨by simp [Worker.reportsOn], ⟨rfl, current, rfl, hle, rfl⟩, hfactor⟩

theorem deleteFactor_ends (target : Str) {current : ℚ} (hle : 1 ≤ current)
    (hcurrent : readFactor redis now target = some current) :
    Ends lim target (.reportSuccess target) now redis
      (lim.command now redis (.deleteFactor target)).1
      (lim.command now redis (.deleteFactor target)).2.1 := by
  unfold Ends
  rw [hcurrent]
  simp only [RateLimiter.command, RateLimiter.applyReport, if_pos hle]
  exact ⟨rfl, readFactor_erase redis now⟩

theorem setRecovered_ends (target : Str) {current : ℚ} (hlt : ¬ 1 ≤ current) (ttl : ℤ)
    (hcurrent : readFactor redis now target = some current) :
    Ends lim target (.reportSuccess target) now redis
      (lim.command now redis (.setRecovered target (min 1 (current * (11 / 10))) ttl)).1
      (lim.command now redis (.setRecovered target (min 1 (current * (11 / 10))) ttl)).2.1 := by
  unfold Ends
  rw [hcurrent]
  simp only [RateLimiter.command, RateLimiter.applyReport, if_neg hlt]
  exact ⟨rfl, readFactor_put redis (lt_deadline now (recovery_pos ttl)) _⟩

/-- **A command of a report** goes on with it, or ends it. -/
theorem report_command {worker : Worker} (hon : worker.reportsOn target = true)
    (hruns : worker.Runs lim read op)
    (hok : worker.writesFactor target = true → readFactor redis now target = read) :
    GoesOn lim target (if worker.readsFactor target then readFactor redis now target else read) op
        now redis (lim.command now redis worker).1 (lim.command now redis worker).2.1 ∨
      Ends lim target op now redis (lim.command now redis worker).1
        (lim.command now redis worker).2.1 := by
  cases worker with
  | idle => cases hon
  | getRate call => cases hon
  | watch call rate tries => cases hon
  | readBucket call rate tries watch => cases hon
  | readClock call rate tries watch raw => cases hon
  | exec call rate tries watch raw reading => cases hon
  | getForBackpressure targetId factor ttl =>
    obtain rfl : targetId = target := of_decide_eq_true hon
    rw [if_pos (by simp [Worker.readsFactor])]
    exact .inl ⟨hon, ⟨factor, hruns, rfl⟩, rfl⟩
  | setBackpressure targetId newFactor ttl =>
    obtain rfl : targetId = target := of_decide_eq_true hon
    obtain ⟨factor, rfl, rfl⟩ := hruns
    exact .inr (setBackpressure_ends targetId fun httl => hok (by simp [Worker.writesFactor, httl]))
  | getForSuccess targetId =>
    obtain rfl : targetId = target := of_decide_eq_true hon
    obtain rfl : op = .reportSuccess targetId := hruns
    rw [if_pos (by simp [Worker.readsFactor])]
    exact getForSuccess_command lim targetId now redis
  | deleteFactor targetId =>
    obtain rfl : targetId = target := of_decide_eq_true hon
    obtain ⟨rfl, current, hread, hle⟩ := hruns
    exact .inr (deleteFactor_ends targetId hle ((hok hon).trans hread))
  | readTtl targetId recovered =>
    rw [if_neg (by simp [Worker.readsFactor])]
    exact .inl ⟨hon, hruns, rfl⟩
  | setRecovered targetId recovered ttl =>
    obtain rfl : targetId = target := of_decide_eq_true hon
    obtain ⟨rfl, current, hread, hlt, rfl⟩ := hruns
    exact .inr (setRecovered_ends targetId hlt ttl ((hok hon).trans hread))

/-- A worker that reports takes a step. -/
theorem InSeries.advance (h : InSeries lim target start begun running s)
    (hrunning : (w, op) ∈ running) (hok : s.Undisturbed target (.advance w)) :
    ∃ running', InSeries lim target start begun running' (s.step lim target (.advance w)) := by
  have hon : (s.system.workers w).reportsOn target = true :=
    (h.workers w).mpr (List.mem_map_of_mem hrunning)
  have hothers (w' : ℕ) (hne : w' ≠ w) := step_others lim target s hne
  have hcommand := report_command hon (h.runs w op hrunning) hok
  have hread : (if (s.system.workers w).readsFactor target then
      readFactor s.system.redis s.system.now target else s.read w) =
        (s.step lim target (.advance w)).read w := (step_read lim target s w).symm
  rw [hread, ← step_worker lim target s w] at hcommand
  rcases hcommand with ⟨hreports, hruns, hfactor⟩ | ⟨hends, hfactor⟩
  · exact ⟨running, h.goOn hrunning hothers hreports hruns hfactor⟩
  · exact ⟨_, h.finish hrunning hothers hends hfactor⟩

theorem begin_reportsOn (target : Str) (op : LimiterOp) :
    op.begin.reportsOn target = op.reportsOn target := by
  cases op <;> rfl

/-- A worker that is idle begins an operation. -/
theorem InSeries.call (h : InSeries lim target start begun running s) (w : ℕ) (op : LimiterOp) :
    ∃ running', InSeries lim target start (begun ++ begunReport target s.system (.start w op))
      running' (s.step lim target (.start w op)) := by
  have hread (w' : ℕ) : (s.step lim target (.start w op)).read w' = s.read w' := by
    simp [FactorRun.step]
  by_cases hidle : s.system.workers w = .idle
  · have hbefore : (s.system.workers w).reportsOn target = false := by rw [hidle]; rfl
    have hsystem : (s.step lim target (.start w op)).system =
        { s.system with
          workers := fun w' => if w' = w then op.begin else s.system.workers w' } := if_pos hidle
    have hworker : (s.step lim target (.start w op)).system.workers w = op.begin := by
      rw [hsystem]
      exact if_pos rfl
    have hothers (w' : ℕ) (hne : w' ≠ w) :
        (s.step lim target (.start w op)).system.workers w' = s.system.workers w' := by
      rw [hsystem]
      exact if_neg hne
    have hfactor : (s.step lim target (.start w op)).system.factor target =
        s.system.factor target := by
      rw [hsystem]
      rfl
    cases hop : op.reportsOn target with
    | true =>
      have hbegun : begunReport target s.system (.start w op) = [op] := if_pos ⟨hidle, hop⟩
      rw [hbegun]
      refine ⟨_, h.begin hbefore (fun w' hne => ⟨hothers w' hne, hread w'⟩) ?_ ?_ hfactor⟩
      · rw [hworker, begin_reportsOn, hop]
      · rw [hworker]
        cases op with
        | tryAcquire call => cases hop
        | reportBackpressure targetId factor ttl => exact rfl
        | reportSuccess targetId => exact rfl
    | false =>
      have hbegun : begunReport target s.system (.start w op) = [] := if_neg (by simp [hop])
      rw [hbegun, List.append_nil]
      refine ⟨running, h.elsewhere (fun w' hw' => ?_) (fun w' hw' => ?_) hfactor⟩
      · have hne : w' ≠ w := by
          rintro rfl
          rw [hbefore] at hw'
          cases hw'
        exact ⟨hothers w' hne, hread w'⟩
      · rcases eq_or_ne w' w with rfl | hne
        · rw [hworker, begin_reportsOn, hop]
        · rw [hothers w' hne, hw']
  · -- the worker is busy, and nothing begins
    have hbegun : begunReport target s.system (.start w op) = [] := if_neg fun h => hidle h.1
    have hsystem : (s.step lim target (.start w op)).system = s.system := if_neg hidle
    rw [hbegun, List.append_nil]
    refine ⟨running, h.elsewhere (fun w' _ => ⟨by rw [hsystem], hread w'⟩) ?_ (by rw [hsystem])⟩
    intro w' hw'
    rw [hsystem, hw']

/-- **One action.** -/
theorem InSeries.step (h : InSeries lim target start begun running s) (a : LimiterAction)
    (hok : s.Undisturbed target a) :
    ∃ running', InSeries lim target start (begun ++ begunReport target s.system a) running'
      (s.step lim target a) := by
  cases a with
  | start w op => exact h.call w op
  | tick seconds =>
    have hread (w : ℕ) : (s.step lim target (.tick seconds)).read w = s.read w := by
      simp [FactorRun.step]
    have hbegun : begunReport target s.system (.tick seconds) = [] := rfl
    refine ⟨running, ?_⟩
    rw [hbegun, List.append_nil]
    exact h.elsewhere (fun w _ => ⟨rfl, hread w⟩) (fun w hw => hw) (readFactor_tick hok)
  | advance w =>
    have hbegun : begunReport target s.system (.advance w) = [] := rfl
    rw [hbegun, List.append_nil]
    cases hon : (s.system.workers w).reportsOn target with
    | true =>
      obtain ⟨⟨w', op⟩, hrunning, rfl⟩ := List.mem_map.mp ((h.workers w).mp hon)
      exact h.advance hrunning hok
    | false =>
      obtain ⟨hentries, hafter⟩ := command_elsewhere lim s.system.now s.system.redis hon
      refine ⟨running, h.elsewhere (fun w' hw' => ?_) (fun w' hw' => ?_) (factor_congr hentries)⟩
      · refine step_others lim target s ?_
        rintro rfl
        rw [hon] at hw'
        cases hw'
      · rcases eq_or_ne w' w with rfl | hne
        · rw [step_worker, hafter]
        · rw [(step_others lim target s hne).1, hw']

theorem InSeries.run (h : InSeries lim target start begun running s) {actions : List LimiterAction}
    (hok : Along (FactorRun.step lim target) (FactorRun.Undisturbed target) s actions) :
    ∃ running', InSeries lim target start (begun ++ begunReports lim target s.system actions)
      running' (run (FactorRun.step lim target) s actions) := by
  induction actions generalizing begun running s with
  | nil =>
    rw [begunReports, List.append_nil]
    exact ⟨running, h⟩
  | cons a actions ih =>
    obtain ⟨running', h'⟩ := h.step a hok.1
    rw [begunReports, ← List.append_assoc]
    exact ih h' hok.2

/-- Nobody reports. -/
theorem inSeries_idle (lim : RateLimiter) (target : Str) {system : LimiterSystem}
    (hidle : ∀ w, system.workers w = .idle) :
    InSeries lim target (system.factor target) [] [] { system := system } where
  nodup := List.nodup_nil
  workers := by
    intro w
    rw [hidle w]
    exact ⟨fun h => (by cases h), fun h => (by cases h)⟩
  runs := fun w op h => by cases h
  serial := Serial.nil _ _

theorem InSeries.idle (h : InSeries lim target start begun running s)
    (hidle : ∀ w, s.system.workers w = .idle) : running = [] := by
  cases hrunning : running with
  | nil => rfl
  | cons entry rest =>
    have hon := (h.workers entry.1).mpr (by rw [hrunning]; exact List.mem_cons_self)
    rw [hidle] at hon
    cases hon

/-! ## Halving -/

/-- Once it is there, a factor that is halved again and again is halved that
often, down to the floor. -/
theorem applyReports_halves {reports : List LimiterOp}
    (h : ∀ op ∈ reports, ∃ ttl : ℤ, 0 < ttl ∧ op = .reportBackpressure target (1 / 2) ttl)
    {x : ℚ} (hx : 0 < x) :
    lim.applyReports reports (some (max x lim.minFactor)) =
      some (max (x * (1 / 2) ^ reports.length) lim.minFactor) := by
  induction reports generalizing x with
  | nil => simp [RateLimiter.applyReports]
  | cons op reports ih =>
    obtain ⟨ttl, httl, rfl⟩ := h op List.mem_cons_self
    have hhalf : max (max x lim.minFactor * (1 / 2)) lim.minFactor =
        max (x * (1 / 2)) lim.minFactor := by
      rcases le_total x lim.minFactor with hle | hle
      · have hfloor : lim.minFactor * (1 / 2) ≤ lim.minFactor := by linarith
        have hlow : x * (1 / 2) ≤ lim.minFactor := by linarith
        rw [max_eq_right hle, max_eq_right hfloor, max_eq_right hlow]
      · rw [max_eq_left hle]
    have hstep : lim.applyReports (.reportBackpressure target (1 / 2) ttl :: reports)
        (some (max x lim.minFactor)) =
          lim.applyReports reports (some (max (x * (1 / 2)) lim.minFactor)) := by
      simp only [RateLimiter.applyReports, List.foldl_cons, RateLimiter.applyReport, if_pos httl,
        Option.getD_some, hhalf]
    rw [hstep, ih (fun op hop => h op (List.mem_cons_of_mem _ hop)) (by linarith),
      List.length_cons, pow_succ']
    congr 2
    ring

theorem applyReports_halves_none {reports : List LimiterOp} (hne : reports ≠ [])
    (h : ∀ op ∈ reports, ∃ ttl : ℤ, 0 < ttl ∧ op = .reportBackpressure target (1 / 2) ttl) :
    lim.applyReports reports none = some (max ((1 / 2) ^ reports.length) lim.minFactor) := by
  cases reports with
  | nil => exact absurd rfl hne
  | cons op reports =>
    obtain ⟨ttl, httl, rfl⟩ := h op List.mem_cons_self
    have hstep : lim.applyReports (.reportBackpressure target (1 / 2) ttl :: reports) none =
        lim.applyReports reports (some (max (1 / 2) lim.minFactor)) := by
      simp only [RateLimiter.applyReports, List.foldl_cons, RateLimiter.applyReport, if_pos httl,
        Option.getD_none, one_mul]
    rw [hstep, applyReports_halves (fun op hop => h op (List.mem_cons_of_mem _ hop)) (by norm_num),
      List.length_cons, pow_succ']

/-- **No report is lost** if each write finds the factor its report has
read: the factor is that of the reports one after another, in some order,
and n reports that halve it leave the n-th power of a half, or the floor. -/
theorem reports_serial (lim : RateLimiter) (target : Str) {system : LimiterSystem}
    (hidle : ∀ w, system.workers w = .idle) {actions : List LimiterAction}
    (hok : Along (FactorRun.step lim target) (FactorRun.Undisturbed target) { system := system }
      actions)
    (hend : ∀ w, (run lim.step system actions).workers w = .idle) :
    (∃ order, order.Perm (begunReports lim target system actions) ∧
      (run lim.step system actions).factor target =
        lim.applyReports order (system.factor target)) ∧
      (system.factor target = none → begunReports lim target system actions ≠ [] →
        (∀ op ∈ begunReports lim target system actions,
          ∃ ttl : ℤ, 0 < ttl ∧ op = .reportBackpressure target (1 / 2) ttl) →
        (run lim.step system actions).factor target =
          some (max ((1 / 2) ^ (begunReports lim target system actions).length)
            lim.minFactor)) := by
  obtain ⟨running, hseries⟩ := (inSeries_idle lim target hidle).run hok
  have hsystem : (run (FactorRun.step lim target) { system := system } actions).system =
      run lim.step system actions := run_system lim target _ actions
  have hnone : running = [] := hseries.idle (by rw [hsystem]; exact hend)
  subst hnone
  obtain ⟨order, hperm, hvalue⟩ := hseries.serial.result
  rw [hsystem] at hvalue
  rw [List.nil_append] at hperm
  refine ⟨⟨order, hperm, hvalue⟩, fun hfactor hne hhalves => ?_⟩
  have horder : order ≠ [] := by
    rintro rfl
    exact hne (List.nil_perm.mp hperm)
  have hresult : lim.applyReports order none =
      some (max ((1 / 2) ^ order.length) lim.minFactor) :=
    applyReports_halves_none horder fun op hop => hhalves op (hperm.mem_iff.mp hop)
  rw [hvalue, hfactor, ← hperm.length_eq]
  exact hresult

/-- A report alone does what `applyReport` says. -/
theorem report_alone (lim : RateLimiter) {target : Str} {system : LimiterSystem} {w : ℕ}
    (hidle : system.workers w = .idle) {op : LimiterOp} (hop : op.reportsOn target = true) :
    (run lim.step system [.start w op, .advance w, .advance w, .advance w]).factor target =
      lim.applyReport op (system.factor target) := by
  cases op with
  | tryAcquire call => cases hop
  | reportBackpressure targetId factor ttl =>
    obtain rfl : targetId = target := of_decide_eq_true hop
    by_cases httl : 0 < ttl
    · have hlater := lt_deadline system.now httl
      simp [RateLimiter.step, hidle, LimiterOp.begin, RateLimiter.command, httl,
        LimiterSystem.factor, RateLimiter.applyReport, readFactor_put _ hlater]
    · simp [RateLimiter.step, hidle, LimiterOp.begin, RateLimiter.command, httl,
        LimiterSystem.factor, RateLimiter.applyReport]
  | reportSuccess targetId =>
    obtain rfl : targetId = target := of_decide_eq_true hop
    cases hread : readFactor system.redis system.now targetId with
    | none =>
      simp [RateLimiter.step, hidle, LimiterOp.begin, RateLimiter.command, hread,
        LimiterSystem.factor, RateLimiter.applyReport]
    | some current =>
      by_cases hle : 1 ≤ current
      · simp [RateLimiter.step, hidle, LimiterOp.begin, RateLimiter.command, hread, hle,
          LimiterSystem.factor, RateLimiter.applyReport, readFactor_erase]
      · have hlater (seconds : ℤ) := lt_deadline system.now (recovery_pos seconds)
        simpa [RateLimiter.step, hidle, LimiterOp.begin, RateLimiter.command, hread, hle,
          LimiterSystem.factor, RateLimiter.applyReport] using
            readFactor_put system.redis (hlater (readTtl system.redis system.now
              (factorKey targetId))) (min 1 (current * (11 / 10)))

/-- The worker an action is about. -/
def LimiterAction.worker : LimiterAction → Option ℕ
  | .tick _ => none
  | .start w _ | .advance w => some w

theorem run_other_worker {lim : RateLimiter} {actions : List LimiterAction} {w : ℕ}
    (h : ∀ a ∈ actions, a.worker ≠ some w) (s : LimiterSystem) :
    (run lim.step s actions).workers w = s.workers w := by
  have hstep : ∀ (s' : LimiterSystem) (a : LimiterAction), s'.workers w = s.workers w →
      a.worker ≠ some w → (lim.step s' a).workers w = s.workers w := by
    intro s' a hs' ha
    cases a with
    | tick seconds => exact hs'
    | start w' op =>
      have hne : w ≠ w' := fun heq => ha (congrArg some heq.symm)
      simp only [RateLimiter.step]
      split
      · exact (if_neg hne).trans hs'
      · exact hs'
    | advance w' =>
      have hne : w ≠ w' := fun heq => ha (congrArg some heq.symm)
      exact (if_neg hne).trans hs'
  exact run_invariant hstep rfl (Along.of_forall h s)

/-- One worker halves the factor, and another one after it. -/
def oneAfterAnother (target : Str) : List LimiterAction :=
  [.start 0 (.reportBackpressure target (1 / 2) 60),
    .start 1 (.reportBackpressure target (1 / 2) 60),
    .advance 0, .advance 0, .tick 1, .advance 1, .advance 1]

theorem oneAfterAnother_quarter :
    (run defaultLimiter.step (.start 0) (oneAfterAnother "t".toList)).factor "t".toList =
      some (max ((1 / 2) ^ 2) (1 / 20)) := by
  have hidle (w : ℕ) :
      (run defaultLimiter.step (.start 0) (oneAfterAnother "t".toList)).workers w = .idle := by
    match w with
    | 0 => decide +kernel
    | 1 => decide +kernel
    | w + 2 =>
      refine run_other_worker ?_ _
      simp [oneAfterAnother, LimiterAction.worker]
  have hok : Along (FactorRun.step defaultLimiter "t".toList) (FactorRun.Undisturbed "t".toList)
      { system := .start 0 } (oneAfterAnother "t".toList) := by decide +kernel
  have hbegun : begunReports defaultLimiter "t".toList (.start 0) (oneAfterAnother "t".toList) =
      [.reportBackpressure "t".toList (1 / 2) 60, .reportBackpressure "t".toList (1 / 2) 60] := by
    decide +kernel
  obtain ⟨-, hhalves⟩ := reports_serial defaultLimiter "t".toList (fun _ => rfl) hok hidle
  rw [hbegun] at hhalves
  refine hhalves rfl (by simp) ?_
  intro op hop
  refine ⟨60, by decide, ?_⟩
  simpa using hop

/-- Both read the factor before either halves it. -/
def bothBefore (target : Str) : List LimiterAction :=
  [.start 0 (.reportBackpressure target (1 / 2) 60),
    .start 1 (.reportBackpressure target (1 / 2) 60),
    .advance 0, .advance 1, .advance 0, .advance 1]

/-- One of the two reports is lost: no order of them leads to a half. -/
theorem bothBefore_half :
    (run defaultLimiter.step (.start 0) (bothBefore "t".toList)).factor "t".toList =
        some (1 / 2) ∧
      ¬ ∃ order, order.Perm
          (begunReports defaultLimiter "t".toList (.start 0) (bothBefore "t".toList)) ∧
        (run defaultLimiter.step (.start 0) (bothBefore "t".toList)).factor "t".toList =
          defaultLimiter.applyReports order ((LimiterSystem.start 0).factor "t".toList) := by
  have hhalf : (run defaultLimiter.step (.start 0) (bothBefore "t".toList)).factor "t".toList =
      some (1 / 2) := by decide +kernel
  have hbegun : begunReports defaultLimiter "t".toList (.start 0) (bothBefore "t".toList) =
      List.replicate 2 (.reportBackpressure "t".toList (1 / 2) 60) := by decide +kernel
  refine ⟨hhalf, ?_⟩
  rintro ⟨order, hperm, hvalue⟩
  rw [hbegun] at hperm
  obtain rfl := List.perm_replicate.mp hperm
  rw [hhalf] at hvalue
  revert hvalue
  decide +kernel

end Sentinel.Core
