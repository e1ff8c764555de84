/-
Sentinel.Worker.ScanRunnerTheorems — what successive runs of `run_scan`
commit.

A run that finds the scan QUEUED commits along the lifecycle, each commit
at or behind the one before it and never out of a terminal state or of
PAUSED, and never raises `InvalidTransition`. A run that finds any other
state is refused at its first transition and commits nothing.
-/
import Sentinel.Worker.ScanRunner

namespace Sentinel.Worker

open Sentinel.Py Sentinel.Core Sentinel.Db Sentinel.Crawler Sentinel.Durable

/-- The work commits nothing, leaves the lifecycle alone and has no
trouble with the state machine. -/
abbrev Quiet {α : Type} (p : ScanProgram α) : Prop :=
  Keeps Snapshot.lifecycle RunError.NotMachine p

theorem quiet_getOrCreatePhase (name : ScanPhaseName) {E : RunError → Prop} :
    Keeps Snapshot.lifecycle E (getOrCreatePhase name) := by
  refine (Keeps.get _).bind fun db => ?_
  split
  · exact Keeps.pure _ _
  · refine (Keeps.modify ?_).bind fun _ => (Keeps.point _).bind fun _ => Keeps.pure _ _
    exact fun _ => rfl

theorem quiet_startPhase (phase : Nat) (now : Instant) : Quiet (startPhase phase now) :=
  (Keeps.modify (Snapshot.modifyPhase_lifecycle _ _)).bind fun _ => Keeps.point _

theorem quiet_finishPhase (phase : Nat) (now : Instant) (status : PhaseStatus)
    (stats : PhaseStats) (error : Option Str) :
    Quiet (finishPhase phase now status stats error) :=
  (Keeps.modify (Snapshot.modifyPhase_lifecycle _ _)).bind fun _ => Keeps.point _

/-- The work does not touch the phase rows either, nor the end of the scan. -/
abbrev Calm {α : Type} (p : ScanProgram α) : Prop :=
  Keeps Snapshot.progress RunError.NotMachine p

theorem Calm.quiet {α : Type} {p : ScanProgram α} (h : Calm p) : Quiet p :=
  h.coarsen fun progress => (progress.1, progress.2.1)

theorem calm_withBrowser {α : Type} {work : ScanProgram α} (h : Calm work) :
    Calm (withBrowser work) := by
  refine (Keeps.point _).bind fun _ => (Keeps.point _).bind fun _ => h.bind fun _ => ?_
  exact (Keeps.point _).bind fun _ => (Keeps.point _).bind fun _ => (Keeps.point _).bind fun _ =>
    Keeps.pure _ _

theorem calm_establishStep (env : Environment) (acc : Nat × Dict) (persona : Persona) :
    Calm (establishStep env acc persona) := by
  refine (Keeps.point _).bind fun _ => ?_
  refine (Keeps.modify (Snapshot.modifyPersona_progress _ _)).bind fun _ => ?_
  split
  · exact Keeps.pure _ _
  · refine (Keeps.modify (Snapshot.modifyPersona_progress _ _)).bind fun _ => ?_
    refine (Keeps.modify fun db => ?_).bind fun _ => Keeps.pure _ _
    split <;> rfl

theorem calm_runAuthEstablishing (env : Environment) : Calm (runAuthEstablishing env) := by
  unfold runAuthEstablishing
  split
  · exact Keeps.pure _ _
  · refine (Keeps.point _).bind fun _ => ?_
    refine (Keeps.foldlM (calm_establishStep env) _ _).bind fun _ => ?_
    exact (Keeps.point _).bind fun _ => Keeps.pure _ _

theorem calm_crawlStep (env : Environment) (sessions : Dict) (surfaces : List SurfaceMap)
    (persona : Persona) : Calm (crawlStep env sessions surfaces persona) := by
  unfold crawlStep
  split
  · exact Keeps.pure _ _
  · exact (Keeps.point _).bind fun _ => Keeps.pure _ _

theorem calm_runCrawling (env : Environment) (sessions : Dict) : Calm (runCrawling env sessions) :=
  (Keeps.point _).bind fun _ => Keeps.foldlM (calm_crawlStep env sessions) _ _

theorem calm_sharedSetup (env : Environment) : Calm (sharedSetup env) :=
  (Keeps.point _).bind fun _ => (Keeps.point _).bind fun _ => (Keeps.point _).bind fun _ =>
    Keeps.modify fun _ => rfl

theorem calm_totalStep [PyRuntime] (total : MergeStats) (surface : SurfaceMap) :
    Calm (totalStep total surface) :=
  ((mergeSurfaceMap_keeps surface).coarsen fun scan =>
    (scan.state, scan.pausedFrom, scan.phases, scan.finishedAt)).bind fun _ => Keeps.pure _ _

theorem calm_mergeLoop [PyRuntime] (total : MergeStats) (surfaces : List SurfaceMap) :
    Calm (surfaces.foldlM totalStep total) :=
  Keeps.foldlM calm_totalStep total surfaces

theorem calm_degradeIf (condition : Bool) (reasons : List Str) :
    Calm (Program.modify fun db => if condition then db.degrade reasons else db) := by
  refine Keeps.modify fun db => ?_
  split <;> rfl

theorem quiet_finishScan (now : Instant) :
    Quiet (Program.modify (Snapshot.finishScan now) : ScanProgram Unit) :=
  Keeps.modify (Snapshot.finishScan_lifecycle now)

/-! ## Along the lifecycle -/

/-- A commit goes forward: it leaves neither a terminal state nor PAUSED,
does not queue the scan again and comes no earlier in the lifecycle. -/
structure Forward (disk next : Snapshot) : Prop where
  live : disk.scan.state ∉ terminalStates
  running : disk.scan.state ≠ .paused
  started : next.scan.state ≠ .queued
  le : disk.rank ≤ next.rank

/-- The machine and the session are in state `x`, ahead of a disk that is
neither terminal nor paused. -/
structure Midway (x : ScanState) (machine : ScanStateMachine) (disk session : Snapshot) : Prop where
  machine : machine.current = x
  session : session.scan.state = x
  live : disk.scan.state ∉ terminalStates
  running : disk.scan.state ≠ .paused
  behind : disk.rank ≤ x.rank

variable {x target : ScanState} {machine : ScanStateMachine} {disk session : Snapshot}

theorem lifecycleRank_of_ne_paused (h : x ≠ .paused) (pausedFrom : Option ScanState) :
    lifecycleRank x pausedFrom = x.rank := by
  cases x <;> first | rfl | exact absurd rfl h

/-- A state with a successor is not terminal. -/
theorem live_of_linear (h : target ∈ linearTransitions x) : x ∉ terminalStates := by
  cases x <;> simp_all [linearTransitions, terminalStates]

theorem canTransition_of_linear (h : target ∈ linearTransitions x) (hm : machine.current = x) :
    machine.canTransition target = true := by
  have hterminal : machine.isTerminal = false := by
    simpa [ScanStateMachine.isTerminal, hm] using live_of_linear h
  have htarget : target ≠ .paused ∧ target ∉ [ScanState.cancelled, .failed] := by
    cases x <;> simp only [linearTransitions, List.mem_cons, List.not_mem_nil, or_false] at h
    all_goals rcases h with rfl | rfl <;> decide
  simp [ScanStateMachine.canTransition, hterminal, htarget.1, htarget.2, hm, h]

/-- Entering a successor. -/
theorem Midway.enter (h : Midway x machine disk session) (hlinear : target ∈ linearTransitions x)
    {G : Snapshot → Snapshot → Prop} {E : RunError → Prop}
    {Q : ScanStateMachine → Snapshot → Snapshot → Prop}
    (hQ : ∀ m s, Midway target m disk s → Q m disk s) :
    wp G (enter machine target) Q E disk session := by
  have hok := ScanStateMachine.transition_ok none (canTransition_of_linear hlinear h.machine)
  simp only [Worker.enter, hok, Except.mapError, wp_bind, wp_ofExcept, wp_modify, wp_pure]
  exact hQ _ _ ⟨rfl, rfl, h.live, h.running, h.behind.trans (rank_lt_of_linear hlinear).le⟩

/-- Work that is quiet does not matter. -/
theorem Midway.quiet {α : Type} {p : ScanProgram α} (h : Midway x machine disk session)
    (hp : Quiet p) {G : Snapshot → Snapshot → Prop} {Q : α → Snapshot → Snapshot → Prop}
    (hQ : ∀ a s, Midway x machine disk s → Q a disk s) :
    wp G p Q RunError.NotMachine disk session := by
  refine hp.wp fun a s hview => hQ a s ?_
  have hstate : s.scan.state = session.scan.state := congrArg Prod.fst hview
  exact ⟨h.machine, hstate.trans h.session, h.live, h.running, h.behind⟩

/-- What is committed goes forward. -/
theorem Midway.forward (h : Midway x machine disk session) (hstarted : x ≠ .queued)
    (hrunning : x ≠ .paused) : Forward disk session where
  live := h.live
  running := h.running
  started := h.session ▸ hstarted
  le := by
    rw [Snapshot.rank.eq_def session, h.session, lifecycleRank_of_ne_paused hrunning]
    exact h.behind

/-- Committing a state on the way. -/
theorem Midway.commit (h : Midway x machine disk session)
    (hx : x ∉ terminalStates ∧ x ≠ .queued ∧ x ≠ .paused) {E : RunError → Prop}
    {Q : Unit → Snapshot → Snapshot → Prop}
    (hQ : Midway x machine session session → Q () session session) :
    wp Forward Program.commit Q E disk session := by
  obtain ⟨hlive, hstarted, hrunning⟩ := hx
  refine (wp_commit Q).mpr ⟨h.forward hstarted hrunning, hQ ?_⟩
  refine ⟨h.machine, h.session, h.session ▸ hlive, h.session ▸ hrunning, ?_⟩
  rw [Snapshot.rank, h.session, lifecycleRank_of_ne_paused hrunning]

/-! ## The phases go forward -/

theorem scopeVerifying_forward (env : Environment) (target : Target)
    (h : Midway .queued machine disk session) :
    wp Forward (scopeVerifying env target machine)
      (fun r d s => ∀ m ∈ r, Midway .scopeVerifying m d s) RunError.NotMachine disk session := by
  refine wp_seq (h.quiet (quiet_getOrCreatePhase _) fun phase s h => ?_)
  refine wp_seq (h.enter (by decide) fun m s h => ?_)
  refine wp_seq (h.quiet (quiet_startPhase _ _) fun _ s h => ?_)
  split
  · refine wp_seq (h.enter (by decide) fun m s h => ?_)
    refine wp_seq (h.quiet (quiet_finishPhase _ _ _ _ _) fun _ s h => ?_)
    refine wp_seq (h.quiet (quiet_finishScan _) fun _ s h => ?_)
    refine wp_seq ((wp_commit _).mpr ⟨h.forward (by decide) (by decide), ?_⟩)
    simp
  · refine wp_seq (h.quiet (quiet_finishPhase _ _ _ _ _) fun _ s h => ?_)
    refine wp_seq (h.commit (by decide) fun h => ?_)
    simpa using h

theorem recon_forward (env : Environment) (h : Midway .scopeVerifying machine disk session) :
    wp Forward (recon env machine) (fun m d s => Midway .recon m d s) RunError.NotMachine
      disk session := by
  refine wp_seq (h.quiet (quiet_getOrCreatePhase _) fun phase s h => ?_)
  refine wp_seq (h.enter (by decide) fun m s h => ?_)
  refine wp_seq (h.quiet (quiet_startPhase _ _) fun _ s h => ?_)
  refine wp_seq (h.commit (by decide) fun h => ?_)
  refine wp_seq (h.quiet (Keeps.point _) fun _ s h => ?_)
  refine wp_seq (h.quiet (Keeps.modify (Snapshot.addAssets_lifecycle _)) fun _ s h => ?_)
  refine wp_seq (h.quiet (quiet_finishPhase _ _ _ _ _) fun _ s h => ?_)
  refine wp_seq (h.quiet (calm_degradeIf _ _).quiet fun _ s h => ?_)
  refine wp_seq (h.commit (by decide) fun h => ?_)
  simpa using h

theorem logIn_forward (env : Environment) (phase : Nat)
    (h : Midway .authEstablishing machine disk session) :
    wp Forward (logIn env machine phase)
      (fun r d s => ∀ sessions ∈ r, Midway .authEstablishing machine d s) RunError.NotMachine
      disk session := by
  refine wp_seq (h.quiet (calm_withBrowser (calm_runAuthEstablishing env)).quiet fun r s h => ?_)
  dsimp only
  split
  · refine wp_seq (h.enter (by decide) fun m s h => ?_)
    refine wp_seq (h.quiet (quiet_finishPhase _ _ _ _ _) fun _ s h => ?_)
    refine wp_seq (h.quiet (quiet_finishScan _) fun _ s h => ?_)
    refine wp_seq ((wp_commit _).mpr ⟨h.forward (by decide) (by decide), ?_⟩)
    simp
  · refine wp_seq (h.quiet (quiet_finishPhase _ _ _ _ _) fun _ s h => ?_)
    simpa using h

theorem authBranches_forward (env : Environment) (phase : Nat)
    (h : Midway .authEstablishing machine disk session) :
    wp Forward (authBranches env machine phase)
      (fun r d s => ∀ sessions ∈ r, Midway .authEstablishing machine d s) RunError.NotMachine
      disk session := by
  unfold authBranches
  split
  · refine wp_seq (h.quiet (Keeps.modify (Snapshot.degrade_lifecycle _)) fun _ s h => ?_)
    refine wp_seq (h.quiet (quiet_finishPhase _ _ _ _ _) fun _ s h => ?_)
    simpa using h
  · split
    · refine wp_seq (h.quiet (Keeps.modify (Snapshot.degrade_lifecycle _)) fun _ s h => ?_)
      refine wp_seq (h.quiet (quiet_finishPhase _ _ _ _ _) fun _ s h => ?_)
      simpa using h
    · exact logIn_forward env phase h

theorem authEstablishing_forward (env : Environment) (h : Midway .recon machine disk session) :
    wp Forward (authEstablishing env machine)
      (fun r d s => ∀ next ∈ r, Midway .crawling next.1 d s) RunError.NotMachine disk session := by
  refine wp_seq (h.quiet (calm_sharedSetup env).quiet fun _ s h => ?_)
  refine wp_seq (h.quiet (quiet_getOrCreatePhase _) fun phase s h => ?_)
  refine wp_seq (h.enter (by decide) fun m s h => ?_)
  refine wp_seq (h.quiet (quiet_startPhase _ _) fun _ s h => ?_)
  refine wp_seq (h.commit (by decide) fun h => ?_)
  refine wp_seq (wp_mono (authBranches_forward env phase h) (fun r d s h => ?_) fun _ he => he)
  cases r with
  | none => simp
  | some sessions =>
    refine wp_seq ((h sessions rfl).enter (by decide) fun m s h => ?_)
    refine wp_seq (h.commit (by decide) fun h => ?_)
    simpa using h

theorem crawling_forward (env : Environment) (sessions : Dict)
    (h : Midway .crawling machine disk session) :
    wp Forward (crawling env machine sessions) (fun r d s => Midway .surfaceMapping r.1 d s)
      RunError.NotMachine disk session := by
  refine wp_seq (h.quiet (quiet_getOrCreatePhase _) fun phase s h => ?_)
  refine wp_seq (h.quiet (quiet_startPhase _ _) fun _ s h => ?_)
  refine wp_seq (h.commit (by decide) fun h => ?_)
  refine wp_seq (h.quiet (calm_withBrowser (calm_runCrawling env sessions)).quiet fun r s h => ?_)
  refine wp_seq (h.quiet (quiet_finishPhase _ _ _ _ _) fun _ s h => ?_)
  refine wp_seq (h.enter (by decide) fun m s h => ?_)
  refine wp_seq (h.commit (by decide) fun h => ?_)
  simpa using h

/-- The pause keeps the place in the lifecycle. -/
theorem surfaceMapping_forward [PyRuntime] (env : Environment) (surfaces : List SurfaceMap)
    (h : Midway .surfaceMapping machine disk session) :
    wp Forward (surfaceMapping env machine surfaces) (fun _ _ _ => True) RunError.NotMachine
      disk session := by
  refine wp_seq (h.quiet (quiet_getOrCreatePhase _) fun phase s h => ?_)
  refine wp_seq (h.quiet (quiet_startPhase _ _) fun _ s h => ?_)
  refine wp_seq (h.commit (by decide) fun h => ?_)
  refine wp_seq (h.quiet (calm_mergeLoop _ _).quiet fun total s h => ?_)
  refine wp_seq (h.quiet (quiet_finishPhase _ _ _ _ _) fun _ s h => ?_)
  have hpause : machine.canTransition .paused = true := by
    simp [ScanStateMachine.canTransition, ScanStateMachine.isTerminal, terminalStates, h.machine]
  simp only [enter, ScanStateMachine.transition_ok none hpause, Except.mapError, wp_bind,
    wp_ofExcept, wp_modify, wp_pure, wp_commit]
  refine ⟨⟨h.live, h.running, by simp [Snapshot.degrade, Snapshot.modifyScan], ?_⟩, trivial⟩
  simpa [Snapshot.rank, Snapshot.degrade, Snapshot.modifyScan, lifecycleRank, h.machine] using h.behind

/-! ## Runs -/

theorem runPhases_forward [PyRuntime] (env : Environment) (target : Target)
    (h : Midway .queued machine disk session) :
    wp Forward (runPhases env target machine) (fun _ _ _ => True) RunError.NotMachine disk
      session := by
  refine wp_seq (wp_mono (scopeVerifying_forward env target h) (fun r d s h => ?_) fun _ he => he)
  cases r with
  | none => simp
  | some m =>
    refine wp_seq (wp_mono (recon_forward env (h m rfl)) (fun m d s h => ?_) fun _ he => he)
    refine wp_seq (wp_mono (authEstablishing_forward env h) (fun r d s h => ?_) fun _ he => he)
    cases r with
    | none => simp
    | some next =>
      refine wp_seq (wp_mono (crawling_forward env next.2 (h next rfl)) (fun r d s h => ?_)
        fun _ he => he)
      exact surfaceMapping_forward env r.2 h

/-- **A run that finds the scan QUEUED** goes forward and has no trouble
with the state machine. -/
theorem runScan_forward [PyRuntime] (env : Environment) (hqueued : disk.scan.state = .queued) :
    wp Forward (runScan env) (fun _ _ _ => True) RunError.NotMachine disk disk := by
  have h : Midway .queued { current := disk.scan.state, pausedFrom := disk.scan.pausedFrom }
      disk disk := by
    refine ⟨hqueued, hqueued, by simp [hqueued, terminalStates], by simp [hqueued], ?_⟩
    simp [Snapshot.rank, hqueued, lifecycleRank]
  refine wp_seq ((wp_point _).mpr ?_)
  split
  · simp
  · refine wp_seq ((wp_point _).mpr ?_)
    split
    · simp
    · next target _ =>
      refine wp_seq ((wp_get _).mpr ?_)
      refine wp_seq (wp_mono (runPhases_forward env target h) (fun _ _ _ _ => ?_) fun _ he => he)
      simp

/-- **A run that finds any other state** is refused at its first
transition, unless the scan or its target is gone. Nothing is committed. -/
theorem runScan_refused [PyRuntime] (env : Environment) (hstate : disk.scan.state ≠ .queued) :
    wp (fun _ _ => False) (runScan env) (fun _ _ _ => env.scanFound = false ∨ env.target = none)
      (fun e => e = .machine (.invalidTransition disk.scan.state .scopeVerifying)) disk disk := by
  have hrefused : ScanStateMachine.canTransition
      { current := disk.scan.state, pausedFrom := disk.scan.pausedFrom } .scopeVerifying = false := by
    rw [Bool.eq_false_iff, Ne, ScanStateMachine.canTransition_scopeVerifying]
    exact hstate
  refine wp_seq ((wp_point _).mpr ?_)
  split
  · next hfound => simpa using Or.inl (by simpa using hfound)
  · refine wp_seq ((wp_point _).mpr ?_)
    split
    · next hnone => simpa using Or.inr hnone
    · refine wp_seq ((wp_get _).mpr (wp_seq (wp_seq (wp_seq ?_))))
      refine (quiet_getOrCreatePhase _).wp fun phase s _ => wp_seq (wp_seq ?_)
      rw [ScanStateMachine.transition_error none hrefused]
      exact (wp_raise _ _).mpr rfl

/-! ## Attempts -/

variable [PyRuntime] {db : Snapshot}

/-- The attempt finds the scan waiting, or over. -/
def FindsQueuedOrOver (db : Snapshot) : Prop :=
  db.scan.state = .queued ∨ db.scan.state ∈ terminalStates

instance : DecidablePred FindsQueuedOrOver := fun db =>
  inferInstanceAs (Decidable (db.scan.state = .queued ∨ db.scan.state ∈ terminalStates))

theorem report_forward (a : ScanAttempt) (hqueued : db.scan.state = .queued) :
    List.IsChain Forward (db :: (a.report db).committed) :=
  attempt_isChain (runScan_forward a.env hqueued) a.stop

theorem committed_of_refused (a : ScanAttempt) (hstate : db.scan.state ≠ .queued) :
    (a.report db).committed = [] :=
  persisted_of_refused (runScan_refused a.env hstate) a.stop

theorem next_of_refused (a : ScanAttempt) (hstate : db.scan.state ≠ .queued) :
    a.next db = db := by
  have hnone : (a.toAttempt.report db).committed = [] := committed_of_refused a hstate
  rw [ScanAttempt.next, Attempt.next, Report.persisted, hnone]
  rfl

/-- An attempt that left the scan QUEUED committed nothing. -/
theorem next_of_queued (a : ScanAttempt) (hqueued : db.scan.state = .queued)
    (hnext : (a.next db).scan.state = .queued) : a.next db = db := by
  have hstarted := forall_of_isChain (P := fun s => s.scan.state ≠ .queued)
    (fun _ _ h => h.started) (report_forward a hqueued)
  rcases persisted_cases (a.report db) db with ⟨-, hsame⟩ | hcommitted
  · exact hsame
  · exact absurd hnext (hstarted _ hcommitted)

/-- An attempt that left the scan in a terminal state left what the run
leaves when nothing ends it. -/
theorem next_of_terminal (a : ScanAttempt) (hqueued : db.scan.state = .queued)
    (hover : (a.next db).scan.state ∈ terminalStates) :
    a.next db = a.uninterrupted.next db :=
  persisted_of_final (runScan_forward a.env hqueued) a.stop fun _ hforward => hforward.live hover

/-- `InvalidTransition` is not raised out of QUEUED. -/
theorem not_raises_of_queued (a : ScanAttempt) (hqueued : db.scan.state = .queued) :
    ¬ RaisesInvalidTransition (a.report db) := by
  rintro ⟨current, target, hraised⟩
  exact attempt_raised (runScan_forward a.env hqueued) hraised _ rfl

/-- A run on a verified target without personas, on which recon and the
crawl find nothing. -/
def bareTarget : Environment where
  target := some ⟨[], "acme.test".toList, true, true⟩
  recon := { assets := [], toolAvailability := [], wildcardDnsSuspected := false }
  kmsMasterKey := []
  personas := []
  establishPersona := fun _ => ⟨false, none, none, none, none⟩
  encrypt := id
  crawl := fun personaId _ => { rootUrl := [], personaId := personaId }

/-- Out of any other state it is raised by every run that nothing ends
before the first transition. -/
theorem raises_of_not_queued {env : Environment} (hfound : env.scanFound = true)
    (htarget : env.target.isSome) (hstate : db.scan.state ≠ .queued) :
    RaisesInvalidTransition ((ScanAttempt.mk env none).report db) := by
  have hend := (runScan_refused env hstate).2
  simp only [ScanAttempt.report, ScanAttempt.toAttempt, Attempt.report, Program.attempt,
    Outcome.report, RaisesInvalidTransition]
  cases hresult : (runScan env db).result with
  | error e =>
    rw [hresult] at hend
    exact ⟨_, _, congrArg Ending.raised hend⟩
  | ok r =>
    rw [hresult] at hend
    rcases hend with hgone | hgone
    · simp [hfound] at hgone
    · simp [hgone] at htarget

/-! ## Successive attempts -/

/-- Once the scan is over, nothing changes. -/
theorem run_of_terminal (attempts : List ScanAttempt) (hover : db.scan.state ∈ terminalStates) :
    Trace.run ScanAttempt.next db attempts = db := by
  induction attempts with
  | nil => rfl
  | cons a attempts ih =>
    have hstate : db.scan.state ≠ .queued := fun h => by simp [h, terminalStates] at hover
    rw [Trace.run_cons, next_of_refused a hstate, ih]

/-- Attempts that find the scan QUEUED or over leave it as it was, or as
one of them left it. -/
theorem run_of_queued {attempts : List ScanAttempt} (hqueued : db.scan.state = .queued)
    (h : Trace.Along ScanAttempt.next (fun s _ => FindsQueuedOrOver s) db attempts) :
    Trace.run ScanAttempt.next db attempts = db ∨
      ∃ a ∈ attempts, Trace.run ScanAttempt.next db attempts = a.next db ∧
        (a.next db).scan.state ≠ .queued := by
  induction attempts with
  | nil => exact Or.inl rfl
  | cons a attempts ih =>
    rw [Trace.run_cons]
    by_cases hnext : (a.next db).scan.state = .queued
    · have hsame := next_of_queued a hqueued hnext
      have hrest := h.2
      rw [hsame] at hrest ⊢
      refine (ih hrest).imp_right ?_
      rintro ⟨b, hb, hrun⟩
      exact ⟨b, List.mem_cons_of_mem a hb, hrun⟩
    · refine Or.inr ⟨a, List.mem_cons_self, ?_, hnext⟩
      cases attempts with
      | nil => rfl
      | cons b attempts =>
        have hover := h.2.1.resolve_left hnext
        exact run_of_terminal (b :: attempts) hover

/-- The commits of attempts that find the scan QUEUED or over go forward. -/
theorem committedBy_forward {attempts : List ScanAttempt}
    (h : Trace.Along ScanAttempt.next (fun s _ => FindsQueuedOrOver s) db attempts) :
    List.IsChain Forward (db :: committedBy db attempts) := by
  refine committedBy_isChain (Trace.Along.map (h.imp fun s a _ => ?_))
  by_cases hqueued : s.scan.state = .queued
  · exact report_forward a hqueued
  · have hnone : (a.toAttempt.report s).committed = [] := committed_of_refused a hqueued
    rw [hnone]
    exact List.isChain_singleton s

/-- The last of such attempts, if nothing interrupts it, leaves what one
of them leaves uninterrupted: itself, unless it found the scan over. -/
theorem run_uninterrupted {earlier : List ScanAttempt} {last : ScanAttempt}
    (hqueued : db.scan.state = .queued) (hstop : last.stop = none)
    (h : Trace.Along ScanAttempt.next (fun s _ => FindsQueuedOrOver s) db (earlier ++ [last])) :
    ∃ a ∈ earlier ++ [last],
      Trace.run ScanAttempt.next db (earlier ++ [last]) = a.uninterrupted.next db ∧
      ((Trace.run ScanAttempt.next db earlier).scan.state ∉ terminalStates → a = last) := by
  have hlast : last.uninterrupted = last := by
    rw [ScanAttempt.uninterrupted, ← hstop]
  rw [Trace.run_append]
  rcases run_of_queued hqueued (h.initial (List.prefix_append _ _)) with hsame | ⟨a, ha, hrun, hleft⟩
  · refine ⟨last, by simp, ?_, fun _ => rfl⟩
    rw [hsame, hlast]
    rfl
  · have hover : (a.next db).scan.state ∈ terminalStates :=
      (hrun ▸ h.rest.1 : FindsQueuedOrOver (a.next db)).resolve_left hleft
    refine ⟨a, List.mem_append_left _ ha, ?_, fun hlive => absurd (hrun ▸ hover) hlive⟩
    rw [hrun, run_of_terminal [last] hover, next_of_terminal a hqueued hover]

/-- **Resuming.** A run of `run_scan` on a scan that is not over is safe
from `InvalidTransition` exactly if the scan is QUEUED. Attempts that
find a QUEUED scan QUEUED again or over never raise it before the scan is
over, commit along the lifecycle, and once an attempt is not interrupted
leave what an uninterrupted run from the start leaves. -/
theorem resumes_iff_queued :
    (∀ db : Snapshot, db.scan.state ∉ terminalStates →
      ((∀ a : ScanAttempt, ¬ RaisesInvalidTransition (a.report db)) ↔ db.scan.state = .queued)) ∧
    ∀ (db : Snapshot) (attempts : List ScanAttempt), db.scan.state = .queued →
      Trace.Along ScanAttempt.next (fun s _ => FindsQueuedOrOver s) db attempts →
        Trace.Along ScanAttempt.next
          (fun s a => s.scan.state ∉ terminalStates → ¬ RaisesInvalidTransition (a.report s))
          db attempts ∧
        ((db :: committedBy db attempts).map Snapshot.rank).Pairwise (· ≤ ·) ∧
        ∀ earlier last, attempts = earlier ++ [last] → last.stop = none →
          ∃ a ∈ attempts,
            Trace.run ScanAttempt.next db attempts = a.uninterrupted.next db ∧
            ((Trace.run ScanAttempt.next db earlier).scan.state ∉ terminalStates → a = last) := by
  constructor
  · intro db _
    constructor
    · intro hsafe
      by_contra hstate
      exact hsafe ⟨bareTarget, none⟩ (raises_of_not_queued rfl rfl hstate)
    · exact fun hqueued a => not_raises_of_queued a hqueued
  · intro db attempts hqueued h
    refine ⟨h.imp fun s a hfinds hlive => ?_, ?_, ?_⟩
    · exact not_raises_of_queued a (hfinds.resolve_right hlive)
    · exact List.IsChain.pairwise ((List.isChain_map _).mpr
        ((committedBy_forward h).imp fun _ _ hforward => hforward.le))
    · rintro earlier last rfl hstop
      exact run_uninterrupted hqueued hstop h

omit [PyRuntime] in
/-- Ended while it finishes its first phase, before the first commit, the
scan is retried from the start and comes to the pause. -/
theorem resumes_iff_queued_early :
    let _ := PyRuntime.ascii
    let crashed : ScanAttempt := ⟨bareTarget, some 4⟩
    let retry : ScanAttempt := ⟨bareTarget, none⟩
    (crashed.report {}).ending = .interrupted ∧
      Trace.run ScanAttempt.next {} [crashed, retry] = retry.next {} ∧
      (retry.next {}).scan.state = .paused := by
  intro runtime crashed retry
  have hinterrupted : (crashed.report {}).ending = .interrupted := by decide +kernel
  have hpaused : (retry.next {}).scan.state = .paused := by decide +kernel
  obtain ⟨-, -, hfinal⟩ :=
    resumes_iff_queued.2 {} [crashed, retry] rfl (by decide +kernel)
  obtain ⟨a, -, hrun, hlast⟩ := hfinal [crashed] retry rfl rfl
  obtain rfl : a = retry := hlast (by decide +kernel)
  exact ⟨hinterrupted, hrun, hpaused⟩

omit [PyRuntime] in
/-- **A scan that is not resumed.** The first run is ended while it waits
for recon, behind the commit of RECON; the retry is refused, though a run
that nothing ends comes to the pause. -/
theorem crashed_recon_not_resumed :
    let _ := PyRuntime.ascii
    let crashed : ScanAttempt := ⟨bareTarget, some 11⟩
    let retry : ScanAttempt := ⟨bareTarget, none⟩
    (crashed.report {}).ending = .interrupted ∧
      (crashed.next {}).scan.state = .recon ∧
      (retry.report (crashed.next {})).ending =
        .raised (.machine (.invalidTransition .recon .scopeVerifying)) ∧
      (retry.next {}).scan.state = .paused := by
  intro runtime crashed retry
  exact ⟨by decide +kernel, by decide +kernel, by decide +kernel, by decide +kernel⟩

end Sentinel.Worker
