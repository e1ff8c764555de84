/-
Sentinel.Worker.ScanPhases — the phase rows agree with the state of the
scan in everything that is committed.

A run that works on a QUEUED scan is between two phases or within one:
`Between` and `Within` say what its rows look like there, and each phase
of `run_scan` leads from one to the next. `PhasesAgree` is what holds of
the session at every commit.
-/
import Sentinel.Worker.ScanRunnerTheorems

namespace Sentinel.Worker

open Sentinel.Py Sentinel.Core Sentinel.Db Sentinel.Crawler Sentinel.Durable

/-! ## Agreement -/

/-- The phases of `run_scan` in their order. -/
def phaseOrder : List ScanPhaseName :=
  [.scopeVerifying, .recon, .authEstablishing, .crawling, .surfaceMapping]

/-- The state of the same name. -/
def ownState : ScanPhaseName → Option ScanState
  | .scopeVerifying => some .scopeVerifying
  | .recon => some .recon
  | .authEstablishing => some .authEstablishing
  | .crawling => some .crawling
  | .surfaceMapping => some .surfaceMapping
  | _ => none

/-- The state of the phase that is next in the order. -/
def nextState : ScanPhaseName → Option ScanState
  | .scopeVerifying => some .recon
  | .recon => some .authEstablishing
  | .authEstablishing => some .crawling
  | .crawling => some .surfaceMapping
  | _ => none

/-- The states of a scan whose last phase failed. -/
def IsFailed (state : ScanState) : Prop := state = .blockedUnverified ∨ state = .failedAuth

/-- The row is COMPLETED, or SKIPPED as only AUTH_ESTABLISHING may be, and
has the time of its end. -/
structure Finished (row : ScanPhase) : Prop where
  status : row.status = .completed ∨ row.name = .authEstablishing ∧ row.status = .skipped
  ended : row.finishedAt.isSome = true

/-- Scan state and phase rows agree. -/
structure PhasesAgree (db : Snapshot) : Prop where
  /-- The rows are a first part of the order, each phase once. -/
  order : db.scan.phases.map ScanPhase.name <+: phaseOrder
  queued : db.scan.phases = [] → db.scan.state = .queued
  earlier : ∀ row ∈ db.scan.phases.dropLast, Finished row
  running : ∀ row ∈ db.scan.phases.getLast?, row.status = .running →
    some db.scan.state = ownState row.name
  failed : (∃ row ∈ db.scan.phases.getLast?, row.status = .failed) ↔ IsFailed db.scan.state
  ended : IsFailed db.scan.state → db.scan.finishedAt.isSome = true
  settled : ∀ row ∈ db.scan.phases.getLast?, row.status ≠ .running → row.status ≠ .failed →
    some db.scan.state = ownState row.name ∨ some db.scan.state = nextState row.name ∨
      db.scan.state = .paused ∧ db.scan.pausedFrom = some .surfaceMapping ∧
        db.scan.phases.map ScanPhase.name = phaseOrder ∧ ∀ row ∈ db.scan.phases, Finished row

/-- A scan that waits and has no phase rows yet. -/
theorem PhasesAgree.of_queued {db : Snapshot} (hstate : db.scan.state = .queued)
    (hphases : db.scan.phases = []) : PhasesAgree db where
  order := by simp [hphases]
  queued _ := hstate
  earlier := by simp [hphases]
  running := by simp [hphases]
  failed := by simp [hphases, hstate, IsFailed]
  ended := by simp [hstate, IsFailed]
  settled := by simp [hphases]

/-! ## Between and within phases -/

/-- Between two phases: the rows of `names`, all finished. -/
structure Between (names : List ScanPhaseName) (x : ScanState) (machine : ScanStateMachine)
    (session : Snapshot) : Prop where
  machine : machine.current = x
  state : session.scan.state = x
  names : session.scan.phases.map ScanPhase.name = names
  finished : ∀ row ∈ session.scan.phases, Finished row

/-- Within a phase: the rows of `names`, all finished, and the row of the
phase. -/
structure Within (names : List ScanPhaseName) (name : ScanPhaseName) (status : PhaseStatus)
    (x : ScanState) (machine : ScanStateMachine) (session : Snapshot) : Prop where
  machine : machine.current = x
  state : session.scan.state = x
  rows : ∃ done row, session.scan.phases = done ++ [row] ∧ done.map ScanPhase.name = names ∧
    (∀ r ∈ done, Finished r) ∧ row.name = name ∧ row.status = status

variable {names : List ScanPhaseName} {name : ScanPhaseName} {status : PhaseStatus}
  {x target : ScanState} {machine : ScanStateMachine} {disk session : Snapshot}
  {G : Snapshot → Snapshot → Prop} {E : RunError → Prop}

/-- Creating the row of the next phase. -/
theorem Between.create (h : Between names x machine session) (hnew : name ∉ names)
    {Q : Nat → Snapshot → Snapshot → Prop}
    (hQ : ∀ s, Within names name .pending x machine s → Q names.length disk s) :
    wp G (getOrCreatePhase name) Q E disk session := by
  have hnone : session.scan.phases.findIdx? (·.name = name) = none := by
    rw [List.findIdx?_eq_none_iff]
    intro row hrow
    have hmem : row.name ∈ names := h.names ▸ List.mem_map_of_mem hrow
    simpa using fun heq : row.name = name => hnew (heq ▸ hmem)
  have hlength : session.scan.phases.length = names.length := by rw [← h.names, List.length_map]
  simp only [getOrCreatePhase, wp_bind, wp_get, hnone, wp_modify, wp_point, wp_pure, hlength]
  exact hQ _ ⟨h.machine, h.state, _, _, rfl, h.names, h.finished, rfl, rfl⟩

/-- The row of the phase is at the end. -/
theorem Within.modify (h : Within names name status x machine session) (f : ScanPhase → ScanPhase) :
    ∃ done row, (session.modifyPhase names.length f).scan.phases = done ++ [f row] ∧
      done.map ScanPhase.name = names ∧ (∀ r ∈ done, Finished r) ∧ row.name = name ∧
      row.status = status := by
  obtain ⟨done, row, hphases, hnames, hfinished, hname, hstatus⟩ := h.rows
  refine ⟨done, row, ?_, hnames, hfinished, hname, hstatus⟩
  have hlength : names.length = done.length := by rw [← hnames, List.length_map]
  unfold Snapshot.modifyPhase Snapshot.modifyScan
  dsimp only
  rw [hphases, hlength, List.modify_eq_take_cons_drop (by simp)]
  simp

/-- Starting the phase. -/
theorem Within.start (h : Within names name status x machine session) (now : Instant)
    {Q : Unit → Snapshot → Snapshot → Prop}
    (hQ : ∀ s, Within names name .running x machine s → Q () disk s) :
    wp G (startPhase names.length now) Q E disk session := by
  obtain ⟨done, row, hphases, hnames, hfinished, hname, -⟩ :=
    h.modify fun p => { p with status := .running, startedAt := some now }
  simp only [startPhase, wp_bind, wp_modify, wp_point]
  exact hQ _ ⟨h.machine, h.state, done, _, hphases, hnames, hfinished, hname, rfl⟩

/-- Finishing the phase well. -/
theorem Within.finish (h : Within names name status x machine session) (now : Instant)
    {status' : PhaseStatus} (stats : PhaseStats) (error : Option Str)
    (hstatus : status' = .completed ∨ name = .authEstablishing ∧ status' = .skipped)
    {Q : Unit → Snapshot → Snapshot → Prop}
    (hQ : ∀ s, Between (names ++ [name]) x machine s → Q () disk s) :
    wp G (finishPhase names.length now status' stats error) Q E disk session := by
  obtain ⟨done, row, hphases, hnames, hfinished, hname, -⟩ := h.modify fun p =>
    { p with status := status', finishedAt := some now, statsJson := stats, error := error }
  simp only [finishPhase, wp_bind, wp_modify, wp_point]
  refine hQ _ ⟨h.machine, h.state, ?_, ?_⟩
  · rw [hphases, List.map_append, hnames, ← hname]
    rfl
  · rw [hphases]
    refine List.forall_mem_append.mpr ⟨hfinished, List.forall_mem_singleton.mpr ⟨?_, rfl⟩⟩
    exact hname ▸ hstatus

/-- Finishing the phase as failed. -/
theorem Within.fail (h : Within names name status x machine session) (now : Instant)
    (stats : PhaseStats) (error : Option Str) {Q : Unit → Snapshot → Snapshot → Prop}
    (hQ : ∀ s, Within names name .failed x machine s → Q () disk s) :
    wp G (finishPhase names.length now .failed stats error) Q E disk session := by
  obtain ⟨done, row, hphases, hnames, hfinished, hname, -⟩ := h.modify fun p =>
    { p with status := .failed, finishedAt := some now, statsJson := stats, error := error }
  simp only [finishPhase, wp_bind, wp_modify, wp_point]
  exact hQ _ ⟨h.machine, h.state, done, _, hphases, hnames, hfinished, hname, rfl⟩

/-- Entering a successor between two phases. -/
theorem Between.enter (h : Between names x machine session) (hlinear : target ∈ linearTransitions x)
    {Q : ScanStateMachine → Snapshot → Snapshot → Prop}
    (hQ : ∀ m s, Between names target m s → Q m disk s) :
    wp G (enter machine target) Q E disk session := by
  have hok := ScanStateMachine.transition_ok none (canTransition_of_linear hlinear h.machine)
  simp only [Worker.enter, hok, Except.mapError, wp_bind, wp_ofExcept, wp_modify, wp_pure]
  exact hQ _ _ ⟨rfl, rfl, h.names, h.finished⟩

/-- Entering a successor within a phase. -/
theorem Within.enter (h : Within names name status x machine session)
    (hlinear : target ∈ linearTransitions x) {Q : ScanStateMachine → Snapshot → Snapshot → Prop}
    (hQ : ∀ m s, Within names name status target m s → Q m disk s) :
    wp G (enter machine target) Q E disk session := by
  have hok := ScanStateMachine.transition_ok none (canTransition_of_linear hlinear h.machine)
  simp only [Worker.enter, hok, Except.mapError, wp_bind, wp_ofExcept, wp_modify, wp_pure]
  exact hQ _ _ ⟨rfl, rfl, h.rows⟩

/-- Work that is calm does not matter between two phases. -/
theorem Between.calm {α : Type} {p : ScanProgram α} (h : Between names x machine session)
    (hp : Calm p) {Q : α → Snapshot → Snapshot → Prop}
    (hQ : ∀ a s, Between names x machine s → Q a disk s) :
    wp G p Q RunError.NotMachine disk session := by
  refine hp.wp fun a s hview => hQ a s ?_
  have hstate : s.scan.state = session.scan.state := congrArg Prod.fst hview
  have hphases : s.scan.phases = session.scan.phases := congrArg (fun v => v.2.2.1) hview
  exact ⟨h.machine, hstate.trans h.state, hphases ▸ h.names, hphases ▸ h.finished⟩

/-- Nor does it within a phase. -/
theorem Within.calm {α : Type} {p : ScanProgram α} (h : Within names name status x machine session)
    (hp : Calm p) {Q : α → Snapshot → Snapshot → Prop}
    (hQ : ∀ a s, Within names name status x machine s → Q a disk s) :
    wp G p Q RunError.NotMachine disk session := by
  refine hp.wp fun a s hview => hQ a s ?_
  have hstate : s.scan.state = session.scan.state := congrArg Prod.fst hview
  have hphases : s.scan.phases = session.scan.phases := congrArg (fun v => v.2.2.1) hview
  exact ⟨h.machine, hstate.trans h.state, hphases ▸ h.rows⟩

/-! ## What may be committed -/

/-- Agreement, told by the last row. -/
theorem PhasesAgree.of_last {row : ScanPhase} (hlast : session.scan.phases.getLast? = some row)
    (horder : session.scan.phases.map ScanPhase.name <+: phaseOrder)
    (hearlier : ∀ r ∈ session.scan.phases.dropLast, Finished r)
    (hrunning : row.status = .running → some session.scan.state = ownState row.name)
    (hfailed : row.status = .failed ↔ IsFailed session.scan.state)
    (hended : IsFailed session.scan.state → session.scan.finishedAt.isSome = true)
    (hsettled : row.status ≠ .running → row.status ≠ .failed →
      some session.scan.state = ownState row.name ∨ some session.scan.state = nextState row.name ∨
        session.scan.state = .paused ∧ session.scan.pausedFrom = some .surfaceMapping ∧
          session.scan.phases.map ScanPhase.name = phaseOrder ∧
          ∀ row ∈ session.scan.phases, Finished row) : PhasesAgree session where
  order := horder
  queued hnil := by
    rw [hnil] at hlast
    exact nomatch hlast
  earlier := hearlier
  running r hr := by
    rw [hlast, Option.mem_some_iff] at hr
    exact hr ▸ hrunning
  failed := by
    rw [hlast, ← hfailed]
    simp
  ended := hended
  settled r hr := by
    rw [hlast, Option.mem_some_iff] at hr
    exact hr ▸ hsettled

theorem Finished.settled {row : ScanPhase} (h : Finished row) :
    row.status ≠ .running ∧ row.status ≠ .failed := by
  rcases h.status with hdone | ⟨-, hskipped⟩
  · rw [hdone]
    decide
  · rw [hskipped]
    decide

/-- The row of the phase is the last one. -/
theorem Within.last (h : Within names name status x machine session) :
    ∃ row, session.scan.phases.getLast? = some row ∧ row.name = name ∧ row.status = status ∧
      session.scan.phases.map ScanPhase.name = names ++ [name] ∧
      ∀ r ∈ session.scan.phases.dropLast, Finished r := by
  obtain ⟨done, row, hphases, hnames, hfinished, hname, hstatus⟩ := h.rows
  refine ⟨row, by simp [hphases], hname, hstatus, ?_, ?_⟩
  · rw [hphases, List.map_append, hnames, ← hname]
    rfl
  · rw [hphases, List.dropLast_concat]
    exact hfinished

/-- So is the row of the phase that was finished last. -/
theorem Between.last (h : Between (names ++ [name]) x machine session) :
    ∃ row, session.scan.phases.getLast? = some row ∧ row.name = name ∧ Finished row := by
  obtain ⟨done, last, hphases, -, hlast⟩ := List.map_eq_append_iff.mp h.names
  obtain ⟨row, rfl, hname⟩ := List.map_eq_singleton_iff.mp hlast
  exact ⟨row, by simp [hphases], hname, h.finished row (by simp [hphases])⟩

/-- Between two phases, in the state of the last one or of the next. -/
theorem Between.agrees (h : Between (names ++ [name]) x machine session)
    (horder : names ++ [name] <+: phaseOrder)
    (hx : some x = ownState name ∨ some x = nextState name) : PhasesAgree session := by
  obtain ⟨row, hlast, rfl, hfinished⟩ := h.last
  have hgood : ¬ IsFailed session.scan.state := by
    rw [h.state]
    rintro (rfl | rfl)
    all_goals cases hname : row.name <;> simp [ownState, nextState, hname] at hx
  refine .of_last hlast (h.names ▸ horder) (fun r hr => h.finished r (List.mem_of_mem_dropLast hr))
    (fun hrunning => absurd hrunning hfinished.settled.1)
    (iff_of_false hfinished.settled.2 hgood) (fun hfailed => absurd hfailed hgood) fun _ _ => ?_
  rw [h.state]
  exact hx.imp_right Or.inl

/-- Within a phase that runs, in its state. -/
theorem Within.agrees (h : Within names name .running x machine session)
    (horder : names ++ [name] <+: phaseOrder) (hx : some x = ownState name) :
    PhasesAgree session := by
  obtain ⟨row, hlast, rfl, hstatus, hnames, hfinished⟩ := h.last
  have hgood : ¬ IsFailed session.scan.state := by
    rw [h.state]
    rintro (rfl | rfl)
    all_goals cases hname : row.name <;> simp [ownState, hname] at hx
  refine .of_last hlast (hnames ▸ horder) hfinished (fun _ => h.state ▸ hx)
    (iff_of_false ?_ hgood) (fun hfailed => absurd hfailed hgood)
    fun hrunning _ => absurd hstatus hrunning
  rw [hstatus]
  decide

/-- Within a phase that failed, in a failed state, when the end is set. -/
theorem Within.agrees_failed (h : Within names name .failed x machine session)
    (horder : names ++ [name] <+: phaseOrder) (hx : IsFailed x)
    (hended : session.scan.finishedAt.isSome = true) : PhasesAgree session := by
  obtain ⟨row, hlast, rfl, hstatus, hnames, hfinished⟩ := h.last
  refine .of_last hlast (hnames ▸ horder) hfinished (fun hrunning => ?_)
    (iff_of_true hstatus (h.state ▸ hx)) (fun _ => hended) fun _ hfailed => absurd hstatus hfailed
  rw [hstatus] at hrunning
  exact nomatch hrunning

/-- Paused after the last phase. -/
theorem Between.agrees_paused (h : Between phaseOrder .paused machine session)
    (hpaused : session.scan.pausedFrom = some .surfaceMapping) : PhasesAgree session := by
  have hsplit : phaseOrder = [.scopeVerifying, .recon, .authEstablishing, .crawling] ++
    [ScanPhaseName.surfaceMapping] := rfl
  obtain ⟨row, hlast, -, hfinished⟩ := Between.last (hsplit ▸ h)
  have hgood : ¬ IsFailed session.scan.state := by
    rw [h.state]
    rintro (hx | hx) <;> exact nomatch hx
  exact .of_last hlast (h.names ▸ List.prefix_rfl)
    (fun r hr => h.finished r (List.mem_of_mem_dropLast hr))
    (fun hrunning => absurd hrunning hfinished.settled.1)
    (iff_of_false hfinished.settled.2 hgood) (fun hfailed => absurd hfailed hgood)
    fun _ _ => Or.inr (Or.inr ⟨h.state, hpaused, h.names, h.finished⟩)

/-! ## The phases -/

/-- Whatever is committed agrees. -/
def Agreed (_ next : Snapshot) : Prop := PhasesAgree next

/-- Ending a scan whose phase failed. -/
theorem Within.commit_failed (h : Within names name .failed x machine session)
    (horder : names ++ [name] <+: phaseOrder) (hx : IsFailed x) (now : Instant)
    {α : Type} {r : α} {Q : α → Snapshot → Snapshot → Prop} (hQ : ∀ d s, Q r d s) :
    wp Agreed (do
      Program.modify (Snapshot.finishScan now)
      Program.commit
      pure r : ScanProgram α) Q E disk session := by
  simp only [wp_bind, wp_modify, wp_commit, wp_pure]
  have h' : Within names name .failed x machine (session.finishScan now) :=
    ⟨h.machine, h.state, h.rows⟩
  exact ⟨h'.agrees_failed horder hx rfl, hQ _ _⟩

theorem scopeVerifying_agrees (env : Environment) (target : Target)
    (h : Between [] .queued machine session) :
    wp Agreed (scopeVerifying env target machine)
      (fun r _ s => ∀ m ∈ r, Between [.scopeVerifying] .scopeVerifying m s) RunError.NotMachine
      disk session := by
  refine wp_seq (h.create (by decide) fun s h => ?_)
  refine wp_seq (h.enter (by decide) fun m s h => ?_)
  refine wp_seq (h.start _ fun s h => ?_)
  split
  · refine wp_seq (h.enter (by decide) fun m' s h => ?_)
    refine wp_seq (h.fail _ _ _ fun s h => ?_)
    exact h.commit_failed (by decide) (Or.inl rfl) _ fun _ _ m hm => nomatch hm
  · refine wp_seq (h.finish _ _ _ (Or.inl rfl) fun s h => ?_)
    refine wp_seq ((wp_commit _).mpr ⟨h.agrees (by decide) (by decide), ?_⟩)
    simpa using h

theorem recon_agrees (env : Environment)
    (h : Between [.scopeVerifying] .scopeVerifying machine session) :
    wp Agreed (recon env machine) (fun m _ s => Between [.scopeVerifying, .recon] .recon m s)
      RunError.NotMachine disk session := by
  refine wp_seq (h.create (by decide) fun s h => ?_)
  refine wp_seq (h.enter (by decide) fun m s h => ?_)
  refine wp_seq (h.start _ fun s h => ?_)
  refine wp_seq ((wp_commit _).mpr ⟨h.agrees (by decide) rfl, ?_⟩)
  refine wp_seq (h.calm (Keeps.point _) fun _ s h => ?_)
  refine wp_seq (h.calm (Keeps.modify (Snapshot.addAssets_progress _)) fun _ s h => ?_)
  refine wp_seq (h.finish _ _ _ (Or.inl rfl) fun s h => ?_)
  refine wp_seq (h.calm (calm_degradeIf _ _) fun _ s h => ?_)
  refine wp_seq ((wp_commit _).mpr ⟨h.agrees (by decide) (by decide), ?_⟩)
  simpa using h

/-- The rows when AUTH_ESTABLISHING is over. -/
abbrev authDone : List ScanPhaseName := [.scopeVerifying, .recon, .authEstablishing]

theorem logIn_agrees (env : Environment)
    (h : Within [.scopeVerifying, .recon] .authEstablishing .running .authEstablishing machine
      session) :
    wp Agreed (logIn env machine 2)
      (fun r _ s => ∀ sessions ∈ r, Between authDone .authEstablishing machine s)
      RunError.NotMachine disk session := by
  refine wp_seq (h.calm (calm_withBrowser (calm_runAuthEstablishing env)) fun r s h => ?_)
  dsimp only
  split
  · refine wp_seq (h.enter (by decide) fun m s h => ?_)
    refine wp_seq (h.fail _ _ _ fun s h => ?_)
    exact h.commit_failed (by decide) (Or.inr rfl) _ fun _ _ m hm => nomatch hm
  · refine wp_seq (h.finish _ _ _ (Or.inl rfl) fun s h => ?_)
    simpa using h

theorem authBranches_agrees (env : Environment)
    (h : Within [.scopeVerifying, .recon] .authEstablishing .running .authEstablishing machine
      session) :
    wp Agreed (authBranches env machine 2)
      (fun r _ s => ∀ sessions ∈ r, Between authDone .authEstablishing machine s)
      RunError.NotMachine disk session := by
  unfold authBranches
  split
  · refine wp_seq (h.calm (Keeps.modify (Snapshot.degrade_progress _)) fun _ s h => ?_)
    refine wp_seq (h.finish _ _ _ (Or.inr ⟨rfl, rfl⟩) fun s h => ?_)
    simpa using h
  · split
    · refine wp_seq (h.calm (Keeps.modify (Snapshot.degrade_progress _)) fun _ s h => ?_)
      refine wp_seq (h.finish _ _ _ (Or.inl rfl) fun s h => ?_)
      simpa using h
    · exact logIn_agrees env h

theorem authEstablishing_agrees (env : Environment)
    (h : Between [.scopeVerifying, .recon] .recon machine session) :
    wp Agreed (authEstablishing env machine)
      (fun r _ s => ∀ next ∈ r, Between authDone .crawling next.1 s) RunError.NotMachine
      disk session := by
  refine wp_seq (h.calm (calm_sharedSetup env) fun _ s h => ?_)
  refine wp_seq (h.create (by decide) fun s h => ?_)
  refine wp_seq (h.enter (by decide) fun m s h => ?_)
  refine wp_seq (h.start _ fun s h => ?_)
  refine wp_seq ((wp_commit _).mpr ⟨h.agrees (by decide) rfl, ?_⟩)
  refine wp_seq (wp_mono (authBranches_agrees env h) (fun r d s h => ?_) fun _ he => he)
  cases r with
  | none => simp
  | some sessions =>
    refine wp_seq ((h sessions rfl).enter (by decide) fun m s h => ?_)
    have hlast : Between ([.scopeVerifying, .recon] ++ [.authEstablishing]) .crawling m s := h
    refine wp_seq ((wp_commit _).mpr ⟨hlast.agrees (by decide) (by decide), ?_⟩)
    simpa using h

theorem crawling_agrees (env : Environment) (sessions : Dict)
    (h : Between authDone .crawling machine session) :
    wp Agreed (crawling env machine sessions)
      (fun r _ s => Between [.scopeVerifying, .recon, .authEstablishing, .crawling]
        .surfaceMapping r.1 s) RunError.NotMachine disk session := by
  refine wp_seq (h.create (by decide) fun s h => ?_)
  refine wp_seq (h.start _ fun s h => ?_)
  refine wp_seq ((wp_commit _).mpr ⟨h.agrees (by decide) rfl, ?_⟩)
  refine wp_seq (h.calm (calm_withBrowser (calm_runCrawling env sessions)) fun r s h => ?_)
  refine wp_seq (h.finish _ _ _ (Or.inl rfl) fun s h => ?_)
  refine wp_seq (h.enter (by decide) fun m s h => ?_)
  refine wp_seq ((wp_commit _).mpr ⟨h.agrees (by decide) (by decide), ?_⟩)
  simpa using h

theorem surfaceMapping_agrees [PyRuntime] (env : Environment) (surfaces : List SurfaceMap)
    (h : Between [.scopeVerifying, .recon, .authEstablishing, .crawling] .surfaceMapping machine
      session) :
    wp Agreed (surfaceMapping env machine surfaces) (fun _ _ _ => True) RunError.NotMachine
      disk session := by
  refine wp_seq (h.create (by decide) fun s h => ?_)
  refine wp_seq (h.start _ fun s h => ?_)
  refine wp_seq ((wp_commit _).mpr ⟨h.agrees (by decide) rfl, ?_⟩)
  refine wp_seq (h.calm (calm_mergeLoop _ _) fun total s h => ?_)
  refine wp_seq (h.finish _ _ _ (Or.inl rfl) fun s h => ?_)
  have hpause : machine.canTransition .paused = true := by
    simp [ScanStateMachine.canTransition, ScanStateMachine.isTerminal, terminalStates, h.machine]
  have hok := ScanStateMachine.transition_ok none hpause
  simp only [Worker.enter, hok, Except.mapError, wp_bind, wp_ofExcept, wp_modify, wp_commit, wp_pure,
    and_true]
  have hpaused : Between phaseOrder .paused { current := .paused } (Snapshot.degrade
      [notYetImplementedNote] (Snapshot.modifyScan (fun scan => { scan with
        pausedFrom := some machine.current })
          (Snapshot.modifyScan (fun scan => { scan with state := .paused }) s))) :=
    ⟨rfl, rfl, h.names, h.finished⟩
  exact hpaused.agrees_paused (congrArg some h.machine)

theorem runPhases_agrees [PyRuntime] (env : Environment) (target : Target)
    (h : Between [] .queued machine session) :
    wp Agreed (runPhases env target machine) (fun _ _ _ => True) RunError.NotMachine
      disk session := by
  refine wp_seq (wp_mono (scopeVerifying_agrees env target h) (fun r d s h => ?_) fun _ he => he)
  cases r with
  | none => simp
  | some m =>
    refine wp_seq (wp_mono (recon_agrees env (h m rfl)) (fun m d s h => ?_) fun _ he => he)
    refine wp_seq (wp_mono (authEstablishing_agrees env h) (fun r d s h => ?_) fun _ he => he)
    cases r with
    | none => simp
    | some next =>
      refine wp_seq (wp_mono (crawling_agrees env next.2 (h next rfl)) (fun r d s h => ?_)
        fun _ he => he)
      exact surfaceMapping_agrees env r.2 h

theorem runScan_agrees [PyRuntime] (env : Environment) (hstate : disk.scan.state = .queued)
    (hphases : disk.scan.phases = []) :
    wp Agreed (runScan env) (fun _ _ _ => True) RunError.NotMachine disk disk := by
  refine wp_seq ((wp_point _).mpr ?_)
  split
  · simp
  · refine wp_seq ((wp_point _).mpr ?_)
    split
    · simp
    · refine wp_seq ((wp_get _).mpr ?_)
      have h : Between [] .queued { current := disk.scan.state, pausedFrom := disk.scan.pausedFrom }
          disk := ⟨hstate, hstate, by rw [hphases]; rfl, by simp [hphases]⟩
      refine wp_seq (wp_mono (runPhases_agrees env _ h) (fun _ d s _ => ?_) fun _ he => he)
      simp

/-! ## Successive runs -/

variable [PyRuntime] {db : Snapshot}

theorem report_agrees (a : ScanAttempt) (hstate : db.scan.state = .queued)
    (hphases : db.scan.phases = []) :
    ∀ snapshot ∈ (a.report db).committed, PhasesAgree snapshot := by
  have hchain : List.IsChain Agreed (db :: (a.report db).committed) :=
    attempt_isChain (runScan_agrees a.env hstate hphases) a.stop
  exact forall_of_isChain (fun _ next h => (h : PhasesAgree next)) hchain

/-- Runs that find a scan that is not QUEUED commit nothing. -/
theorem committedBy_of_not_queued (attempts : List ScanAttempt) (hstate : db.scan.state ≠ .queued) :
    committedBy db attempts = [] := by
  induction attempts with
  | nil => rfl
  | cons a attempts ih =>
    have hfirst : committedBy db (a :: attempts) =
        (a.report db).committed ++ committedBy (a.next db) attempts := rfl
    rw [hfirst, committed_of_refused a hstate, next_of_refused a hstate, ih, List.append_nil]

/-- **Scan state and phase rows agree in everything that is committed** by
any runs, however they end, that start from a QUEUED scan without phase
rows; and no run that finds it so raises `InvalidTransition`. -/
theorem committed_phases_agree (hstate : db.scan.state = .queued) (hphases : db.scan.phases = []) :
    (∀ attempts : List ScanAttempt, ∀ snapshot ∈ db :: committedBy db attempts,
      PhasesAgree snapshot) ∧
    ∀ a : ScanAttempt, ¬ RaisesInvalidTransition (a.report db) := by
  refine ⟨fun attempts => List.forall_mem_cons.mpr ⟨.of_queued hstate hphases, ?_⟩,
    fun a => not_raises_of_queued a hstate⟩
  induction attempts with
  | nil => exact fun snapshot hsnapshot => absurd hsnapshot List.not_mem_nil
  | cons a attempts ih =>
    have hfirst : committedBy db (a :: attempts) =
        (a.report db).committed ++ committedBy (a.next db) attempts := rfl
    rw [hfirst]
    refine List.forall_mem_append.mpr ⟨report_agrees a hstate hphases, ?_⟩
    by_cases hnext : (a.next db).scan.state = .queued
    · rw [next_of_queued a hstate hnext]
      exact ih
    · rw [committedBy_of_not_queued attempts hnext]
      exact fun snapshot hsnapshot => absurd hsnapshot List.not_mem_nil

omit [PyRuntime] in
/-- A run that is ended while it waits for recon, and a second one: two
snapshots are committed, and in both state and rows agree. -/
theorem crashed_recon_phases_agree :
    let _ := PyRuntime.ascii
    let attempts : List ScanAttempt := [⟨bareTarget, some 11⟩, ⟨bareTarget, none⟩]
    (committedBy {} attempts).map (·.scan.state) = [.scopeVerifying, .recon] ∧
      ∀ snapshot ∈ {} :: committedBy {} attempts, PhasesAgree snapshot := by
  intro runtime attempts
  exact ⟨by decide +kernel, (committed_phases_agree rfl rfl).1 attempts⟩

end Sentinel.Worker
