/-
Sentinel.Worker.ScanRunner — `scan_runner`: one scan from SCOPE_VERIFYING
to the pause after SURFACE_MAPPING.

`Environment` says what one run of `run_scan` meets: the rows it reads,
what recon, logins and crawls give, the clock. Everything awaited is a
point at which the run may end; what was not committed by then is lost,
since the session rolls back.
-/
import Sentinel.Db.Target
import Sentinel.Worker.SurfaceAdapter

namespace Sentinel.Worker

open Sentinel.Py Sentinel.Core Sentinel.Db Sentinel.Crawler Sentinel.Durable

/-- `NOT_YET_IMPLEMENTED_NOTE`. -/
def notYetImplementedNote : Str :=
  ("Paused after surface mapping — the check engines (injection, authz, " ++
    "session, business-logic) and everything past them are not implemented " ++
    "yet (see docs/05-v1-roadmap.md milestones M2-M3). This scan can be " ++
    "resumed once they land; it is not stuck or broken.").toList

/-- The note of a run without a master key. -/
def noMasterKeyNote : Str :=
  ("KMS_MASTER_KEY is not configured — cannot decrypt any persona " ++
    "credentials. Proceeding with an anonymous-only crawl.").toList

/-- The note of a run without a configured persona. -/
def noPersonasNote : Str :=
  ("No personas have a login recipe configured — " ++
    "proceeding with an anonymous-only crawl.").toList

structure DiscoveredAsset where
  host : Str
  source : Str
  ips : List Str := []
  httpProbes : List HttpProbe := []
  deriving DecidableEq, Repr

structure ReconResult where
  assets : List DiscoveredAsset
  toolAvailability : List (Str × Bool)
  wildcardDnsSuspected : Bool
  notes : List Str := []
  deriving DecidableEq, Repr

/-- `ReconResult.degraded`. -/
def ReconResult.degraded (r : ReconResult) : Bool := !r.toolAvailability.all Prod.snd

/-- What `establish_persona` returns; a storage state is its JSON text. -/
structure PersonaAuthResult where
  available : Bool
  unavailableReason : Option Str
  storageState : Option Str
  sessionOracle : Option Auth.SessionOracle
  oracleDetail : Option Str
  deriving DecidableEq, Repr

/-- What `datetime.now(UTC)` gives at the places that ask for it. -/
structure Clock where
  phaseStarted : ScanPhaseName → Instant := fun _ => 0
  phaseFinished : ScanPhaseName → Instant := fun _ => 0
  sessionUpdated : Str → Instant := fun _ => 0
  scanFinished : Instant := 0

structure Environment where
  scanFound : Bool := true
  target : Option Target
  recon : ReconResult
  kmsMasterKey : Str
  personas : List Persona
  establishPersona : Persona → PersonaAuthResult
  encrypt : Str → Str
  crawl : (personaId : Str) → (storageState : Option Str) → SurfaceMap
  clock : Clock := {}

namespace Environment

/-- `configured_personas`. -/
def configuredPersonas (env : Environment) : List Persona := env.personas.filter (·.hasLoginRecipe)

end Environment

/-! ## Phase rows -/

/-- `_get_or_create_phase`: the place of the row among the scan's phases. -/
def getOrCreatePhase (name : ScanPhaseName) : ScanProgram Nat := do
  let db ← Program.get
  match db.scan.phases.findIdx? (·.name = name) with
  | some phase => pure phase
  | none => do
    Program.modify (Snapshot.modifyScan fun scan => { scan with phases := scan.phases ++ [{ name }] })
    Program.point
    pure db.scan.phases.length

/-- `_start_phase`. -/
def startPhase (phase : Nat) (now : Instant) : ScanProgram Unit := do
  Program.modify (Snapshot.modifyPhase phase fun p =>
    { p with status := .running, startedAt := some now })
  Program.point

/-- `_finish_phase`. -/
def finishPhase (phase : Nat) (now : Instant) (status : PhaseStatus) (stats : PhaseStats)
    (error : Option Str := none) : ScanProgram Unit := do
  Program.modify (Snapshot.modifyPhase phase fun p =>
    { p with status := status, finishedAt := some now, statsJson := stats, error := error })
  Program.point

/-- `machine.transition(target); scan.state = machine.current`. -/
def enter (machine : ScanStateMachine) (target : ScanState) : ScanProgram ScanStateMachine := do
  let machine ← Program.ofExcept ((machine.transition target).mapError RunError.machine)
  Program.modify (Snapshot.modifyScan fun scan => { scan with state := machine.current })
  pure machine

/-- The browser of a phase: playwright and chromium are started before
its work, and closed after it with the Redis client. -/
def withBrowser {α : Type} (work : ScanProgram α) : ScanProgram α := do
  Program.point
  Program.point
  let result ← work
  Program.point
  Program.point
  Program.point
  pure result

/-! ## The work of the phases -/

/-- One round of the loop in `_run_auth_establishing`: the personas that
are available so far and their sessions. -/
def establishStep (env : Environment) (acc : Nat × Dict) (persona : Persona) :
    ScanProgram (Nat × Dict) := do
  Program.point
  let result := env.establishPersona persona
  Program.modify (Snapshot.modifyPersona persona.id fun p =>
    { p with isAvailable := result.available, unavailableReason := result.unavailableReason })
  if !result.available then pure acc
  else
    Program.modify (Snapshot.modifyPersona persona.id fun p =>
      { p with
        sessionStateCiphertext := some (env.encrypt (result.storageState.getD "null".toList))
        sessionStateUpdatedAt := some (env.clock.sessionUpdated persona.id)
        sessionOracle := result.sessionOracle })
    Program.modify fun db =>
      if result.sessionOracle = none then
        db.degrade ["Persona '".toList ++ persona.label ++ "': ".toList ++
          result.oracleDetail.getD "None".toList]
      else db
    pure (acc.1 + 1, acc.2.set persona.id (result.storageState.getD "{}".toList))

/-- `_run_auth_establishing`: how many personas are available, and the
sessions. The first point is the setup of crypto and engine, the last one
closes the engine. -/
def runAuthEstablishing (env : Environment) : ScanProgram (Nat × Dict) := do
  if env.configuredPersonas = [] then pure (0, [])
  else
    Program.point
    let acc ← env.configuredPersonas.foldlM (establishStep env) (0, [])
    Program.point
    pure acc

/-- One round of the loop in `_run_crawling`. -/
def crawlStep (env : Environment) (sessions : Dict) (surfaces : List SurfaceMap)
    (persona : Persona) : ScanProgram (List SurfaceMap) :=
  match sessions.lookup persona.id with
  | none => pure surfaces
  | some storageState => do
    Program.point
    pure (surfaces ++ [env.crawl persona.id (some storageState)])

/-- `_run_crawling`. -/
def runCrawling (env : Environment) (sessions : Dict) : ScanProgram (List SurfaceMap) := do
  Program.point
  env.configuredPersonas.foldlM (crawlStep env sessions) [env.crawl "anonymous".toList none]

/-! ## The phases -/

/-- SCOPE_VERIFYING; `none` when the scan is blocked and the run returns. -/
def scopeVerifying (env : Environment) (target : Target) (machine : ScanStateMachine) :
    ScanProgram (Option ScanStateMachine) := do
  let phase ← getOrCreatePhase .scopeVerifying
  let machine ← enter machine .scopeVerifying
  startPhase phase (env.clock.phaseStarted .scopeVerifying)
  if !target.isScannable then
    let _ ← enter machine .blockedUnverified
    finishPhase phase (env.clock.phaseFinished .scopeVerifying) .failed .empty
      (some "Target is not scannable (ownership/authorization gate failed).".toList)
    Program.modify (Snapshot.finishScan env.clock.scanFinished)
    Program.commit
    pure none
  else
    finishPhase phase (env.clock.phaseFinished .scopeVerifying) .completed (.scopeVerifying true)
    Program.commit
    pure (some machine)

/-- RECON. -/
def recon (env : Environment) (machine : ScanStateMachine) : ScanProgram ScanStateMachine := do
  let phase ← getOrCreatePhase .recon
  let machine ← enter machine .recon
  startPhase phase (env.clock.phaseStarted .recon)
  Program.commit
  Program.point
  Program.modify (Snapshot.addAssets
    (env.recon.assets.map fun a => ⟨a.host, a.ips, a.httpProbes, a.source⟩))
  finishPhase phase (env.clock.phaseFinished .recon) .completed
    (.recon env.recon.assets.length env.recon.toolAvailability env.recon.wildcardDnsSuspected
      env.recon.notes)
  Program.modify fun db => if env.recon.degraded then db.degrade env.recon.notes else db
  Program.commit
  pure machine

/-- The branch of AUTH_ESTABLISHING that logs in; `none` when every login
failed. -/
def logIn (env : Environment) (machine : ScanStateMachine) (phase : Nat) :
    ScanProgram (Option Dict) := do
  let (available, sessions) ← withBrowser (runAuthEstablishing env)
  let stats := PhaseStats.auth env.configuredPersonas.length available
  if available = 0 then
    let _ ← enter machine .failedAuth
    finishPhase phase (env.clock.phaseFinished .authEstablishing) .failed stats
      (some "All configured personas failed to establish a session.".toList)
    Program.modify (Snapshot.finishScan env.clock.scanFinished)
    Program.commit
    pure none
  else
    finishPhase phase (env.clock.phaseFinished .authEstablishing) .completed stats
    pure (some sessions)

/-- The branches of AUTH_ESTABLISHING: no master key, no configured
persona, or the logins. -/
def authBranches (env : Environment) (machine : ScanStateMachine) (phase : Nat) :
    ScanProgram (Option Dict) := do
  if env.kmsMasterKey = [] ∧ env.configuredPersonas ≠ [] then
    Program.modify (Snapshot.degrade [noMasterKeyNote])
    finishPhase phase (env.clock.phaseFinished .authEstablishing) .skipped (.error noMasterKeyNote)
    pure (some [])
  else if env.configuredPersonas = [] then
    Program.modify (Snapshot.degrade [noPersonasNote])
    finishPhase phase (env.clock.phaseFinished .authEstablishing) .completed (.auth 0 0)
    pure (some [])
  else logIn env machine phase

/-- The shared setup reads the organisation, the scope rules and the
personas. -/
def sharedSetup (env : Environment) : ScanProgram Unit := do
  Program.point
  Program.point
  Program.point
  Program.modify fun db => { db with personas := env.personas }

/-- AUTH_ESTABLISHING up to the commit that enters CRAWLING; the machine
and the sessions, or `none` when the run returns. -/
def authEstablishing (env : Environment) (machine : ScanStateMachine) :
    ScanProgram (Option (ScanStateMachine × Dict)) := do
  sharedSetup env
  let phase ← getOrCreatePhase .authEstablishing
  let machine ← enter machine .authEstablishing
  startPhase phase (env.clock.phaseStarted .authEstablishing)
  Program.commit
  match ← authBranches env machine phase with
  | none => pure none
  | some sessions =>
    let machine ← enter machine .crawling
    Program.commit
    pure (some (machine, sessions))

/-- CRAWLING. -/
def crawling (env : Environment) (machine : ScanStateMachine) (sessions : Dict) :
    ScanProgram (ScanStateMachine × List SurfaceMap) := do
  let phase ← getOrCreatePhase .crawling
  startPhase phase (env.clock.phaseStarted .crawling)
  Program.commit
  let surfaces ← withBrowser (runCrawling env sessions)
  finishPhase phase (env.clock.phaseFinished .crawling) .completed
    (.crawling (surfaces.map (·.personaId)) (surfaces.map fun s => (s.personaId, s.pagesVisited))
      (surfaces.map fun s => (s.personaId, s.endpoints.length)))
  let machine ← enter machine .surfaceMapping
  Program.commit
  pure (machine, surfaces)

variable [PyRuntime]

/-- One round of the merge loop in `run_scan`. -/
def totalStep (total : MergeStats) (surface : SurfaceMap) : ScanProgram MergeStats := do
  let stats ← mergeSurfaceMap surface
  pure {
    assetsCreated := total.assetsCreated + stats.assetsCreated
    endpointsCreated := total.endpointsCreated + stats.endpointsCreated
    endpointsMerged := total.endpointsMerged + stats.endpointsMerged }

/-- SURFACE_MAPPING, and the pause behind it. -/
def surfaceMapping (env : Environment) (machine : ScanStateMachine) (surfaces : List SurfaceMap) :
    ScanProgram Unit := do
  let phase ← getOrCreatePhase .surfaceMapping
  startPhase phase (env.clock.phaseStarted .surfaceMapping)
  Program.commit
  let total ← surfaces.foldlM totalStep {}
  finishPhase phase (env.clock.phaseFinished .surfaceMapping) .completed
    (.surfaceMapping total.endpointsCreated total.endpointsMerged total.assetsCreated)
  let machine ← enter machine .paused
  Program.modify (Snapshot.modifyScan fun scan => { scan with pausedFrom := machine.pausedFrom })
  Program.modify (Snapshot.degrade [notYetImplementedNote])
  Program.commit

/-! ## The run -/

/-- The phases one after another. -/
def runPhases (env : Environment) (target : Target) (machine : ScanStateMachine) :
    ScanProgram Unit := do
  match ← scopeVerifying env target machine with
  | none => pure ()
  | some machine =>
    let machine ← recon env machine
    match ← authEstablishing env machine with
    | none => pure ()
    | some (machine, sessions) =>
      let (machine, surfaces) ← crawling env machine sessions
      surfaceMapping env machine surfaces

/-- `run_scan`. Behind the last commit of each path are the log call and
the end of the session. -/
def runScan (env : Environment) : ScanProgram Unit := do
  Program.point
  if !env.scanFound then pure ()
  else
    Program.point
    match env.target with
    | none => pure ()
    | some target =>
      let db ← Program.get
      runPhases env target { current := db.scan.state, pausedFrom := db.scan.pausedFrom }
      Program.point

/-- A delivery of `run_scan_task`: what it meets, and where it is ended. -/
structure ScanAttempt where
  env : Environment
  stop : Option Nat := none

namespace ScanAttempt

/-- The attempt as a run of `run_scan`. -/
def toAttempt (a : ScanAttempt) : Attempt Snapshot RunError Unit := ⟨runScan a.env, a.stop⟩

/-- What the attempt leaves behind when it finds `db`. -/
def report (a : ScanAttempt) (db : Snapshot) : Report Snapshot RunError Unit :=
  a.toAttempt.report db

/-- What is in the database after the attempt. -/
def next (db : Snapshot) (a : ScanAttempt) : Snapshot := a.toAttempt.next db

/-- The same run, ended by nothing. -/
def uninterrupted (a : ScanAttempt) : ScanAttempt := { a with stop := none }

end ScanAttempt

/-- The run stopped with `InvalidTransition`. -/
def RaisesInvalidTransition (r : Report Snapshot RunError Unit) : Prop :=
  ∃ current target, r.ending = .raised (.machine (.invalidTransition current target))

/-- What a Celery task and its retries commit. -/
def committedBy (db : Snapshot) (attempts : List ScanAttempt) : List Snapshot :=
  Durable.committedBy db (attempts.map ScanAttempt.toAttempt)

end Sentinel.Worker
