/-
Sentinel.Worker.SharedScan — executions of `run_scan` for one scan, on the
tables they share.

Each execution has a session of its own. What it reads is what is committed
at that moment, and the rows it already has are not read again; what it
commits are its new rows and the columns it has changed. Between any two of
these acts the others may act. The phases before SURFACE_MAPPING read no
rows of the scan, so they act by their commits alone; the merge asks before
it creates.

Not modelled are the persona rows the logins write, which are not rows of
the scan, and the locks that make an UPDATE wait for the transaction that
has changed the row before.
-/
import Sentinel.Durable.Task
import Sentinel.Orm.Rows
import Sentinel.Worker.ScanRunner
import Mathlib.Data.Nat.Pairing

namespace Sentinel.Worker

open Sentinel.Py Sentinel.Core Sentinel.Db Sentinel.Crawler Sentinel.Durable Sentinel.Orm

/-! ## Tables and sessions -/

/-- The committed rows of a scan. The phases have a table of their own, so
`scan.phases` is empty, and `assetId` is the id of the asset's row. -/
structure Tables where
  scan : Scan
  phases : List (Stored ScanPhase) := []
  assets : List (Stored Asset) := []
  endpoints : List (Stored Endpoint) := []
  deriving DecidableEq, Repr

/-- A session: its rows in memory, and what it knows of the stored ones. -/
structure Session where
  snapshot : Snapshot := {}
  scan : Scan := {}
  phases : List (Tracked ScanPhase) := []
  assets : List (Tracked Asset) := []
  endpoints : List (Tracked Endpoint) := []

/-- The ids of the rows an execution creates. -/
def newId (execution : Nat) : Nat → Nat := Nat.pair execution

/-! ## Writing -/

def updateScan (loaded changed stored : Scan) : Scan :=
  { stored with
    state := column loaded.state changed.state stored.state
    pausedFrom := column loaded.pausedFrom changed.pausedFrom stored.pausedFrom
    isDegraded := column loaded.isDegraded changed.isDegraded stored.isDegraded
    degradedReasons :=
      column loaded.degradedReasons changed.degradedReasons stored.degradedReasons
    finishedAt := column loaded.finishedAt changed.finishedAt stored.finishedAt }

def updatePhase (loaded changed stored : ScanPhase) : ScanPhase where
  name := column loaded.name changed.name stored.name
  status := column loaded.status changed.status stored.status
  startedAt := column loaded.startedAt changed.startedAt stored.startedAt
  finishedAt := column loaded.finishedAt changed.finishedAt stored.finishedAt
  error := column loaded.error changed.error stored.error
  statsJson := column loaded.statsJson changed.statsJson stored.statsJson

def updateAsset (loaded changed stored : Asset) : Asset where
  host := column loaded.host changed.host stored.host
  ipAddresses := column loaded.ipAddresses changed.ipAddresses stored.ipAddresses
  httpProbes := column loaded.httpProbes changed.httpProbes stored.httpProbes
  discoverySource := column loaded.discoverySource changed.discoverySource stored.discoverySource

def updateEndpoint (loaded changed stored : Endpoint) : Endpoint where
  assetId := column loaded.assetId changed.assetId stored.assetId
  method := column loaded.method changed.method stored.method
  pathTemplate := column loaded.pathTemplate changed.pathTemplate stored.pathTemplate
  discoveredByPersonaIds := column loaded.discoveredByPersonaIds changed.discoveredByPersonaIds
    stored.discoveredByPersonaIds
  discoverySource := column loaded.discoverySource changed.discoverySource stored.discoverySource

/-- An endpoint as it is stored: the id of its asset for the asset's place. -/
def storedEndpoint (assetIds : List Nat) (e : Endpoint) : Endpoint :=
  { e with assetId := assetIds.getD e.assetId 0 }

namespace Session

/-- The statements of a commit when the rows in memory are those of `next`. -/
def write (execution : Nat) (s : Session) (next : Snapshot) (t : Tables) : Tables :=
  let assetIds := rowIds (newId execution) s.assets next.assets
  { scan := updateScan s.scan next.scan t.scan
    phases := writeRows updatePhase (newId execution) s.phases next.scan.phases t.phases
    assets := writeRows updateAsset (newId execution) s.assets next.assets t.assets
    endpoints := writeRows updateEndpoint (newId execution) s.endpoints
      (next.endpoints.map (storedEndpoint assetIds)) t.endpoints }

/-- The session after that commit; nothing expires. -/
def written (execution : Nat) (s : Session) (next : Snapshot) : Session :=
  let assetIds := rowIds (newId execution) s.assets next.assets
  { snapshot := next
    scan := { next.scan with phases := [] }
    phases := trackWritten (newId execution) s.phases next.scan.phases
    assets := trackWritten (newId execution) s.assets next.assets
    endpoints := trackWritten (newId execution) s.endpoints
      (next.endpoints.map (storedEndpoint assetIds)) }

/-! ## Reading -/

/-- `session.get(Scan, …)`. -/
def loadScan (t : Tables) (s : Session) : Session :=
  { s with scan := t.scan, snapshot := { s.snapshot with scan := t.scan } }

/-- Its `selectinload(Scan.phases)`. -/
def loadPhases (execution : Nat) (t : Tables) (s : Session) : Session :=
  let memory := loadRows (newId execution) (s.phases, s.snapshot.scan.phases) t.phases
  { s with
    phases := memory.1
    snapshot := s.snapshot.modifyScan fun scan => { scan with phases := memory.2 } }

/-- The SELECT of `_get_or_create_asset`. -/
def loadAssets (execution : Nat) (host : Str) (t : Tables) (s : Session) : Session :=
  let memory := loadRows (newId execution) (s.assets, s.snapshot.assets)
    (t.assets.filter fun asset => asset.row.host = host)
  { s with assets := memory.1, snapshot := { s.snapshot with assets := memory.2 } }

/-- The SELECT of `_merge_endpoint` for the asset at this place. -/
def loadEndpoints (execution asset : Nat) (discovered : DiscoveredEndpoint) (t : Tables)
    (s : Session) : Session :=
  let assetIds := rowIds (newId execution) s.assets s.snapshot.assets
  let memory := loadRows (newId execution)
    (s.endpoints, s.snapshot.endpoints.map (storedEndpoint assetIds))
    (t.endpoints.filter fun e => Endpoint.isFor (assetIds.getD asset 0) discovered e.row)
  let loaded := memory.2.drop s.snapshot.endpoints.length
  { s with
    endpoints := memory.1
    snapshot := { s.snapshot with
      endpoints := s.snapshot.endpoints ++ loaded.map fun e => { e with assetId := asset } } }

end Session

/-! ## Programs of a session -/

abbrev SessionProgram := StateT Session (Task Tables ScanPhaseName RunError)

/-- Read with one statement. -/
def select (load : Tables → Session → Session) : SessionProgram Unit :=
  fun s => .query fun t => .returned ((), load t s)

/-- The work of a phase begins. -/
def startWork (phase : ScanPhaseName) : SessionProgram Unit :=
  fun s => .work phase (.returned ((), s))

/-- The commits among the events of a program, and what comes then. -/
def replay {α : Type} (execution : Nat)
    (rest : Session → Task Tables ScanPhaseName RunError α) :
    List (Event Snapshot) → Session → Task Tables ScanPhaseName RunError α
  | [], s => rest s
  | .point :: events, s => replay execution rest events s
  | .commit next :: events, s =>
      .commit (s.write execution next) (replay execution rest events (s.written execution next))

/-- A program that reads no rows, in a session. -/
def block {α : Type} (execution : Nat) (p : ScanProgram α) : SessionProgram α := fun s =>
  let outcome := p s.snapshot
  replay execution
    (fun s =>
      match outcome.result with
      | .ok (a, snapshot) => .returned (a, { s with snapshot := snapshot })
      | .error e => .raised e)
    outcome.events s

/-! ## `run_scan` -/

namespace Shared

variable [PyRuntime]

/-- The SELECT for the asset of a host, unless the cache has it. -/
def selectAsset (execution : Nat) (assetCache : List (Str × Nat)) (host : Str) :
    SessionProgram Unit :=
  if assetCache.lookup host = none then select (Session.loadAssets execution host) else pure ()

/-- One round of the loop in `merge_surface_map`. -/
def mergeStep (execution : Nat) (st : MergeState) (endpoint : DiscoveredEndpoint) :
    SessionProgram MergeState := do
  let parts ← block execution
    (Program.ofExcept ((urlsplit endpoint.url).mapError RunError.python))
  let host := parts.hostname.getD []
  selectAsset execution st.assetCache host
  let (asset, created) ← block execution (cachedAsset st.assetCache host)
  let assetCache :=
    if st.assetCache.lookup host = none then (host, asset) :: st.assetCache else st.assetCache
  select (Session.loadEndpoints execution asset endpoint)
  let merged ← block execution (mergeEndpoint asset endpoint)
  pure {
    assetCache := assetCache
    stats := {
      assetsCreated := st.stats.assetsCreated + created.toNat
      endpointsCreated := st.stats.endpointsCreated + (!merged).toNat
      endpointsMerged := st.stats.endpointsMerged + merged.toNat } }

/-- `merge_surface_map`. -/
def mergeSurfaceMap (execution : Nat) (surface : SurfaceMap) : SessionProgram MergeStats := do
  let st ← surface.endpoints.foldlM (mergeStep execution) {}
  pure st.stats

/-- One round of the merge loop in `run_scan`. -/
def totalStep (execution : Nat) (total : MergeStats) (surface : SurfaceMap) :
    SessionProgram MergeStats := do
  let stats ← mergeSurfaceMap execution surface
  pure {
    assetsCreated := total.assetsCreated + stats.assetsCreated
    endpointsCreated := total.endpointsCreated + stats.endpointsCreated
    endpointsMerged := total.endpointsMerged + stats.endpointsMerged }

/-- The start of SURFACE_MAPPING up to its first commit. -/
def surfaceMappingStart (env : Environment) : ScanProgram Nat := do
  let phase ← getOrCreatePhase .surfaceMapping
  startPhase phase (env.clock.phaseStarted .surfaceMapping)
  Program.commit
  pure phase

/-- SURFACE_MAPPING behind the merge, and the pause. -/
def surfaceMappingEnd (env : Environment) (machine : ScanStateMachine) (phase : Nat)
    (total : MergeStats) : ScanProgram Unit := do
  finishPhase phase (env.clock.phaseFinished .surfaceMapping) .completed
    (.surfaceMapping total.endpointsCreated total.endpointsMerged total.assetsCreated)
  let machine ← enter machine .paused
  Program.modify (Snapshot.modifyScan fun scan => { scan with pausedFrom := machine.pausedFrom })
  Program.modify (Snapshot.degrade [notYetImplementedNote])
  Program.commit

/-- The two ends and the merge between them are the phase. -/
theorem surfaceMapping_eq (env : Environment) (machine : ScanStateMachine)
    (surfaces : List SurfaceMap) :
    Worker.surfaceMapping env machine surfaces = (do
      let phase ← surfaceMappingStart env
      let total ← surfaces.foldlM Worker.totalStep {}
      surfaceMappingEnd env machine phase total) := by
  unfold Worker.surfaceMapping surfaceMappingStart surfaceMappingEnd
  simp only [Program.bind_assoc, Program.pure_bind]

/-- SURFACE_MAPPING, and the pause behind it. -/
def surfaceMapping (execution : Nat) (env : Environment) (machine : ScanStateMachine)
    (surfaces : List SurfaceMap) : SessionProgram Unit := do
  let phase ← block execution (surfaceMappingStart env)
  let total ← surfaces.foldlM (totalStep execution) {}
  block execution (surfaceMappingEnd env machine phase total)

/-- The phases one after another. -/
def runPhases (execution : Nat) (env : Environment) (target : Target)
    (machine : ScanStateMachine) : SessionProgram Unit := do
  match ← block execution (scopeVerifying env target machine) with
  | none => pure ()
  | some machine =>
    startWork .recon
    let machine ← block execution (recon env machine)
    startWork .authEstablishing
    match ← block execution (authEstablishing env machine) with
    | none => pure ()
    | some (machine, sessions) =>
      startWork .crawling
      let (machine, surfaces) ← block execution (crawling env machine sessions)
      surfaceMapping execution env machine surfaces

/-- `run_scan`. -/
def runScan (execution : Nat) (env : Environment) : SessionProgram Unit := do
  if !env.scanFound then pure ()
  else
    select Session.loadScan
    select (Session.loadPhases execution)
    match env.target with
    | none => pure ()
    | some target =>
      let s ← get
      let scan := s.snapshot.scan
      runPhases execution env target { current := scan.state, pausedFrom := scan.pausedFrom }

/-- The executions of `run_scan` for one scan, all still to come. -/
def executions (envs : Nat → Environment) (scan : Scan) :
    Pool Tables ScanPhaseName RunError (Unit × Session) where
  store := { scan := scan }
  tasks := fun i => some ((runScan i (envs i)).run {})

end Shared

end Sentinel.Worker
