/-
Sentinel.Db.Scan — the rows a scan run writes.

`Snapshot` is what the session of one scan holds: the scan with its
phases, and the assets, endpoints and personas. An asset is known by its
place in the list.
-/
import Sentinel.Auth.Oracle
import Sentinel.Core.StateMachine

namespace Sentinel.Db

open Sentinel.Py Sentinel.Core

/-- A UTC time in microseconds. -/
abbrev Instant := Int

/-- The dictionaries that go to `stats_json`. -/
inductive PhaseStats where
  | empty
  | scopeVerifying (targetScannable : Bool)
  | recon (assetsFound : Nat) (toolAvailability : List (Str × Bool)) (wildcardDnsSuspected : Bool)
      (notes : List Str)
  | error (note : Str)
  | auth (personasConfigured personasAvailable : Nat)
  | crawling (personasCrawled : List Str) (pagesVisitedByPersona endpointsByPersona : List (Str × Nat))
  | surfaceMapping (endpointsCreated endpointsMergedAcrossPersonas assetsCreated : Nat)
  deriving DecidableEq, Repr

structure ScanPhase where
  name : ScanPhaseName
  status : PhaseStatus := .pending
  startedAt : Option Instant := none
  finishedAt : Option Instant := none
  error : Option Str := none
  statsJson : PhaseStats := .empty
  deriving DecidableEq, Repr

structure Scan where
  state : ScanState := .queued
  pausedFrom : Option ScanState := none
  isDegraded : Bool := false
  degradedReasons : List Str := []
  finishedAt : Option Instant := none
  phases : List ScanPhase := []
  deriving DecidableEq, Repr

structure HttpProbe where
  url : Str
  statusCode : Option Int
  title : Option Str
  server : Option Str
  tech : List Str := []
  error : Option Str := none
  deriving DecidableEq, Repr

structure Asset where
  host : Str
  ipAddresses : List Str := []
  httpProbes : List HttpProbe := []
  discoverySource : Str
  deriving DecidableEq, Repr

structure Endpoint where
  assetId : Nat
  method : Str
  pathTemplate : Str
  discoveredByPersonaIds : List Str
  discoverySource : Str
  deriving DecidableEq, Repr

/-- A `personas` row; of the login recipe only whether there is one. -/
structure Persona where
  id : Str
  label : Str
  hasLoginRecipe : Bool
  isAvailable : Bool := true
  unavailableReason : Option Str := none
  sessionStateCiphertext : Option Str := none
  sessionStateUpdatedAt : Option Instant := none
  sessionOracle : Option Auth.SessionOracle := none
  deriving DecidableEq, Repr

structure Snapshot where
  scan : Scan := {}
  assets : List Asset := []
  endpoints : List Endpoint := []
  personas : List Persona := []
  deriving DecidableEq, Repr

namespace Snapshot

/-- The scan's state and where it was paused. -/
def lifecycle (db : Snapshot) : ScanState × Option ScanState := (db.scan.state, db.scan.pausedFrom)

/-- The lifecycle with the phase rows and the end. -/
def progress (db : Snapshot) :
    ScanState × Option ScanState × List ScanPhase × Option Instant :=
  (db.scan.state, db.scan.pausedFrom, db.scan.phases, db.scan.finishedAt)

/-- How far along its lifecycle the scan is. -/
def rank (db : Snapshot) : Nat := lifecycleRank db.scan.state db.scan.pausedFrom

def modifyScan (f : Scan → Scan) (db : Snapshot) : Snapshot := { db with scan := f db.scan }

def modifyPhase (phase : Nat) (f : ScanPhase → ScanPhase) : Snapshot → Snapshot :=
  modifyScan fun scan => { scan with phases := scan.phases.modify phase f }

/-- `scan.is_degraded = True` with further reasons. -/
def degrade (reasons : List Str) : Snapshot → Snapshot :=
  modifyScan fun scan =>
    { scan with isDegraded := true, degradedReasons := scan.degradedReasons ++ reasons }

/-- `scan.finished_at = datetime.now(UTC)`. -/
def finishScan (now : Instant) : Snapshot → Snapshot :=
  modifyScan fun scan => { scan with finishedAt := some now }

def modifyPersona (id : Str) (f : Persona → Persona) (db : Snapshot) : Snapshot :=
  { db with personas := db.personas.map fun p => if p.id = id then f p else p }

def addAssets (assets : List Asset) (db : Snapshot) : Snapshot :=
  { db with assets := db.assets ++ assets }

def addEndpoint (endpoint : Endpoint) (db : Snapshot) : Snapshot :=
  { db with endpoints := db.endpoints ++ [endpoint] }

def modifyEndpoint (endpoint : Nat) (f : Endpoint → Endpoint) (db : Snapshot) : Snapshot :=
  { db with endpoints := db.endpoints.modify endpoint f }

@[simp] theorem addAssets_lifecycle (assets : List Asset) (db : Snapshot) :
    (db.addAssets assets).lifecycle = db.lifecycle := rfl

@[simp] theorem addAssets_scan (assets : List Asset) (db : Snapshot) :
    (db.addAssets assets).scan = db.scan := rfl

@[simp] theorem addEndpoint_scan (endpoint : Endpoint) (db : Snapshot) :
    (db.addEndpoint endpoint).scan = db.scan := rfl

@[simp] theorem modifyEndpoint_scan (endpoint : Nat) (f : Endpoint → Endpoint) (db : Snapshot) :
    (db.modifyEndpoint endpoint f).scan = db.scan := rfl

@[simp] theorem modifyPhase_lifecycle (phase : Nat) (f : ScanPhase → ScanPhase) (db : Snapshot) :
    (db.modifyPhase phase f).lifecycle = db.lifecycle := rfl

@[simp] theorem degrade_lifecycle (reasons : List Str) (db : Snapshot) :
    (db.degrade reasons).lifecycle = db.lifecycle := rfl

@[simp] theorem finishScan_lifecycle (now : Instant) (db : Snapshot) :
    (db.finishScan now).lifecycle = db.lifecycle := rfl

@[simp] theorem modifyPersona_progress (id : Str) (f : Persona → Persona) (db : Snapshot) :
    (db.modifyPersona id f).progress = db.progress := rfl

@[simp] theorem degrade_progress (reasons : List Str) (db : Snapshot) :
    (db.degrade reasons).progress = db.progress := rfl

@[simp] theorem addAssets_progress (assets : List Asset) (db : Snapshot) :
    (db.addAssets assets).progress = db.progress := rfl

end Snapshot

end Sentinel.Db
