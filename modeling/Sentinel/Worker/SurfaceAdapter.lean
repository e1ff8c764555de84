/-
Sentinel.Worker.SurfaceAdapter — `surface_adapter`: merging the surfaces
of the personas into the asset and endpoint rows of the scan.
-/
import Sentinel.Crawler.SurfaceMap
import Sentinel.Db.Scan
import Sentinel.Durable.Logic

namespace Sentinel.Worker

open Sentinel.Py Sentinel.Core Sentinel.Db Sentinel.Crawler Sentinel.Durable

/-- What a scan run may stop with on its own. -/
inductive RunError where
  | machine (e : MachineError)
  | python (e : PyError)
  | multipleResultsFound
  deriving DecidableEq, Repr

/-- The error does not come from the state machine. -/
def RunError.NotMachine (e : RunError) : Prop := ∀ m, e ≠ .machine m

/-- A program in the session of a scan run. -/
abbrev ScanProgram := Program Snapshot RunError

structure MergeStats where
  assetsCreated : Nat := 0
  endpointsCreated : Nat := 0
  endpointsMerged : Nat := 0
  deriving DecidableEq, Repr

/-- `result.scalar_one_or_none()`. -/
def scalarOneOrNone {α : Type} : List α → Except RunError (Option α)
  | [] => .ok none
  | [row] => .ok (some row)
  | _ => .error .multipleResultsFound

/-- `_get_or_create_asset`: the asset's place, and whether it is new. -/
def getOrCreateAsset (host : Str) : ScanProgram (Nat × Bool) := do
  Program.point
  let db ← Program.get
  let found ← Program.ofExcept
    (scalarOneOrNone ((List.range db.assets.length).filter fun i =>
      (db.assets[i]?.map Asset.host) = some host))
  match found with
  | some asset => pure (asset, false)
  | none => do
    Program.modify (Snapshot.addAssets [{ host := host, discoverySource := "crawl".toList }])
    Program.point
    pure (db.assets.length, true)

/-- The row `_merge_endpoint` looks for. -/
def Endpoint.isFor (assetId : Nat) (discovered : DiscoveredEndpoint) (e : Endpoint) : Bool :=
  e.assetId = assetId ∧ e.method = discovered.method ∧ e.pathTemplate = discovered.pathTemplate

/-- `_merge_endpoint`: whether a row was there to merge into. -/
def mergeEndpoint (assetId : Nat) (discovered : DiscoveredEndpoint) : ScanProgram Bool := do
  Program.point
  let db ← Program.get
  let found ← Program.ofExcept
    (scalarOneOrNone ((List.range db.endpoints.length).filter fun i =>
      db.endpoints[i]?.any (Endpoint.isFor assetId discovered)))
  match found with
  | none => do
    Program.modify (Snapshot.addEndpoint {
      assetId := assetId
      method := discovered.method
      pathTemplate := discovered.pathTemplate
      discoveredByPersonaIds := [discovered.personaId]
      discoverySource :=
        (if discovered.source = .network then "js_extraction" else "rendered_crawl").toList })
    pure false
  | some endpoint => do
    Program.modify (Snapshot.modifyEndpoint endpoint fun e =>
      if discovered.personaId ∈ e.discoveredByPersonaIds then e
      else { e with discoveredByPersonaIds := e.discoveredByPersonaIds ++ [discovered.personaId] })
    pure true

/-- What `merge_surface_map` has in hand between two endpoints. -/
structure MergeState where
  assetCache : List (Str × Nat) := []
  stats : MergeStats := {}

/-- The asset of a host from the cache, else from the session. -/
def cachedAsset (assetCache : List (Str × Nat)) (host : Str) : ScanProgram (Nat × Bool) :=
  match assetCache.lookup host with
  | some asset => pure (asset, false)
  | none => getOrCreateAsset host

variable [PyRuntime]

/-- One round of the loop in `merge_surface_map`. -/
def mergeStep (st : MergeState) (endpoint : DiscoveredEndpoint) : ScanProgram MergeState := do
  let parts ← Program.ofExcept ((urlsplit endpoint.url).mapError RunError.python)
  let host := parts.hostname.getD []
  let (asset, created) ← cachedAsset st.assetCache host
  let assetCache :=
    if st.assetCache.lookup host = none then (host, asset) :: st.assetCache else st.assetCache
  let merged ← mergeEndpoint asset endpoint
  pure {
    assetCache := assetCache
    stats := {
      assetsCreated := st.stats.assetsCreated + created.toNat
      endpointsCreated := st.stats.endpointsCreated + (!merged).toNat
      endpointsMerged := st.stats.endpointsMerged + merged.toNat } }

/-- `merge_surface_map`. -/
def mergeSurfaceMap (surface : SurfaceMap) : ScanProgram MergeStats := do
  let st ← surface.endpoints.foldlM mergeStep {}
  Program.point
  pure st.stats

/-! ## The scan row is left alone -/

omit [PyRuntime] in
theorem scalarOneOrNone_keeps {α : Type} (rows : List α) :
    Keeps Snapshot.scan RunError.NotMachine (Program.ofExcept (scalarOneOrNone rows)) := by
  match rows with
  | [] => exact Keeps.pure _ _
  | [row] => exact Keeps.pure _ _
  | _ :: _ :: _ => exact Keeps.raise _ fun m => by simp

omit [PyRuntime] in
theorem getOrCreateAsset_keeps (host : Str) :
    Keeps Snapshot.scan RunError.NotMachine (getOrCreateAsset host) := by
  refine (Keeps.point _).bind fun _ => (Keeps.get _).bind fun db => ?_
  refine (scalarOneOrNone_keeps _).bind fun found => ?_
  cases found with
  | some asset => exact Keeps.pure _ _
  | none =>
    refine (Keeps.modify (Snapshot.addAssets_scan _)).bind fun _ => ?_
    exact (Keeps.point _).bind fun _ => Keeps.pure _ _

omit [PyRuntime] in
theorem mergeEndpoint_keeps (assetId : Nat) (discovered : DiscoveredEndpoint) :
    Keeps Snapshot.scan RunError.NotMachine (mergeEndpoint assetId discovered) := by
  refine (Keeps.point _).bind fun _ => (Keeps.get _).bind fun db => ?_
  refine (scalarOneOrNone_keeps _).bind fun found => ?_
  cases found with
  | none =>
    exact (Keeps.modify (Snapshot.addEndpoint_scan _)).bind fun _ => Keeps.pure _ _
  | some endpoint =>
    exact (Keeps.modify (Snapshot.modifyEndpoint_scan _ _)).bind fun _ => Keeps.pure _ _

omit [PyRuntime] in
theorem cachedAsset_keeps (assetCache : List (Str × Nat)) (host : Str) :
    Keeps Snapshot.scan RunError.NotMachine (cachedAsset assetCache host) := by
  unfold cachedAsset
  split
  · exact Keeps.pure _ _
  · exact getOrCreateAsset_keeps host

theorem mergeStep_keeps (st : MergeState) (endpoint : DiscoveredEndpoint) :
    Keeps Snapshot.scan RunError.NotMachine (mergeStep st endpoint) := by
  have hurl : Keeps Snapshot.scan RunError.NotMachine
      (Program.ofExcept ((urlsplit endpoint.url).mapError RunError.python)) := by
    cases urlsplit endpoint.url with
    | ok parts => exact Keeps.pure _ _
    | error e => exact Keeps.raise _ fun m => by simp
  refine hurl.bind fun parts => ?_
  refine (cachedAsset_keeps _ _).bind fun r => ?_
  exact (mergeEndpoint_keeps _ _).bind fun _ => Keeps.pure _ _

/-- Merging a surface commits nothing and leaves the scan alone. -/
theorem mergeSurfaceMap_keeps (surface : SurfaceMap) :
    Keeps Snapshot.scan RunError.NotMachine (mergeSurfaceMap surface) := by
  refine (Keeps.foldlM mergeStep_keeps _ _).bind fun st => ?_
  exact (Keeps.point _).bind fun _ => Keeps.pure _ _

end Sentinel.Worker
