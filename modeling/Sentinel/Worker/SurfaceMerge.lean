/-
Sentinel.Worker.SurfaceMerge — merging surfaces is a union.

`mergeStep`, the find-or-create of an asset through the cache and of an
endpoint row, stores one endpoint in the sense of `Sentinel.Db.Surface`.
Merging surface after surface therefore learns, on the index of the rows,
every pair of key and persona, and what the rows say afterwards is read off
the index. The counters count the rows that came with it.
-/
import Sentinel.Db.Surface
import Sentinel.Durable.Returns
import Sentinel.Worker.ScanRunner

namespace Sentinel.Worker

open Sentinel.Py Sentinel.Core Sentinel.Db Sentinel.Crawler Sentinel.Durable Sentinel.Index

variable [PyRuntime]

/-! ## One endpoint -/

omit [PyRuntime] in
@[simp] theorem scalarOneOrNone_toList {α : Type} (row : Option α) :
    scalarOneOrNone row.toList = .ok row := by
  cases row <;> rfl

/-- The session after the asset of the host was found or created. -/
def withAsset (db : Snapshot) (host : Str) : Snapshot :=
  { db with assets := upsert Asset.host db.assets host (newAsset host) id }

omit [PyRuntime] in
theorem getOrCreateAsset_returns {db : Snapshot} (h : db.Consistent) (host : Str) :
    (getOrCreateAsset host).Returns db
      (db.assetAt host, (place Asset.host db.assets host).isNone) (withAsset db host) := by
  have hquery : ((List.range db.assets.length).filter fun i =>
      decide (db.assets[i]?.map Asset.host = some host)) =
        (place Asset.host db.assets host).toList := by
    rw [← filter_range_eq h.hosts]
    refine List.filter_congr fun i _ => ?_
    cases db.assets[i]? <;> simp
  simp only [getOrCreateAsset, Program.returns_bind, Program.returns_point, Program.returns_get,
    Program.returns_ofExcept]
  refine ⟨(), db, rfl, db, db, ⟨rfl, rfl⟩, place Asset.host db.assets host, db, ⟨?_, rfl⟩, ?_⟩
  · rw [hquery, scalarOneOrNone_toList]
  · unfold Snapshot.assetAt withAsset upsert
    cases place Asset.host db.assets host with
    | some asset => simp
    | none => simp [Snapshot.addAssets, newAsset]

omit [PyRuntime] in
theorem mergeEndpoint_returns {db : Snapshot} (h : (db.endpoints.map Endpoint.place).Nodup)
    (asset : Nat) (discovered : DiscoveredEndpoint) :
    (mergeEndpoint asset discovered).Returns db
      (place Endpoint.place db.endpoints
        (asset, discovered.method, discovered.pathTemplate)).isSome
      { db with
        endpoints := upsert Endpoint.place db.endpoints
          (asset, discovered.method, discovered.pathTemplate) (newEndpoint asset discovered)
          (Endpoint.addPersona · discovered.personaId) } := by
  have hquery : ((List.range db.endpoints.length).filter fun i =>
      db.endpoints[i]?.any (Endpoint.isFor asset discovered)) =
        (place Endpoint.place db.endpoints
          (asset, discovered.method, discovered.pathTemplate)).toList := by
    rw [← filter_range_eq h]
    refine List.filter_congr fun i _ => ?_
    cases db.endpoints[i]? <;> simp [Endpoint.isFor, Endpoint.place]
  simp only [mergeEndpoint, Program.returns_bind, Program.returns_point, Program.returns_get,
    Program.returns_ofExcept]
  refine ⟨(), db, rfl, db, db, ⟨rfl, rfl⟩, _, db, ⟨by rw [hquery, scalarOneOrNone_toList], rfl⟩, ?_⟩
  unfold upsert
  cases place Endpoint.place db.endpoints (asset, discovered.method, discovered.pathTemplate) with
  | none => simp [Snapshot.addEndpoint, newEndpoint]
  | some i =>
    have hchange : (fun e : Endpoint =>
        if discovered.personaId ∈ e.discoveredByPersonaIds then e
        else { e with discoveredByPersonaIds := e.discoveredByPersonaIds ++ [discovered.personaId] }) =
        (Endpoint.addPersona · discovered.personaId) := by
      funext e
      unfold Endpoint.addPersona appendNew
      split <;> rfl
    simp [Snapshot.modifyEndpoint, hchange]

/-- The cache knows the places of the assets it has. -/
def CacheValid (assetCache : List (Str × Nat)) (db : Snapshot) : Prop :=
  ∀ host asset, assetCache.lookup host = some asset → place Asset.host db.assets host = some asset

omit [PyRuntime] in
theorem cachedAsset_returns {db : Snapshot} (h : db.Consistent) {assetCache : List (Str × Nat)}
    (hcache : CacheValid assetCache db) (host : Str) :
    (cachedAsset assetCache host).Returns db
      (db.assetAt host, (place Asset.host db.assets host).isNone) (withAsset db host) := by
  unfold cachedAsset
  cases hlookup : assetCache.lookup host with
  | none => exact getOrCreateAsset_returns h host
  | some asset =>
    have hplace := hcache host asset hlookup
    simp [Snapshot.assetAt, withAsset, hplace, upsert_id hplace]

omit [PyRuntime] in
/-- The cache after the asset of a host was looked up. -/
theorem CacheValid.cached {db : Snapshot} {assetCache : List (Str × Nat)}
    (hcache : CacheValid assetCache db) (host : Str) (endpoint : DiscoveredEndpoint) :
    CacheValid (if assetCache.lookup host = none then (host, db.assetAt host) :: assetCache
      else assetCache) (db.store host endpoint) := by
  intro host' asset hlookup
  unfold Snapshot.store
  dsimp only
  rw [place_upsert (Snapshot.asset_keyed host)]
  split
  · next hsame =>
    rw [hsame] at hlookup
    split at hlookup
    · rw [List.lookup_cons_self] at hlookup
      exact hlookup
    · rw [hcache host asset hlookup]
      rfl
  · next hother =>
    split at hlookup
    · rw [List.lookup_cons, beq_eq_false_iff_ne.mpr hother] at hlookup
      exact hcache host' asset hlookup
    · exact hcache host' asset hlookup

/-- The counters went up by the rows that were added, and by the number of
endpoints. -/
structure Counted (before after : MergeStats) (db db' : Snapshot) (endpoints : Nat) : Prop where
  assets : after.assetsCreated + db.assets.length = before.assetsCreated + db'.assets.length
  created : after.endpointsCreated + db.endpoints.length =
    before.endpointsCreated + db'.endpoints.length
  total : after.endpointsCreated + after.endpointsMerged =
    before.endpointsCreated + before.endpointsMerged + endpoints

omit [PyRuntime] in
theorem Counted.refl (stats : MergeStats) (db : Snapshot) : Counted stats stats db db 0 :=
  ⟨rfl, rfl, rfl⟩

omit [PyRuntime] in
theorem Counted.trans {a b c : MergeStats} {db₁ db₂ db₃ : Snapshot} {m n : Nat}
    (h : Counted a b db₁ db₂ m) (h' : Counted b c db₂ db₃ n) : Counted a c db₁ db₃ (m + n) where
  assets := by
    have h₁ := h.assets
    have h₂ := h'.assets
    omega
  created := by
    have h₁ := h.created
    have h₂ := h'.created
    omega
  total := by
    have h₁ := h.total
    have h₂ := h'.total
    omega

/-- The host a discovered endpoint is stored under. -/
def hostOf (endpoint : DiscoveredEndpoint) : Str := (urlHost endpoint.url).getD []

/-- What the loop has in hand after it stored an endpoint. -/
def MergeState.after (st : MergeState) (db : Snapshot) (host : Str) (endpoint : DiscoveredEndpoint) :
    MergeState where
  assetCache :=
    if st.assetCache.lookup host = none then (host, db.assetAt host) :: st.assetCache
    else st.assetCache
  stats := {
    assetsCreated := st.stats.assetsCreated + (place Asset.host db.assets host).isNone.toNat
    endpointsCreated := st.stats.endpointsCreated + (!(place Endpoint.place db.endpoints
      (db.assetAt host, endpoint.method, endpoint.pathTemplate)).isSome).toNat
    endpointsMerged := st.stats.endpointsMerged + (place Endpoint.place db.endpoints
      (db.assetAt host, endpoint.method, endpoint.pathTemplate)).isSome.toNat }

omit [PyRuntime] in
theorem MergeState.after_counted (st : MergeState) (db : Snapshot) (host : Str)
    (endpoint : DiscoveredEndpoint) :
    Counted st.stats (st.after db host endpoint).stats db (db.store host endpoint) 1 := by
  unfold MergeState.after Snapshot.store
  constructor
  · simp only [length_upsert]
    omega
  · simp only [length_upsert, Option.not_isSome]
    omega
  · cases place Endpoint.place db.endpoints
      (db.assetAt host, endpoint.method, endpoint.pathTemplate) with
    | none => simp only [Option.isSome_none, Bool.not_false, Bool.toNat_true, Bool.toNat_false]; omega
    | some i => simp only [Option.isSome_some, Bool.not_true, Bool.toNat_true, Bool.toNat_false]; omega

/-- **One round of the loop stores its endpoint.** -/
theorem mergeStep_returns {db : Snapshot} (h : db.Consistent) {st : MergeState}
    (hcache : CacheValid st.assetCache db) {endpoint : DiscoveredEndpoint}
    (hparse : Parses endpoint.url) :
    (mergeStep st endpoint).Returns db (st.after db (hostOf endpoint) endpoint)
      (db.store (hostOf endpoint) endpoint) := by
  obtain ⟨parts, hparts⟩ := hparse
  have hhost : parts.hostname.getD [] = hostOf endpoint := by rw [hostOf, urlHost, hparts]; rfl
  have hasset := cachedAsset_returns h hcache (hostOf endpoint)
  have hendpoint := @mergeEndpoint_returns (withAsset db (hostOf endpoint)) h.places
    (db.assetAt (hostOf endpoint)) endpoint
  simp only [mergeStep, Program.returns_bind, Program.returns_ofExcept]
  refine ⟨parts, db, ⟨by rw [hparts]; rfl, rfl⟩, ?_⟩
  rw [hhost]
  refine ⟨_, _, hasset, _, _, hendpoint, ?_⟩
  exact (Program.returns_pure _ _ _ _).mpr ⟨rfl, rfl⟩

/-! ## Surfaces -/

/-- The rows after all of the endpoints were stored. -/
def storeAll (db : Snapshot) (endpoints : List DiscoveredEndpoint) : Snapshot :=
  endpoints.foldl (fun db endpoint => db.store (hostOf endpoint) endpoint) db

/-- What there is to learn from an endpoint. -/
def learned (endpoint : DiscoveredEndpoint) : EndpointKey × Str :=
  ((hostOf endpoint, endpoint.method, endpoint.pathTemplate), endpoint.personaId)

theorem storeAll_consistent {db : Snapshot} (h : db.Consistent)
    (endpoints : List DiscoveredEndpoint) : (storeAll db endpoints).Consistent := by
  induction endpoints generalizing db with
  | nil => exact h
  | cons endpoint rest ih => exact ih (h.store (hostOf endpoint) endpoint)

/-- **Storing endpoints is learning of them all.** -/
theorem discoverers_storeAll {db : Snapshot} (h : db.Consistent)
    (endpoints : List DiscoveredEndpoint) :
    (storeAll db endpoints).discoverers = db.discoverers.learnAll (endpoints.map learned) := by
  induction endpoints generalizing db with
  | nil => rfl
  | cons endpoint rest ih =>
    have hrest := ih (h.store (hostOf endpoint) endpoint)
    rw [h.discoverers_store] at hrest
    exact hrest

theorem assets_isPrefix_storeAll (db : Snapshot) (endpoints : List DiscoveredEndpoint) :
    db.assets <+: (storeAll db endpoints).assets := by
  induction endpoints generalizing db with
  | nil => exact List.prefix_rfl
  | cons endpoint rest ih => exact (db.assets_length_le_store _ endpoint).trans (ih _)

/-- Storing endpoints that are known changes nothing. -/
theorem storeAll_eq_self {db : Snapshot} (h : db.Consistent) {endpoints : List DiscoveredEndpoint}
    (hknown : ∀ e ∈ endpoints, (learned e).2 ∈ db.discoverers.values (learned e).1) :
    storeAll db endpoints = db := by
  induction endpoints with
  | nil => rfl
  | cons endpoint rest ih =>
    obtain ⟨hfirst, hrest⟩ := List.forall_mem_cons.mp hknown
    have hself : db.store (hostOf endpoint) endpoint = db := h.store_eq_self hfirst
    calc storeAll db (endpoint :: rest)
        = storeAll (db.store (hostOf endpoint) endpoint) rest := rfl
      _ = storeAll db rest := by rw [hself]
      _ = db := ih hrest

theorem storeAll_append (db : Snapshot) (xs ys : List DiscoveredEndpoint) :
    storeAll db (xs ++ ys) = storeAll (storeAll db xs) ys := List.foldl_append

/-- The loop over endpoints whose URLs parse. -/
theorem mergeLoop_returns {endpoints : List DiscoveredEndpoint}
    (hparse : ∀ e ∈ endpoints, Parses e.url) {db : Snapshot} (h : db.Consistent) {st : MergeState}
    (hcache : CacheValid st.assetCache db) :
    ∃ st', (endpoints.foldlM mergeStep st).Returns db st' (storeAll db endpoints) ∧
      Counted st.stats st'.stats db (storeAll db endpoints) endpoints.length := by
  induction endpoints generalizing db st with
  | nil => exact ⟨st, (Program.returns_pure _ _ _ _).mpr ⟨rfl, rfl⟩, .refl _ _⟩
  | cons endpoint rest ih =>
    obtain ⟨hfirst, hrest⟩ := List.forall_mem_cons.mp hparse
    have hstep := mergeStep_returns h hcache hfirst
    have hcached : CacheValid (st.after db (hostOf endpoint) endpoint).assetCache
        (db.store (hostOf endpoint) endpoint) := hcache.cached (hostOf endpoint) endpoint
    obtain ⟨st', hloop, hcounted⟩ := ih hrest (h.store (hostOf endpoint) endpoint) hcached
    refine ⟨st', (Program.returns_bind _ _ _ _ _).mpr ⟨_, _, hstep, hloop⟩, ?_⟩
    have hall := (st.after_counted db (hostOf endpoint) endpoint).trans hcounted
    rwa [Nat.add_comm] at hall

/-- A URL that does not parse ends the loop. -/
theorem parses_of_mergeLoop {endpoints : List DiscoveredEndpoint} {db db' : Snapshot}
    {st st' : MergeState} (h : (endpoints.foldlM mergeStep st).Returns db st' db') :
    ∀ e ∈ endpoints, Parses e.url := by
  induction endpoints generalizing db st with
  | nil => exact fun e he => absurd he List.not_mem_nil
  | cons endpoint rest ih =>
    rw [List.foldlM_cons] at h
    obtain ⟨st₁, db₁, hstep, hrest⟩ := (Program.returns_bind _ _ _ _ _).mp h
    refine List.forall_mem_cons.mpr ⟨?_, ih hrest⟩
    obtain ⟨parts, _, hparts, -⟩ := (Program.returns_bind _ _ _ _ _).mp hstep
    have hsplit := ((Program.returns_ofExcept _ _ _ _).mp hparts).1
    cases hurl : urlsplit endpoint.url with
    | ok parts => exact ⟨parts, hurl⟩
    | error e =>
      rw [hurl] at hsplit
      exact nomatch hsplit

/-- All endpoints of the surfaces. -/
def allEndpoints (surfaces : List SurfaceMap) : List DiscoveredEndpoint :=
  surfaces.flatMap SurfaceMap.endpoints

/-- The merge loop of `run_scan`, over surfaces whose URLs parse. -/
theorem mergeSurfaces_returns {surfaces : List SurfaceMap}
    (hparse : ∀ e ∈ allEndpoints surfaces, Parses e.url) {db : Snapshot} (h : db.Consistent)
    (total : MergeStats) :
    ∃ total', (surfaces.foldlM totalStep total).Returns db total'
        (storeAll db (allEndpoints surfaces)) ∧
      Counted total total' db (storeAll db (allEndpoints surfaces))
        (allEndpoints surfaces).length := by
  induction surfaces generalizing db total with
  | nil => exact ⟨total, (Program.returns_pure _ _ _ _).mpr ⟨rfl, rfl⟩, .refl _ _⟩
  | cons surface rest ih =>
    unfold allEndpoints at hparse ih ⊢
    rw [List.flatMap_cons] at hparse ⊢
    obtain ⟨hfirst, hrest⟩ := List.forall_mem_append.mp hparse
    have hempty : CacheValid ({} : MergeState).assetCache db := fun _ _ hlookup => nomatch hlookup
    obtain ⟨st, hloop, hcounted⟩ := mergeLoop_returns hfirst h hempty
    have hmerge : (mergeSurfaceMap surface).Returns db st.stats (storeAll db surface.endpoints) := by
      refine (Program.returns_bind _ _ _ _ _).mpr ⟨st, _, hloop, ?_⟩
      exact (Program.returns_bind _ _ _ _ _).mpr ⟨(), _, (Program.returns_point _ _ _).mpr rfl,
        (Program.returns_pure _ _ _ _).mpr ⟨rfl, rfl⟩⟩
    have hstep : (totalStep total surface).Returns db
        ⟨total.assetsCreated + st.stats.assetsCreated,
          total.endpointsCreated + st.stats.endpointsCreated,
          total.endpointsMerged + st.stats.endpointsMerged⟩ (storeAll db surface.endpoints) :=
      (Program.returns_bind _ _ _ _ _).mpr ⟨_, _, hmerge, (Program.returns_pure _ _ _ _).mpr ⟨rfl, rfl⟩⟩
    obtain ⟨total', hreturns, hcounted'⟩ := ih hrest (storeAll_consistent h surface.endpoints)
      ⟨total.assetsCreated + st.stats.assetsCreated,
        total.endpointsCreated + st.stats.endpointsCreated,
        total.endpointsMerged + st.stats.endpointsMerged⟩
    rw [storeAll_append, List.length_append]
    refine ⟨total', (Program.returns_bind _ _ _ _ _).mpr ⟨_, _, hstep, hreturns⟩, ?_⟩
    refine Counted.trans ?_ hcounted'
    obtain ⟨hassets, hcreated, htotal⟩ := hcounted
    dsimp only at hassets hcreated htotal
    constructor
    all_goals dsimp only
    all_goals omega

theorem parses_of_mergeSurfaces {surfaces : List SurfaceMap} {db db' : Snapshot}
    {total total' : MergeStats} (h : (surfaces.foldlM totalStep total).Returns db total' db') :
    ∀ e ∈ allEndpoints surfaces, Parses e.url := by
  induction surfaces generalizing db total with
  | nil => exact fun e he => absurd he List.not_mem_nil
  | cons surface rest ih =>
    rw [List.foldlM_cons] at h
    obtain ⟨total₁, db₁, hstep, hrest⟩ := (Program.returns_bind _ _ _ _ _).mp h
    obtain ⟨stats, db₂, hmerge, -⟩ := (Program.returns_bind _ _ _ _ _).mp hstep
    obtain ⟨st, db₃, hloop, -⟩ := (Program.returns_bind _ _ _ _ _).mp hmerge
    unfold allEndpoints at ih ⊢
    rw [List.flatMap_cons]
    exact List.forall_mem_append.mpr ⟨parses_of_mergeLoop hloop, ih hrest⟩

/-! ## Exactness -/

/-- There is an endpoint row for the key. -/
def HasRow (db : Snapshot) (key : EndpointKey) : Prop :=
  ∃ row ∈ db.endpoints, db.keyOf row = some key

/-- The endpoint row of the key lists the persona. -/
def DiscoveredBy (db : Snapshot) (key : EndpointKey) (personaId : Str) : Prop :=
  ∃ row ∈ db.endpoints, db.keyOf row = some key ∧ personaId ∈ row.discoveredByPersonaIds

/-- A surface has an endpoint of the key, found as the persona. -/
def Contains (surfaces : List SurfaceMap) (key : EndpointKey) (personaId : Str) : Prop :=
  ∃ surface ∈ surfaces, ∃ e ∈ surface.endpoints, learned e = (key, personaId)

/-- What merging the surfaces into the rows of `db` is to leave. -/
structure ExactMerge (db : Snapshot) (surfaces : List SurfaceMap) (total : MergeStats)
    (db' : Snapshot) : Prop where
  consistent : db'.Consistent
  rows : ∀ key, HasRow db' key ↔ HasRow db key ∨ ∃ personaId, Contains surfaces key personaId
  personas : ∀ key personaId, DiscoveredBy db' key personaId ↔
    DiscoveredBy db key personaId ∨ Contains surfaces key personaId
  /-- The personas that a row listed stay in front. -/
  earlier : ∀ key, ∀ old ∈ db.endpoints, ∀ row ∈ db'.endpoints, db.keyOf old = some key →
    db'.keyOf row = some key → old.discoveredByPersonaIds <+: row.discoveredByPersonaIds
  /-- No asset row that was there has changed. -/
  assets : db.assets <+: db'.assets
  /-- Nothing but assets and endpoints is touched. -/
  others : db'.scan = db.scan ∧ db'.personas = db.personas
  assetsCreated : db'.assets.length = db.assets.length + total.assetsCreated
  endpointsCreated : db'.endpoints.length = db.endpoints.length + total.endpointsCreated
  endpointsMerged : total.endpointsCreated + total.endpointsMerged = (allEndpoints surfaces).length

omit [PyRuntime] in
theorem hasRow_iff {db : Snapshot} (h : db.Consistent) (key : EndpointKey) :
    HasRow db key ↔ (db.discoverers key).isSome = true := by
  rw [Option.isSome_iff_exists]
  constructor
  · rintro ⟨row, hrow, hkey⟩
    exact ⟨_, (h.discoverers_eq_some_iff key _).mpr ⟨row, hrow, hkey, rfl⟩⟩
  · rintro ⟨ids, hids⟩
    obtain ⟨row, hrow, hkey, -⟩ := (h.discoverers_eq_some_iff key ids).mp hids
    exact ⟨row, hrow, hkey⟩

omit [PyRuntime] in
theorem discoveredBy_iff {db : Snapshot} (h : db.Consistent) (key : EndpointKey) (personaId : Str) :
    DiscoveredBy db key personaId ↔ personaId ∈ db.discoverers.values key := by
  unfold Postings.values
  constructor
  · rintro ⟨row, hrow, hkey, hpersona⟩
    rwa [(h.discoverers_eq_some_iff key _).mpr ⟨row, hrow, hkey, rfl⟩]
  · intro hpersona
    cases hids : db.discoverers key with
    | none =>
      rw [hids] at hpersona
      exact absurd hpersona List.not_mem_nil
    | some ids =>
      rw [hids] at hpersona
      obtain ⟨row, hrow, hkey, rfl⟩ := (h.discoverers_eq_some_iff key ids).mp hids
      exact ⟨row, hrow, hkey, hpersona⟩

theorem contains_iff_learned (surfaces : List SurfaceMap) (key : EndpointKey) (personaId : Str) :
    Contains surfaces key personaId ↔ (key, personaId) ∈ (allEndpoints surfaces).map learned := by
  simp only [Contains, allEndpoints, List.mem_map, List.mem_flatMap]
  constructor
  · rintro ⟨surface, hsurface, e, he, hlearned⟩
    exact ⟨e, ⟨surface, hsurface, he⟩, hlearned⟩
  · rintro ⟨e, ⟨surface, hsurface, he⟩, hlearned⟩
    exact ⟨surface, hsurface, e, he, hlearned⟩

theorem storeAll_others (db : Snapshot) (endpoints : List DiscoveredEndpoint) :
    (storeAll db endpoints).scan = db.scan ∧ (storeAll db endpoints).personas = db.personas := by
  induction endpoints generalizing db with
  | nil => exact ⟨rfl, rfl⟩
  | cons endpoint rest ih => exact ih (db.store (hostOf endpoint) endpoint)

theorem storeAll_exact {db : Snapshot} (h : db.Consistent) {surfaces : List SurfaceMap}
    {total : MergeStats} (hcounted : Counted {} total db (storeAll db (allEndpoints surfaces))
      (allEndpoints surfaces).length) :
    ExactMerge db surfaces total (storeAll db (allEndpoints surfaces)) := by
  have h' := storeAll_consistent h (allEndpoints surfaces)
  have hindex := discoverers_storeAll h (allEndpoints surfaces)
  obtain ⟨hassets, hcreated, htotal⟩ := hcounted
  constructor
  case consistent => exact h'
  case rows =>
    intro key
    simp only [hasRow_iff h', hasRow_iff h, hindex, Postings.isSome_learnAll, contains_iff_learned]
  case personas =>
    intro key personaId
    rw [discoveredBy_iff h', discoveredBy_iff h, hindex, Postings.mem_values_learnAll,
      contains_iff_learned]
  case earlier =>
    intro key old hold row hrow hkey hkey'
    have hbefore := Postings.values_isPrefix_learnAll db.discoverers
      ((allEndpoints surfaces).map learned) key
    rw [← hindex] at hbefore
    unfold Postings.values at hbefore
    rwa [(h.discoverers_eq_some_iff key _).mpr ⟨old, hold, hkey, rfl⟩,
      (h'.discoverers_eq_some_iff key _).mpr ⟨row, hrow, hkey', rfl⟩] at hbefore
  case assets => exact assets_isPrefix_storeAll db _
  case others => exact storeAll_others db _
  case assetsCreated =>
    dsimp only at hassets
    omega
  case endpointsCreated =>
    dsimp only at hcreated
    omega
  case endpointsMerged =>
    dsimp only at htotal
    omega

/-- **The surface merge is a set union.** Where the database takes every row
(the widths of its columns are not modelled), it comes back when all URLs
parse. If it comes back it is exact; any order of the surfaces leads to the
same rows and personas for every key; and merging the surfaces once more
changes nothing. -/
theorem mergeSurfaces_exact {db : Snapshot} (h : db.Consistent) (surfaces : List SurfaceMap) :
    ((∃ total db', (surfaces.foldlM totalStep {}).Returns db total db') ↔
      ∀ surface ∈ surfaces, ∀ e ∈ surface.endpoints, Parses e.url) ∧
    ∀ total db', (surfaces.foldlM totalStep {}).Returns db total db' →
      ExactMerge db surfaces total db' ∧
      (∀ reordered : List SurfaceMap, reordered.Perm surfaces →
        ∃ total' db'', (reordered.foldlM totalStep {}).Returns db total' db'' ∧
          ∀ key, (HasRow db'' key ↔ HasRow db' key) ∧
            ∀ personaId, DiscoveredBy db'' key personaId ↔ DiscoveredBy db' key personaId) ∧
      ∃ again, (surfaces.foldlM totalStep {}).Returns db' again db' := by
  have hall : (∀ surface ∈ surfaces, ∀ e ∈ surface.endpoints, Parses e.url) ↔
      ∀ e ∈ allEndpoints surfaces, Parses e.url := by
    simp only [allEndpoints, List.mem_flatMap]
    constructor
    · rintro hparse e ⟨surface, hsurface, he⟩
      exact hparse surface hsurface e he
    · exact fun hparse surface hsurface e he => hparse e ⟨surface, hsurface, he⟩
  rw [hall]
  constructor
  · constructor
    · rintro ⟨total, db', hreturns⟩
      exact parses_of_mergeSurfaces hreturns
    · intro hparse
      obtain ⟨total, hreturns, -⟩ := mergeSurfaces_returns hparse h {}
      exact ⟨total, _, hreturns⟩
  · intro total db' hreturns
    have hparse := parses_of_mergeSurfaces hreturns
    obtain ⟨total₁, hreturns₁, hcounted⟩ := mergeSurfaces_returns hparse h {}
    obtain ⟨rfl, rfl⟩ := hreturns.unique hreturns₁
    have hexact := storeAll_exact h hcounted
    refine ⟨hexact, fun reordered hperm => ?_, ?_⟩
    · have hperm' : (allEndpoints reordered).Perm (allEndpoints surfaces) := hperm.flatMap_right _
      have hparse' : ∀ e ∈ allEndpoints reordered, Parses e.url :=
        fun e he => hparse e (hperm'.mem_iff.mp he)
      obtain ⟨total', hreturns', hcounted'⟩ := mergeSurfaces_returns hparse' h {}
      have hexact' := storeAll_exact h hcounted'
      have hsame : ∀ key personaId, Contains reordered key personaId ↔
          Contains surfaces key personaId := fun key personaId => by
        rw [contains_iff_learned, contains_iff_learned, (hperm'.map learned).mem_iff]
      refine ⟨total', _, hreturns', fun key => ⟨?_, fun personaId => ?_⟩⟩
      · simp only [hexact'.rows, hexact.rows, hsame]
      · rw [hexact'.personas, hexact.personas, hsame]
    · have hknown : ∀ e ∈ allEndpoints surfaces, (learned e).2 ∈
          (storeAll db (allEndpoints surfaces)).discoverers.values (learned e).1 := by
        intro e he
        rw [discoverers_storeAll h]
        exact (Postings.mem_values_learnAll _ _ _ _).mpr (Or.inr (List.mem_map_of_mem he))
      obtain ⟨again, hagain, -⟩ := mergeSurfaces_returns hparse hexact.consistent {}
      rw [storeAll_eq_self hexact.consistent hknown] at hagain
      exact ⟨again, hagain⟩

/-- One page of an application, as a persona found it. -/
def orderSurface (personaId : String) : SurfaceMap where
  rootUrl := "https://app.acme.test/".toList
  personaId := personaId.toList
  endpoints := [⟨"GET".toList, "https://app.acme.test/orders/7".toList, "/orders/{id}".toList, .link,
    personaId.toList⟩]

omit [PyRuntime] in
/-- Two personas that found the same endpoint, merged into an empty scan. -/
theorem orderSurfaces_merged :
    let _ := PyRuntime.ascii
    ∃ total db', ([orderSurface "alice", orderSurface "bob"].foldlM totalStep {}).Returns {} total db' ∧
      ExactMerge {} [orderSurface "alice", orderSurface "bob"] total db' := by
  intro runtime
  have hempty : ({} : Snapshot).Consistent :=
    ⟨List.nodup_nil, List.nodup_nil, by simp, by simp⟩
  have hurl : urlsplit "https://app.acme.test/orders/7".toList = .ok
      ⟨"https".toList, "app.acme.test".toList, "/orders/7".toList, [], []⟩ := by decide +kernel
  have horder : ∀ personaId, ∀ e ∈ (orderSurface personaId).endpoints, Parses e.url := by
    intro personaId e he
    obtain rfl := List.mem_singleton.mp he
    exact ⟨_, hurl⟩
  have hparse : ∀ surface ∈ [orderSurface "alice", orderSurface "bob"],
      ∀ e ∈ surface.endpoints, Parses e.url :=
    List.forall_mem_cons.mpr ⟨horder "alice", List.forall_mem_singleton.mpr (horder "bob")⟩
  have hmerge := mergeSurfaces_exact hempty [orderSurface "alice", orderSurface "bob"]
  obtain ⟨total, db', hreturns⟩ := hmerge.1.mpr hparse
  exact ⟨total, db', hreturns, (hmerge.2 total db' hreturns).1⟩

end Sentinel.Worker
