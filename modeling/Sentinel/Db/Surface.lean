/-
Sentinel.Db.Surface — the surface of a scan, as its rows hold it.

An endpoint row is stored under its asset, its method and its path
template; across surfaces it is known by the host of the asset in place of
the asset. `discoverers` reads the rows as an index from these keys to the
personas that found them. `store` is what storing one discovered endpoint
does to the rows, and on the index that is learning of one pair.
-/
import Sentinel.Db.Scan
import Sentinel.Crawler.SurfaceMap
import Sentinel.Index.Postings
import Sentinel.Index.Table

namespace Sentinel.Db

open Sentinel.Py Sentinel.Core Sentinel.Crawler Sentinel.Index

/-- Host, method and path template. -/
abbrev EndpointKey : Type := Str × Str × Str

/-- What identifies an endpoint row. -/
def Endpoint.place (row : Endpoint) : Nat × Str × Str := (row.assetId, row.method, row.pathTemplate)

/-- The row that storing a discovered endpoint creates. -/
def newEndpoint (asset : Nat) (discovered : DiscoveredEndpoint) : Endpoint where
  assetId := asset
  method := discovered.method
  pathTemplate := discovered.pathTemplate
  discoveredByPersonaIds := [discovered.personaId]
  discoverySource :=
    (if discovered.source = .network then "js_extraction" else "rendered_crawl").toList

/-- What storing it does to a row that is there. -/
def Endpoint.addPersona (row : Endpoint) (personaId : Str) : Endpoint :=
  { row with discoveredByPersonaIds := appendNew row.discoveredByPersonaIds personaId }

/-- The asset row that the crawl creates for a host. -/
def newAsset (host : Str) : Asset := { host := host, discoverySource := "crawl".toList }

namespace Snapshot

/-- The key a row is known by, if its asset is there. -/
def keyOf (db : Snapshot) (row : Endpoint) : Option EndpointKey :=
  db.assets[row.assetId]?.map fun asset => (asset.host, row.method, row.pathTemplate)

/-- Assets are unique per host and endpoints per asset, method and template,
every endpoint has its asset, and no persona is listed twice. -/
structure Consistent (db : Snapshot) : Prop where
  hosts : (db.assets.map Asset.host).Nodup
  places : (db.endpoints.map Endpoint.place).Nodup
  owned : ∀ row ∈ db.endpoints, row.assetId < db.assets.length
  personas : ∀ row ∈ db.endpoints, row.discoveredByPersonaIds.Nodup

/-- Where the asset of the host is, or will be. -/
def assetAt (db : Snapshot) (host : Str) : Nat :=
  (place Asset.host db.assets host).getD db.assets.length

/-- The personas that found an endpoint, by its key. -/
def discoverers (db : Snapshot) : Postings EndpointKey Str := fun key =>
  (place Asset.host db.assets key.1).bind fun asset =>
    (lookup Endpoint.place db.endpoints (asset, key.2)).map Endpoint.discoveredByPersonaIds

/-- The rows after a discovered endpoint of the host was stored. -/
def store (db : Snapshot) (host : Str) (discovered : DiscoveredEndpoint) : Snapshot :=
  { db with
    assets := upsert Asset.host db.assets host (newAsset host) id
    endpoints := upsert Endpoint.place db.endpoints
      (db.assetAt host, discovered.method, discovered.pathTemplate)
      (newEndpoint (db.assetAt host) discovered) (Endpoint.addPersona · discovered.personaId) }

/-! ## The rows and the index -/

variable {db : Snapshot}

/-- An asset that is not there has no endpoints. -/
theorem Consistent.discoverers_eq (h : db.Consistent) (key : EndpointKey) :
    db.discoverers key =
      (lookup Endpoint.place db.endpoints (db.assetAt key.1, key.2)).map
        Endpoint.discoveredByPersonaIds := by
  unfold discoverers assetAt
  cases hplace : place Asset.host db.assets key.1 with
  | some asset => rfl
  | none =>
    have hnone : lookup Endpoint.place db.endpoints (db.assets.length, key.2) = none :=
      lookup_eq_none_iff.mpr fun row hrow heq =>
        Nat.ne_of_lt (h.owned row hrow) (congrArg Prod.fst heq)
    rw [Option.bind_none, Option.getD_none, hnone, Option.map_none]

theorem Consistent.keyOf_eq_some_iff (h : db.Consistent) {row : Endpoint} (hrow : row ∈ db.endpoints)
    (key : EndpointKey) : db.keyOf row = some key ↔ row.place = (db.assetAt key.1, key.2) := by
  have howned := h.owned row hrow
  unfold keyOf assetAt
  rw [List.getElem?_eq_getElem howned, Option.map_some, Option.some.injEq]
  constructor
  · rintro rfl
    have hplace : place Asset.host db.assets db.assets[row.assetId].host = some row.assetId :=
      (place_eq_some_iff h.hosts).mpr ⟨_, List.getElem?_eq_getElem howned, rfl⟩
    rw [hplace]
    rfl
  · intro heq
    obtain ⟨hasset, hrest⟩ := Prod.mk.inj heq
    cases hplace : place Asset.host db.assets key.1 with
    | none =>
      rw [hplace, Option.getD_none] at hasset
      exact absurd hasset (Nat.ne_of_lt howned)
    | some asset =>
      rw [hplace, Option.getD_some] at hasset
      obtain ⟨found, hfound, hhost⟩ := (place_eq_some_iff h.hosts).mp hplace
      rw [← hasset, List.getElem?_eq_getElem howned] at hfound
      rw [Option.some.inj hfound, hhost, hrest]

/-- **The index is what the rows say.** -/
theorem Consistent.discoverers_eq_some_iff (h : db.Consistent) (key : EndpointKey) (ids : List Str) :
    db.discoverers key = some ids ↔
      ∃ row ∈ db.endpoints, db.keyOf row = some key ∧ row.discoveredByPersonaIds = ids := by
  rw [h.discoverers_eq, Option.map_eq_some_iff]
  constructor
  · rintro ⟨row, hlookup, hids⟩
    obtain ⟨hrow, hplace⟩ := of_lookup_eq_some hlookup
    exact ⟨row, hrow, (h.keyOf_eq_some_iff hrow key).mpr hplace, hids⟩
  · rintro ⟨row, hrow, hkey, hids⟩
    exact ⟨row, (lookup_eq_some_iff h.places).mpr ⟨hrow, (h.keyOf_eq_some_iff hrow key).mp hkey⟩, hids⟩

/-! ## Storing an endpoint -/

theorem asset_keyed (host : Str) : Keyed Asset.host host (newAsset host) id := ⟨rfl, fun _ => rfl⟩

theorem endpoint_keyed (asset : Nat) (discovered : DiscoveredEndpoint) :
    Keyed Endpoint.place (asset, discovered.method, discovered.pathTemplate)
      (newEndpoint asset discovered) (Endpoint.addPersona · discovered.personaId) :=
  ⟨rfl, fun _ => rfl⟩

theorem store_assets (db : Snapshot) (host : Str) (discovered : DiscoveredEndpoint) :
    (db.store host discovered).assets =
      if place Asset.host db.assets host = none then db.assets ++ [newAsset host] else db.assets := by
  unfold store upsert
  cases place Asset.host db.assets host with
  | none => rfl
  | some i => simp

/-- The host has its asset, at the place it was given. -/
theorem assetAt_lt_store (db : Snapshot) (host : Str) (discovered : DiscoveredEndpoint) :
    db.assetAt host < (db.store host discovered).assets.length := by
  rw [store_assets]
  unfold assetAt
  cases hplace : place Asset.host db.assets host with
  | none => simp
  | some i =>
    unfold place at hplace
    obtain ⟨hi, -⟩ := List.findIdx?_eq_some_iff_getElem.mp hplace
    simpa using hi

theorem assets_length_le_store (db : Snapshot) (host : Str) (discovered : DiscoveredEndpoint) :
    db.assets <+: (db.store host discovered).assets := by
  rw [store_assets]
  split
  · exact List.prefix_append _ _
  · exact List.prefix_rfl

theorem mem_store_endpoints {host : Str} {discovered : DiscoveredEndpoint} {row : Endpoint}
    (hrow : row ∈ (db.store host discovered).endpoints) :
    row = newEndpoint (db.assetAt host) discovered ∨
      ∃ old ∈ db.endpoints, row = old ∨ row = old.addPersona discovered.personaId := by
  unfold store at hrow
  rcases mem_upsert hrow with hold | hnew | ⟨old, hold, hchanged⟩
  · exact Or.inr ⟨row, hold, Or.inl rfl⟩
  · exact Or.inl hnew
  · exact Or.inr ⟨old, hold, Or.inr hchanged⟩

theorem Consistent.store (h : db.Consistent) (host : Str) (discovered : DiscoveredEndpoint) :
    (db.store host discovered).Consistent where
  hosts := upsert_unique (asset_keyed host) h.hosts
  places := upsert_unique (endpoint_keyed _ discovered) h.places
  owned row hrow := by
    have hlength := (assets_length_le_store db host discovered).length_le
    rcases mem_store_endpoints hrow with rfl | ⟨old, hold, rfl | rfl⟩
    · exact assetAt_lt_store db host discovered
    · exact Nat.lt_of_lt_of_le (h.owned row hold) hlength
    · exact Nat.lt_of_lt_of_le (h.owned old hold) hlength
  personas row hrow := by
    rcases mem_store_endpoints hrow with rfl | ⟨old, hold, rfl | rfl⟩
    · exact List.nodup_singleton _
    · exact h.personas row hold
    · exact appendNew_nodup (h.personas old hold) _

/-- Assets of different hosts are at different places. -/
theorem Consistent.place_ne_assetAt (h : db.Consistent) {host host' : Str} (hne : host' ≠ host)
    {asset : Nat} (hplace : place Asset.host db.assets host' = some asset) :
    asset ≠ db.assetAt host := by
  rintro rfl
  obtain ⟨row, hrow, hhost'⟩ := (place_eq_some_iff h.hosts).mp hplace
  unfold assetAt at hrow
  cases hfound : place Asset.host db.assets host with
  | none =>
    rw [hfound, Option.getD_none, List.getElem?_eq_none (Nat.le_refl _)] at hrow
    exact nomatch hrow
  | some i =>
    obtain ⟨row', hrow', hhost⟩ := (place_eq_some_iff h.hosts).mp hfound
    rw [hfound, Option.getD_some, hrow'] at hrow
    exact hne (hhost'.symm.trans ((congrArg Asset.host (Option.some.inj hrow)).symm.trans hhost))

/-- **Storing an endpoint is learning of its key and its persona.** -/
theorem Consistent.discoverers_store (h : db.Consistent) (host : Str)
    (discovered : DiscoveredEndpoint) :
    (db.store host discovered).discoverers = db.discoverers.learn
      ((host, discovered.method, discovered.pathTemplate), discovered.personaId) := by
  funext key
  by_cases hhost : key.1 = host
  · have hnew : (db.store host discovered).discoverers key =
        (lookup Endpoint.place (db.store host discovered).endpoints (db.assetAt host, key.2)).map
          Endpoint.discoveredByPersonaIds := by
      unfold discoverers Snapshot.store
      rw [place_upsert (asset_keyed host), if_pos hhost]
      rfl
    have hold := h.discoverers_eq key
    rw [hhost] at hold
    rw [hnew]
    unfold Snapshot.store
    rw [lookup_upsert (endpoint_keyed (db.assetAt host) discovered)]
    by_cases hrest : key.2 = (discovered.method, discovered.pathTemplate)
    · have hkey : key = (host, discovered.method, discovered.pathTemplate) := Prod.ext hhost hrest
      rw [if_pos (by rw [hrest]), hkey, Postings.learn_self, Postings.values, ← hkey, hold, hrest]
      cases lookup Endpoint.place db.endpoints
          (db.assetAt host, discovered.method, discovered.pathTemplate) with
      | none => rfl
      | some row => rfl
    · have hkey : key ≠ (host, discovered.method, discovered.pathTemplate) :=
        fun heq => hrest (congrArg Prod.snd heq)
      rw [if_neg fun heq => hrest (Prod.mk.inj heq).2, Postings.learn_of_ne _ hkey, hold]
  · have hkey : key ≠ (host, discovered.method, discovered.pathTemplate) :=
      fun heq => hhost (congrArg Prod.fst heq)
    rw [Postings.learn_of_ne _ hkey]
    unfold discoverers Snapshot.store
    rw [place_upsert (asset_keyed host), if_neg hhost]
    cases hplace : place Asset.host db.assets key.1 with
    | none => rfl
    | some asset =>
      have hne := h.place_ne_assetAt hhost hplace
      rw [Option.bind_some, Option.bind_some, lookup_upsert (endpoint_keyed _ discovered),
        if_neg fun heq => hne (Prod.mk.inj heq).1]

/-- Storing what is known already changes nothing. -/
theorem Consistent.store_eq_self (h : db.Consistent) {host : Str} {discovered : DiscoveredEndpoint}
    (hknown : discovered.personaId ∈
      db.discoverers.values (host, discovered.method, discovered.pathTemplate)) :
    db.store host discovered = db := by
  unfold Postings.values at hknown
  rw [h.discoverers_eq] at hknown
  dsimp only at hknown
  cases hrow : lookup Endpoint.place db.endpoints
      (db.assetAt host, discovered.method, discovered.pathTemplate) with
  | none =>
    rw [hrow] at hknown
    exact absurd hknown List.not_mem_nil
  | some row =>
    rw [hrow] at hknown
    have hpersona : discovered.personaId ∈ row.discoveredByPersonaIds := hknown
    have hsame : row.addPersona discovered.personaId = row := by
      rw [Endpoint.addPersona, appendNew, if_pos hpersona]
    obtain ⟨hmem, hplace⟩ := of_lookup_eq_some hrow
    have howned : db.assetAt host < db.assets.length := by
      have hasset : row.assetId = db.assetAt host := (Prod.mk.inj hplace).1
      exact hasset ▸ h.owned row hmem
    have hassets : (db.store host discovered).assets = db.assets := by
      rw [store_assets, if_neg fun hnone => ?_]
      rw [assetAt, hnone, Option.getD_none] at howned
      exact Nat.lt_irrefl _ howned
    have hendpoints : (db.store host discovered).endpoints = db.endpoints :=
      upsert_eq_self hrow hsame
    calc db.store host discovered
        = { db with assets := (db.store host discovered).assets
                    endpoints := (db.store host discovered).endpoints } := rfl
      _ = db := by rw [hassets, hendpoints]

end Snapshot

end Sentinel.Db
