/-
Sentinel.Worker.SharedScanTheorems — a scan is run once if every execution
that commits first finds it QUEUED.

An execution whose commits are the only ones writes the tables as it holds
them in memory (`Session.write_of`), so what its phases do to a session
(`Tidy`) is what they do to the tables.
-/
import Sentinel.Db.Surface
import Sentinel.Worker.ScanRunnerTheorems
import Sentinel.Worker.SharedScan
import Sentinel.Worker.SurfaceMerge

namespace Sentinel.Worker

open Sentinel.Py Sentinel.Core Sentinel.Db Sentinel.Crawler Sentinel.Durable Sentinel.Orm
  Sentinel.Index

/-! ## The tables of one execution -/

variable {execution : Nat} {base db next : Snapshot}

theorem newId_injective (execution : Nat) : Function.Injective (newId execution) :=
  fun _ _ h => (Nat.pair_eq_pair.mp h).2

/-- The ids of the assets of an execution that has created them all. -/
def ownIds (execution : Nat) (db : Snapshot) : List Nat :=
  (List.range' 0 db.assets.length).map (newId execution)

/-- The tables when everything in them is the execution's. -/
def Tables.of (execution : Nat) (db : Snapshot) : Tables where
  scan := { db.scan with phases := [] }
  phases := ownRows (newId execution) 0 db.scan.phases
  assets := ownRows (newId execution) 0 db.assets
  endpoints :=
    ownRows (newId execution) 0 (db.endpoints.map (storedEndpoint (ownIds execution db)))

/-- Its session, when it has committed `base` last. -/
def Session.of (execution : Nat) (base db : Snapshot) : Session where
  snapshot := db
  scan := { base.scan with phases := [] }
  phases := ownTracked (newId execution) 0 base.scan.phases
  assets := ownTracked (newId execution) 0 base.assets
  endpoints :=
    ownTracked (newId execution) 0 (base.endpoints.map (storedEndpoint (ownIds execution base)))

/-- Rows are added and never taken away. -/
structure Grown (base db : Snapshot) : Prop where
  phases : base.scan.phases.length ≤ db.scan.phases.length
  assets : base.assets.length ≤ db.assets.length
  endpoints : base.endpoints.length ≤ db.endpoints.length

theorem Grown.refl (db : Snapshot) : Grown db db := ⟨le_rfl, le_rfl, le_rfl⟩

theorem Grown.trans {a b c : Snapshot} (h : Grown a b) (h' : Grown b c) : Grown a c :=
  ⟨h.phases.trans h'.phases, h.assets.trans h'.assets, h.endpoints.trans h'.endpoints⟩

theorem rowIds_ownIds (h : base.assets.length ≤ db.assets.length) :
    rowIds (newId execution) (ownTracked (newId execution) 0 base.assets) db.assets =
      ownIds execution db := rowIds_own (newId execution) 0 h

theorem updateScan_loaded (loaded changed : Scan) :
    updateScan { loaded with phases := [] } changed { loaded with phases := [] } =
      { changed with phases := [] } := by
  simp [updateScan]

theorem updatePhase_loaded (loaded changed : ScanPhase) :
    updatePhase loaded changed loaded = changed := by
  simp [updatePhase]

theorem updateAsset_loaded (loaded changed : Asset) :
    updateAsset loaded changed loaded = changed := by
  simp [updateAsset]

theorem updateEndpoint_loaded (loaded changed : Endpoint) :
    updateEndpoint loaded changed loaded = changed := by
  simp [updateEndpoint]

/-- **A commit leaves the rows in memory**, when all rows are the execution's. -/
theorem Session.write_of (h : Grown base next) :
    (Session.of execution base db).write execution next (Tables.of execution base) =
      Tables.of execution next := by
  have hid := newId_injective execution
  have hendpoints : (base.endpoints.map (storedEndpoint (ownIds execution base))).length ≤
      (next.endpoints.map (storedEndpoint (ownIds execution next))).length := by
    simpa using h.endpoints
  simp only [Session.write, Session.of, Tables.of, rowIds_ownIds h.assets, updateScan_loaded,
    writeRows_alone updatePhase_loaded hid h.phases,
    writeRows_alone updateAsset_loaded hid h.assets,
    writeRows_alone updateEndpoint_loaded hid hendpoints]

theorem Session.written_of (h : Grown base next) :
    (Session.of execution base db).written execution next = Session.of execution next next := by
  have hendpoints : (base.endpoints.map (storedEndpoint (ownIds execution base))).length ≤
      (next.endpoints.map (storedEndpoint (ownIds execution next))).length := by
    simpa using h.endpoints
  simp only [Session.written, Session.of, rowIds_ownIds h.assets,
    trackWritten_alone _ h.phases, trackWritten_alone _ h.assets, trackWritten_alone _ hendpoints]

theorem Session.loadAssets_of (h : Grown base db) (host : Str) :
    (Session.of execution base db).loadAssets execution host (Tables.of execution base) =
      Session.of execution base db := by
  simp only [Session.loadAssets, Session.of, Tables.of]
  rw [loadRows_alone h.assets fun s hs => (List.mem_filter.mp hs).1]

theorem Session.loadEndpoints_of (h : Grown base db) (asset : Nat)
    (discovered : DiscoveredEndpoint) :
    (Session.of execution base db).loadEndpoints execution asset discovered
      (Tables.of execution base) = Session.of execution base db := by
  have hendpoints : (base.endpoints.map (storedEndpoint (ownIds execution base))).length ≤
      (db.endpoints.map (storedEndpoint (ownIds execution db))).length := by
    simpa using h.endpoints
  simp only [Session.loadEndpoints, Session.of, Tables.of, rowIds_ownIds h.assets]
  rw [loadRows_alone hendpoints fun s hs => (List.mem_filter.mp hs).1]
  have hnone : (db.endpoints.map (storedEndpoint (ownIds execution db))).drop db.endpoints.length =
      [] := List.drop_eq_nil_of_le (by simp)
  simp only [hnone, List.map_nil, List.append_nil]

/-! ## One row for each -/

/-- One phase row for each name, one asset row for each host and one
endpoint row for each asset, method and path template. -/
structure Tables.OneRowEach (t : Tables) : Prop where
  phases : (t.phases.map fun s => s.row.name).Nodup
  assets : (t.assets.map fun s => s.row.host).Nodup
  endpoints : (t.endpoints.map fun s => s.row.place).Nodup

/-- What the commits of an execution alone leave. -/
def Tables.Settled (t : Tables) : Prop := t.OneRowEach ∧ t.scan.state ≠ .queued

/-- The rows in memory are in order. -/
structure Orderly (db : Snapshot) : Prop where
  names : (db.scan.phases.map ScanPhase.name).Nodup
  surface : db.Consistent
  started : db.scan.state ≠ .queued

theorem map_ownRows {ρ τ : Type} (f : ρ → τ) (newId : Nat → Nat) (n : Nat) (rows : List ρ) :
    ((ownRows newId n rows).map fun s => f s.row) = rows.map f := by
  calc ((ownRows newId n rows).map fun s => f s.row)
      = ((ownRows newId n rows).map Stored.row).map f := (List.map_map ..).symm
    _ = rows.map f := by rw [map_row_ownRows]

/-- Storing the id of an asset for its place keeps the endpoints apart. -/
theorem nodup_storedEndpoint (h : db.Consistent) :
    ((db.endpoints.map (storedEndpoint (ownIds execution db))).map Endpoint.place).Nodup := by
  let stored (place : Nat × Str × Str) : Nat × Str × Str :=
    ((ownIds execution db).getD place.1 0, place.2)
  have hplaces : (db.endpoints.map (storedEndpoint (ownIds execution db))).map Endpoint.place =
      (db.endpoints.map Endpoint.place).map stored := by
    rw [List.map_map, List.map_map]
    rfl
  have hids (n : Nat) (hn : n < db.assets.length) :
      (ownIds execution db).getD n 0 = newId execution n := by
    simp [ownIds, List.getD_eq_getElem?_getD, hn]
  rw [hplaces]
  refine h.places.map_on ?_
  intro x hx y hy heq
  obtain ⟨row, hrow, rfl⟩ := List.mem_map.mp hx
  obtain ⟨row', hrow', rfl⟩ := List.mem_map.mp hy
  obtain ⟨hasset, hrest⟩ := Prod.mk.inj heq
  have hsame : newId execution row.assetId = newId execution row'.assetId :=
    (hids _ (h.owned row hrow)).symm.trans (hasset.trans (hids _ (h.owned row' hrow')))
  exact Prod.ext (newId_injective execution hsame) hrest

theorem Orderly.settled (h : Orderly db) (execution : Nat) : (Tables.of execution db).Settled where
  left := {
    phases :=
      Eq.mpr (congrArg List.Nodup (map_ownRows ScanPhase.name _ _ _)) h.names
    assets :=
      Eq.mpr (congrArg List.Nodup (map_ownRows Asset.host _ _ _)) h.surface.hosts
    endpoints :=
      Eq.mpr (congrArg List.Nodup (map_ownRows Endpoint.place _ _ _)) (nodup_storedEndpoint h.surface) }
  right := h.started

/-! ## Programs of a session that is alone -/

/-- `p`, in an execution that has committed `base` and has `db` in memory,
commits settled tables as long as the others commit nothing, and if it
returns, `Q` holds of the result, the last commit and the rows in memory. -/
def Solo {α : Type} (execution : Nat) (p : SessionProgram α) (Q : α → Snapshot → Snapshot → Prop)
    (base db : Snapshot) : Prop :=
  (p (Session.of execution base db)).Alone Tables.Settled
    (fun r t => ∃ base' db', r.2 = Session.of execution base' db' ∧
      t = Tables.of execution base' ∧ Q r.1 base' db') (Tables.of execution base)

section

variable {α β : Type} {p : SessionProgram α} {Q : α → Snapshot → Snapshot → Prop}

theorem Solo.mono {Q' : α → Snapshot → Snapshot → Prop} (h : Solo execution p Q base db)
    (hQ : ∀ a b d, Q a b d → Q' a b d) : Solo execution p Q' base db := by
  refine Task.Alone.mono ?_ h
  rintro r t ⟨b, d, hsession, htables, hq⟩
  exact ⟨b, d, hsession, htables, hQ _ _ _ hq⟩

theorem Solo.pure {a : α} (h : Q a base db) :
    Solo execution (Pure.pure a : SessionProgram α) Q base db := ⟨base, db, rfl, rfl, h⟩

theorem Solo.bind {f : α → SessionProgram β} {Q : β → Snapshot → Snapshot → Prop}
    (h : Solo execution p (fun a b d => Solo execution (f a) Q b d) base db) :
    Solo execution (p >>= f) Q base db := by
  refine (Task.alone_bind _ _ _).mpr (Task.Alone.mono ?_ h)
  rintro ⟨a, s⟩ t ⟨b, d, hsession, rfl, hf⟩
  obtain rfl : s = Session.of execution b d := hsession
  exact hf

theorem Solo.startWork {phase : ScanPhaseName} {Q : Unit → Snapshot → Snapshot → Prop}
    (h : Q () base db) : Solo execution (startWork phase) Q base db := ⟨base, db, rfl, rfl, h⟩

/-- A query that finds nothing new. -/
theorem Solo.select {load : Tables → Session → Session} {Q : Unit → Snapshot → Snapshot → Prop}
    (hload : load (Tables.of execution base) (Session.of execution base db) =
      Session.of execution base db) (h : Q () base db) :
    Solo execution (select load) Q base db := ⟨base, db, hload, rfl, h⟩

/-- A loop keeps what its body keeps. -/
theorem Solo.foldlM {f : β → α → SessionProgram β} {inv : β → Snapshot → Snapshot → Prop}
    (hstep : ∀ b x base db, inv b base db → Solo execution (f b x) inv base db) {b : β}
    (h : inv b base db) (xs : List α) : Solo execution (xs.foldlM f b) inv base db := by
  induction xs generalizing b base db with
  | nil => exact Solo.pure h
  | cons x xs ih =>
    rw [List.foldlM_cons]
    exact Solo.bind ((hstep b x base db h).mono fun _ _ _ h' => ih h')

/-- A commit of the execution: rows are added, and all is in order. -/
def Adds (base next : Snapshot) : Prop := Grown base next ∧ Orderly next

theorem replay_alone {rest : Session → Task Tables ScanPhaseName RunError α}
    {Q : α → Tables → Prop} (events : List (Event Snapshot))
    (hchain : List.IsChain Adds (base :: events.filterMap Event.committed))
    (hrest : ∀ db', (rest (Session.of execution
        ((events.filterMap Event.committed).getLastD base) db')).Alone Tables.Settled Q
      (Tables.of execution ((events.filterMap Event.committed).getLastD base))) :
    (replay execution rest events (Session.of execution base db)).Alone Tables.Settled Q
      (Tables.of execution base) := by
  induction events generalizing base db with
  | nil => exact hrest db
  | cons e events ih =>
    cases e with
    | point => exact ih hchain hrest
    | commit next =>
      obtain ⟨⟨hgrown, horderly⟩, hchain⟩ := List.isChain_cons_cons.mp hchain
      simp only [replay, Task.Alone, Session.write_of hgrown, Session.written_of hgrown]
      refine ⟨horderly.settled execution, ih hchain ?_⟩
      have hlast : (List.filterMap Event.committed (.commit next :: events)).getLastD base =
          (events.filterMap Event.committed).getLastD next := List.getLastD_cons
      rw [hlast] at hrest
      exact hrest

/-- **A block alone** does what its program does. -/
theorem Solo.block {p : ScanProgram α} {E : RunError → Prop} (h : wp Adds p Q E base db) :
    Solo execution (block execution p) Q base db := by
  obtain ⟨hchain, hend⟩ := h
  refine replay_alone _ hchain fun db' => ?_
  have hsession : (Session.of execution base db).snapshot = db := rfl
  rw [hsession]
  cases hresult : (p db).result with
  | error e => trivial
  | ok r =>
    rw [hresult] at hend
    exact ⟨_, _, rfl, rfl, hend⟩

end

end Sentinel.Worker
