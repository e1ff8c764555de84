/-
Sentinel.Worker.ScanOnce — a scan is run once if every execution that
commits first finds it QUEUED.

What the phases do to a session that is alone is said by `Tidy`; only recon
and the merge add to the surface.
-/
import Sentinel.Recon.Containment
import Sentinel.Worker.SharedScanTheorems

namespace Sentinel.Worker

open Sentinel.Py Sentinel.Core Sentinel.Db Sentinel.Crawler Sentinel.Durable Sentinel.Orm
  Sentinel.Index

variable {found base db : Snapshot} {started before after : Prop}

/-! ## Programs that leave the surface alone -/

/-- The rows in memory are more than `base` has, each phase once, on the
surface of `found`. -/
structure Steady (found : Snapshot) (started : Prop) (base db : Snapshot) : Prop where
  grown : Grown base db
  names : (db.scan.phases.map ScanPhase.name).Nodup
  started : started → db.scan.state ≠ .queued
  assets : db.assets = found.assets
  endpoints : db.endpoints = found.endpoints

/-- What `Steady` sees of the rows. -/
def shape (db : Snapshot) : List ScanPhaseName × ScanState × List Asset × List Endpoint :=
  (db.scan.phases.map ScanPhase.name, db.scan.state, db.assets, db.endpoints)

theorem Steady.same (h : Steady found started base db) {db' : Snapshot}
    (hsame : shape db' = shape db) : Steady found started base db' := by
  obtain ⟨hnames, hrest⟩ := Prod.mk.inj hsame
  obtain ⟨hstate, hrest⟩ := Prod.mk.inj hrest
  obtain ⟨hassets, hendpoints⟩ := Prod.mk.inj hrest
  have hlength : db'.scan.phases.length = db.scan.phases.length := by
    simpa using congrArg List.length hnames
  refine ⟨⟨hlength ▸ h.grown.phases, hassets ▸ h.grown.assets, hendpoints ▸ h.grown.endpoints⟩,
    hnames ▸ h.names, fun hs => hstate ▸ h.started hs, hassets.trans h.assets,
    hendpoints.trans h.endpoints⟩

theorem Steady.adds (h : Steady found True base db) (hfound : found.Consistent) :
    Adds base db where
  left := h.grown
  right := {
    names := h.names
    surface := by
      refine ⟨?_, ?_, ?_, ?_⟩
      · rw [h.assets]
        exact hfound.hosts
      · rw [h.endpoints]
        exact hfound.places
      · rw [h.assets, h.endpoints]
        exact hfound.owned
      · rw [h.endpoints]
        exact hfound.personas
    started := h.started trivial }

/-- After a commit. -/
theorem Steady.committed (h : Steady found started base db) : Steady found started db db :=
  ⟨Grown.refl db, h.names, h.started, h.assets, h.endpoints⟩

/-- `p` leaves the surface alone and commits what is in order. -/
def Tidy {α : Type} (found : Snapshot) (before after : Prop) (p : ScanProgram α) : Prop :=
  ∀ base db, Steady found before base db →
    wp Adds p (fun _ base' db' => Steady found after base' db') (fun _ => True) base db

section

variable {α β : Type} {p : ScanProgram α}

theorem Tidy.pure (a : α) : Tidy found started started (Pure.pure a : ScanProgram α) :=
  fun _ _ h => (wp_pure a _).mpr h

theorem Tidy.point : Tidy found started started (Program.point : ScanProgram Unit) :=
  fun _ _ h => (wp_point _).mpr h

theorem Tidy.modify {f : Snapshot → Snapshot} (hf : ∀ db, shape (f db) = shape db) :
    Tidy found started started (Program.modify f : ScanProgram Unit) :=
  fun _ db h => (wp_modify f _).mpr (h.same (hf db))

theorem Tidy.commit (hfound : found.Consistent) :
    Tidy found True True (Program.commit : ScanProgram Unit) :=
  fun _ _ h => (wp_commit _).mpr ⟨h.adds hfound, h.committed⟩

/-- One program, and what follows from where it leaves things. -/
theorem Tidy.seq (hp : Tidy found before after p) (h : Steady found before base db)
    {f : α → ScanProgram β} {Q : β → Snapshot → Snapshot → Prop}
    (hf : ∀ a base db, Steady found after base db → wp Adds (f a) Q (fun _ => True) base db) :
    wp Adds (p >>= f) Q (fun _ => True) base db :=
  wp_seq (wp_mono (hp base db h) hf fun _ he => he)

theorem Tidy.bind {last : Prop} (hp : Tidy found before after p) {f : α → ScanProgram β}
    (hf : ∀ a, Tidy found after last (f a)) : Tidy found before last (p >>= f) :=
  fun _ _ h => hp.seq h hf

theorem Tidy.foldlM {f : β → α → ScanProgram β} (h : ∀ b a, Tidy found started started (f b a))
    (b : β) (xs : List α) : Tidy found started started (xs.foldlM f b) := by
  induction xs generalizing b with
  | nil => exact Tidy.pure b
  | cons x xs ih =>
    rw [List.foldlM_cons]
    exact (h b x).bind ih

end

/-! ## The rows of the phases -/

theorem shape_modifyPhase {f : ScanPhase → ScanPhase} (hf : ∀ row, (f row).name = row.name)
    (phase : Nat) (db : Snapshot) : shape (db.modifyPhase phase f) = shape db := by
  have hnames : (db.scan.phases.modify phase f).map ScanPhase.name =
      db.scan.phases.map ScanPhase.name := by
    refine List.ext_getElem? fun i => ?_
    simp only [List.getElem?_map, List.getElem?_modify]
    split
    · cases db.scan.phases[i]? with
      | none => rfl
      | some row => exact congrArg some (hf row)
    · cases db.scan.phases[i]? <;> rfl
  exact congrArg (·, db.scan.state, db.assets, db.endpoints) hnames

theorem tidy_startPhase (phase : Nat) (now : Instant) :
    Tidy found started started (startPhase phase now) := by
  refine Tidy.bind (Tidy.modify fun db => ?_) fun _ => Tidy.point
  refine shape_modifyPhase (fun row => ?_) phase db
  rfl

theorem tidy_finishPhase (phase : Nat) (now : Instant) (status : PhaseStatus)
    (stats : PhaseStats) (error : Option Str) :
    Tidy found started started (finishPhase phase now status stats error) := by
  refine Tidy.bind (Tidy.modify fun db => ?_) fun _ => Tidy.point
  refine shape_modifyPhase (fun row => ?_) phase db
  rfl

/-- A row is created for a phase that has none. -/
theorem tidy_getOrCreatePhase (name : ScanPhaseName) :
    Tidy found started started (getOrCreatePhase name) := by
  intro base db h
  refine wp_seq ((wp_get _).mpr ?_)
  cases hfind : db.scan.phases.findIdx? (·.name = name) with
  | some phase => exact (wp_pure _ _).mpr h
  | none =>
    refine wp_seq ((wp_modify _ _).mpr (wp_seq ((wp_point _).mpr ((wp_pure _ _).mpr ?_))))
    have hnew : name ∉ db.scan.phases.map ScanPhase.name := by
      rw [List.findIdx?_eq_none_iff] at hfind
      intro hmem
      obtain ⟨row, hrow, hname⟩ := List.mem_map.mp hmem
      simpa [hname] using hfind row hrow
    refine ⟨⟨?_, h.grown.assets, h.grown.endpoints⟩, ?_, h.started, h.assets, h.endpoints⟩
    · exact h.grown.phases.trans (by simp [Snapshot.modifyScan])
    · have hnames : (db.scan.phases ++ [({ name := name } : ScanPhase)]).map ScanPhase.name =
          db.scan.phases.map ScanPhase.name ++ [name] := List.map_append
      show ((db.scan.phases ++ [({ name := name } : ScanPhase)]).map ScanPhase.name).Nodup
      rw [hnames, ← List.concat_eq_append]
      exact h.names.concat hnew

/-- Entering a state leaves the queue. -/
theorem tidy_enter (machine : ScanStateMachine) {target : ScanState} (htarget : target ≠ .queued) :
    Tidy found started True (enter machine target) := by
  intro base db h
  refine wp_seq ((wp_ofExcept _ _).mpr ?_)
  cases htransition : machine.transition target with
  | error e => trivial
  | ok m =>
    have hcurrent : m.current = target := by
      unfold ScanStateMachine.transition at htransition
      split at htransition
      · obtain rfl := Except.ok.inj htransition
        rfl
      · cases htransition
    refine wp_seq ((wp_modify _ _).mpr ((wp_pure _ _).mpr ?_))
    refine ⟨⟨h.grown.phases, h.grown.assets, h.grown.endpoints⟩, h.names, fun _ => ?_, h.assets,
      h.endpoints⟩
    exact hcurrent ▸ htarget

/-! ## The phases -/

theorem shape_modifyPersona (id : Str) (f : Persona → Persona) (db : Snapshot) :
    shape (db.modifyPersona id f) = shape db := rfl

theorem shape_degrade (reasons : List Str) (db : Snapshot) :
    shape (db.degrade reasons) = shape db := rfl

theorem shape_finishScan (now : Instant) (db : Snapshot) :
    shape (db.finishScan now) = shape db := rfl

theorem tidy_withBrowser {α : Type} {work : ScanProgram α} (h : Tidy found started started work) :
    Tidy found started started (withBrowser work) := by
  refine Tidy.point.bind fun _ => Tidy.point.bind fun _ => h.bind fun _ => ?_
  exact Tidy.point.bind fun _ => Tidy.point.bind fun _ => Tidy.point.bind fun _ => Tidy.pure _

theorem tidy_establishStep (env : Environment) (acc : Nat × Dict) (persona : Persona) :
    Tidy found started started (establishStep env acc persona) := by
  refine Tidy.point.bind fun _ => (Tidy.modify (shape_modifyPersona _ _)).bind fun _ => ?_
  split
  · exact Tidy.pure _
  · refine (Tidy.modify (shape_modifyPersona _ _)).bind fun _ => ?_
    refine (Tidy.modify fun db => ?_).bind fun _ => Tidy.pure _
    split <;> rfl

theorem tidy_runAuthEstablishing (env : Environment) :
    Tidy found started started (runAuthEstablishing env) := by
  unfold runAuthEstablishing
  split
  · exact Tidy.pure _
  · refine Tidy.point.bind fun _ => (Tidy.foldlM (tidy_establishStep env) _ _).bind fun _ => ?_
    exact Tidy.point.bind fun _ => Tidy.pure _

theorem tidy_runCrawling (env : Environment) (sessions : Dict) :
    Tidy found started started (runCrawling env sessions) := by
  refine Tidy.point.bind fun _ => Tidy.foldlM (fun surfaces persona => ?_) _ _
  unfold crawlStep
  split
  · exact Tidy.pure _
  · exact Tidy.point.bind fun _ => Tidy.pure _

theorem tidy_sharedSetup (env : Environment) : Tidy found started started (sharedSetup env) :=
  Tidy.point.bind fun _ => Tidy.point.bind fun _ => Tidy.point.bind fun _ =>
    Tidy.modify fun _ => rfl

theorem tidy_logIn (hfound : found.Consistent) (env : Environment) (machine : ScanStateMachine)
    (phase : Nat) : Tidy found True True (logIn env machine phase) := by
  refine (tidy_withBrowser (tidy_runAuthEstablishing env)).bind fun r => ?_
  dsimp only
  split
  · refine (tidy_enter machine (by decide)).bind fun _ => ?_
    refine (tidy_finishPhase _ _ _ _ _).bind fun _ => ?_
    refine (Tidy.modify (shape_finishScan _)).bind fun _ => ?_
    exact (Tidy.commit hfound).bind fun _ => Tidy.pure _
  · exact (tidy_finishPhase _ _ _ _ _).bind fun _ => Tidy.pure _

theorem tidy_authBranches (hfound : found.Consistent) (env : Environment)
    (machine : ScanStateMachine) (phase : Nat) :
    Tidy found True True (authBranches env machine phase) := by
  unfold authBranches
  split
  · refine (Tidy.modify (shape_degrade _)).bind fun _ => ?_
    exact (tidy_finishPhase _ _ _ _ _).bind fun _ => Tidy.pure _
  · split
    · refine (Tidy.modify (shape_degrade _)).bind fun _ => ?_
      exact (tidy_finishPhase _ _ _ _ _).bind fun _ => Tidy.pure _
    · exact tidy_logIn hfound env machine phase

theorem tidy_authEstablishing (hfound : found.Consistent) (env : Environment)
    (machine : ScanStateMachine) : Tidy found True True (authEstablishing env machine) := by
  refine (tidy_sharedSetup env).bind fun _ => (tidy_getOrCreatePhase _).bind fun phase => ?_
  refine (tidy_enter machine (by decide)).bind fun machine => (tidy_startPhase _ _).bind fun _ => ?_
  refine (Tidy.commit hfound).bind fun _ => (tidy_authBranches hfound env machine phase).bind ?_
  intro r
  cases r with
  | none => exact Tidy.pure _
  | some sessions =>
    refine (tidy_enter machine (by decide)).bind fun _ => ?_
    exact (Tidy.commit hfound).bind fun _ => Tidy.pure _

theorem tidy_crawling (hfound : found.Consistent) (env : Environment) (machine : ScanStateMachine)
    (sessions : Dict) : Tidy found True True (crawling env machine sessions) := by
  refine (tidy_getOrCreatePhase _).bind fun phase => (tidy_startPhase _ _).bind fun _ => ?_
  refine (Tidy.commit hfound).bind fun _ => ?_
  refine (tidy_withBrowser (tidy_runCrawling env sessions)).bind fun surfaces => ?_
  refine (tidy_finishPhase _ _ _ _ _).bind fun _ => (tidy_enter machine (by decide)).bind fun _ => ?_
  exact (Tidy.commit hfound).bind fun _ => Tidy.pure _

theorem tidy_surfaceMappingStart (hfound : found.Consistent) (env : Environment) :
    Tidy found True True (Shared.surfaceMappingStart env) := by
  refine (tidy_getOrCreatePhase _).bind fun phase => (tidy_startPhase _ _).bind fun _ => ?_
  exact (Tidy.commit hfound).bind fun _ => Tidy.pure _

theorem tidy_surfaceMappingEnd (hfound : found.Consistent) (env : Environment)
    (machine : ScanStateMachine) (phase : Nat) (total : MergeStats) :
    Tidy found True True (Shared.surfaceMappingEnd env machine phase total) := by
  refine (tidy_finishPhase _ _ _ _ _).bind fun _ => (tidy_enter machine (by decide)).bind fun _ => ?_
  refine Tidy.bind (Tidy.modify fun _ => ?_) fun _ => ?_
  · rfl
  · exact (Tidy.modify (shape_degrade _)).bind fun _ => Tidy.commit hfound

/-- SCOPE_VERIFYING leaves the queue before it commits. -/
theorem tidy_scopeVerifying (hfound : found.Consistent) (env : Environment) (target : Target)
    (machine : ScanStateMachine) :
    Tidy found False True (scopeVerifying env target machine) := by
  refine (tidy_getOrCreatePhase _).bind fun phase => (tidy_enter machine (by decide)).bind ?_
  refine fun machine => (tidy_startPhase _ _).bind fun _ => ?_
  split
  · refine (tidy_enter machine (by decide)).bind fun _ => (tidy_finishPhase _ _ _ _ _).bind ?_
    refine fun _ => (Tidy.modify (shape_finishScan _)).bind fun _ => ?_
    exact (Tidy.commit hfound).bind fun _ => Tidy.pure _
  · refine (tidy_finishPhase _ _ _ _ _).bind fun _ => ?_
    exact (Tidy.commit hfound).bind fun _ => Tidy.pure _

/-- The surface that recon leaves. -/
def reconSurface (env : Environment) : Snapshot :=
  { assets := env.recon.assets.map fun a => ⟨a.host, a.ips, a.httpProbes, a.source⟩ }

theorem consistent_empty : ({} : Snapshot).Consistent :=
  ⟨List.nodup_nil, List.nodup_nil, by simp, by simp⟩

theorem consistent_reconSurface {env : Environment}
    (h : (env.recon.assets.map DiscoveredAsset.host).Nodup) : (reconSurface env).Consistent := by
  refine ⟨?_, List.nodup_nil, by simp [reconSurface], by simp [reconSurface]⟩
  show ((env.recon.assets.map _).map Asset.host).Nodup
  rw [List.map_map]
  exact h

/-- RECON adds its assets to a scan that has none. -/
theorem recon_adds {env : Environment} (hhosts : (env.recon.assets.map DiscoveredAsset.host).Nodup)
    (machine : ScanStateMachine) (h : Steady {} True base db) :
    wp Adds (recon env machine) (fun _ b d => Steady (reconSurface env) True b d) (fun _ => True)
      base db := by
  refine (tidy_getOrCreatePhase _).seq h fun phase base db h => ?_
  refine (tidy_enter machine (by decide)).seq h fun machine base db h => ?_
  refine (tidy_startPhase _ _).seq h fun _ base db h => ?_
  refine (Tidy.commit consistent_empty).seq h fun _ base db h => Tidy.point.seq h ?_
  intro _ base db h
  have hassets : base.assets.length ≤ (reconSurface env).assets.length := by
    have hnone := h.grown.assets
    rw [h.assets] at hnone
    exact hnone.trans (Nat.zero_le _)
  have hadded : Steady (reconSurface env) True base (db.addAssets (reconSurface env).assets) := by
    refine ⟨⟨h.grown.phases, ?_, h.grown.endpoints⟩, h.names, h.started, ?_, h.endpoints⟩
    · exact hassets.trans (by simp [Snapshot.addAssets])
    · show db.assets ++ _ = _
      rw [h.assets]
      rfl
  refine wp_seq ((wp_modify _ _).mpr ?_)
  refine (tidy_finishPhase _ _ _ _ _).seq hadded fun _ base db h => ?_
  have hdegrade : Tidy (reconSurface env) True True (Program.modify fun db : Snapshot =>
      if env.recon.degraded then db.degrade env.recon.notes else db) := by
    refine Tidy.modify fun db => ?_
    split <;> rfl
  refine hdegrade.seq h fun _ base db h => ?_
  exact (Tidy.commit (consistent_reconSurface hhosts)).seq h fun _ _ _ h => (wp_pure _ _).mpr h

/-! ## The merge -/

/-- Where the surface is in order, tidy programs leave everything in order. -/
theorem adds_of_tidy {α : Type} {p : ScanProgram α}
    (hp : ∀ found : Snapshot, found.Consistent → Tidy found True True p) (h : Adds base db) :
    wp Adds p (fun _ b d => Adds b d) (fun _ => True) base db := by
  obtain ⟨hgrown, hnames, hsurface, hstarted⟩ := h
  refine wp_mono (hp db hsurface base db ⟨hgrown, hnames, fun _ => hstarted, rfl, rfl⟩) ?_ ?_
  · exact fun _ _ _ hsteady => hsteady.adds hsurface
  · exact fun _ he => he

theorem Adds.withAsset (h : Adds base db) (host : Str) : Adds base (withAsset db host) where
  left := by
    refine ⟨h.1.phases, h.1.assets.trans ?_, h.1.endpoints⟩
    simp only [Worker.withAsset, length_upsert]
    omega
  right := by
    have hlength : db.assets.length ≤ (Worker.withAsset db host).assets.length := by
      simp only [Worker.withAsset, length_upsert]
      omega
    refine ⟨h.2.names, ⟨?_, h.2.surface.places, ?_, h.2.surface.personas⟩, h.2.started⟩
    · exact upsert_unique (Snapshot.asset_keyed host) h.2.surface.hosts
    · exact fun row hrow => Nat.lt_of_lt_of_le (h.2.surface.owned row hrow) hlength

theorem Adds.store (h : Adds base db) (host : Str) (endpoint : DiscoveredEndpoint) :
    Adds base (db.store host endpoint) where
  left := by
    refine ⟨h.1.phases, h.1.assets.trans ?_, h.1.endpoints.trans ?_⟩
    · exact (Snapshot.assets_length_le_store db host endpoint).length_le
    · simp only [Snapshot.store, length_upsert]
      omega
  right := ⟨h.2.names, h.2.surface.store host endpoint, h.2.started⟩

section

variable [PyRuntime] {execution : Nat}

/-- One endpoint: what the queries find is known, so it is stored as by a
session of its own. -/
theorem solo_mergeStep (st : MergeState) (endpoint : DiscoveredEndpoint) (base db : Snapshot)
    (h : CacheValid st.assetCache db ∧ Adds base db) :
    Solo execution (Shared.mergeStep execution st endpoint)
      (fun st base db => CacheValid st.assetCache db ∧ Adds base db) base db := by
  obtain ⟨hcache, hadds⟩ := h
  refine Solo.bind (Solo.block (E := fun _ => True) ?_)
  refine (wp_ofExcept _ _).mpr ?_
  cases (urlsplit endpoint.url).mapError RunError.python with
  | error e => trivial
  | ok parts =>
    let host := parts.hostname.getD []
    have hselect : Solo execution (Shared.selectAsset execution st.assetCache host)
        (fun _ b d => base = b ∧ db = d) base db := by
      unfold Shared.selectAsset
      split
      · exact Solo.select (Session.loadAssets_of hadds.1 _) ⟨rfl, rfl⟩
      · exact Solo.pure ⟨rfl, rfl⟩
    refine Solo.bind (hselect.mono ?_)
    rintro _ b d ⟨rfl, rfl⟩
    have hasset := cachedAsset_returns hadds.2.surface hcache host
    refine Solo.bind (Solo.block (hasset.wp (cachedAsset_keeps _ _) ?_))
    refine Solo.bind (Solo.select (Session.loadEndpoints_of (hadds.withAsset host).1 _ _) ?_)
    have hendpoint := mergeEndpoint_returns (hadds.withAsset host).2.surface.places
      (db.assetAt host) endpoint
    refine Solo.bind (Solo.block (hendpoint.wp (mergeEndpoint_keeps _ _) ?_))
    exact Solo.pure ⟨hcache.cached host endpoint, hadds.store host endpoint⟩

theorem solo_totalStep (total : MergeStats) (surface : SurfaceMap) (base db : Snapshot)
    (h : Adds base db) :
    Solo execution (Shared.totalStep execution total surface) (fun _ base db => Adds base db)
      base db := by
  have hloop : Solo execution (surface.endpoints.foldlM (Shared.mergeStep execution) {})
      (fun st base db => CacheValid st.assetCache db ∧ Adds base db) base db :=
    Solo.foldlM solo_mergeStep ⟨fun _ _ hnone => (by cases hnone), h⟩ _
  refine Solo.bind (Solo.bind (hloop.mono ?_))
  rintro st b d ⟨-, hadds⟩
  exact Solo.pure (Solo.pure hadds)

theorem solo_surfaceMapping (env : Environment) (machine : ScanStateMachine)
    (surfaces : List SurfaceMap) (h : Adds base db) :
    Solo execution (Shared.surfaceMapping execution env machine surfaces) (fun _ _ _ => True)
      base db := by
  have hstart := adds_of_tidy (fun _ hfound => tidy_surfaceMappingStart hfound env) h
  refine Solo.bind ((Solo.block hstart).mono ?_)
  intro phase b d h
  refine Solo.bind ((Solo.foldlM solo_totalStep h _).mono ?_)
  intro total b d h
  have hend := adds_of_tidy (fun _ hfound => tidy_surfaceMappingEnd hfound env machine phase total) h
  exact (Solo.block hend).mono fun _ _ _ _ => trivial

/-! ## An execution alone -/

theorem solo_runPhases {env : Environment}
    (hhosts : (env.recon.assets.map DiscoveredAsset.host).Nodup) (target : Target)
    (machine : ScanStateMachine) (h : Steady {} False base db) :
    Solo execution (Shared.runPhases execution env target machine) (fun _ _ _ => True)
      base db := by
  have hscope := tidy_scopeVerifying consistent_empty env target machine base db h
  refine Solo.bind ((Solo.block hscope).mono fun r base db h => ?_)
  cases r with
  | none => exact Solo.pure trivial
  | some machine =>
    refine Solo.bind (Solo.startWork (Solo.bind ?_))
    refine (Solo.block (recon_adds hhosts machine h)).mono fun machine base db h => ?_
    have hsurface := consistent_reconSurface hhosts
    have hauth := tidy_authEstablishing hsurface env machine base db h
    refine Solo.bind (Solo.startWork (Solo.bind ((Solo.block hauth).mono fun r base db h => ?_)))
    cases r with
    | none => exact Solo.pure trivial
    | some next =>
      have hcrawl := tidy_crawling hsurface env next.1 next.2 base db h
      refine Solo.bind (Solo.startWork (Solo.bind ((Solo.block hcrawl).mono ?_)))
      intro r base db h
      exact solo_surfaceMapping env r.1 r.2 (h.adds hsurface)

/-- From the tables of a scan that has no rows yet, every commit of an
execution alone leaves them settled. -/
theorem alone_runScan {env : Environment}
    (hhosts : (env.recon.assets.map DiscoveredAsset.host).Nodup) {scan : Scan}
    (hphases : scan.phases = []) :
    ((Shared.runScan execution env).run {}).Alone Tables.Settled (fun _ _ => True)
      { scan := scan } := by
  have hscan : ({ scan with phases := [] } : Scan) = scan := by rw [← hphases]
  have htables : ({ scan := scan } : Tables) = Tables.of execution { scan := scan } := by
    simp only [Tables.of, hscan, hphases]
    rfl
  have hsession : Session.loadPhases execution { scan := scan }
      (Session.loadScan { scan := scan } {}) =
        Session.of execution { scan := scan } { scan := scan } := by
    simp only [Session.loadPhases, Session.loadScan, Session.of, hscan, hphases]
    simp only [loadRows, List.filter_nil, List.foldl_nil, Snapshot.modifyScan, hscan]
    rfl
  have hsteady : Steady {} False { scan := scan } { scan := scan } :=
    ⟨Grown.refl _, by simp [hphases], fun hfalse => hfalse.elim, rfl, rfl⟩
  unfold Shared.runScan
  split
  · trivial
  · cases htarget : env.target with
    | none => trivial
    | some target =>
      show Task.Alone _ _ (Shared.runPhases execution env target _
        (Session.loadPhases execution { scan := scan } (Session.loadScan { scan := scan } {}))) _
      rw [hsession, htables]
      exact Task.Alone.mono (fun _ _ _ => trivial) (solo_runPhases hhosts target _ hsteady)

/-! ## Before the first commit -/

/-- How an execution ends that commits nothing: the scan or its target is
gone, or the first transition is refused. -/
def StopsAtFirstTransition (env : Environment) : Except RunError (Unit × Session) → Prop
  | .ok _ => env.scanFound = false ∨ env.target = none
  | .error e => ∃ state, e = .machine (.invalidTransition state .scopeVerifying)

omit [PyRuntime] in
theorem replay_holdsBack {α : Type} {R : Except RunError α → Prop}
    {rest : Session → Task Tables ScanPhaseName RunError α} (events : List (Event Snapshot))
    (s : Session) (h : events.filterMap Event.committed = [] → ∀ s, (rest s).HoldsBack R) :
    (replay execution rest events s).HoldsBack R := by
  induction events generalizing s with
  | nil => exact h rfl s
  | cons e events ih =>
    cases e with
    | point => exact ih s h
    | commit next => trivial

omit [PyRuntime] in
/-- SCOPE_VERIFYING out of QUEUED does not end without a commit. -/
theorem scopeVerifying_commits (env : Environment) (target : Target) {machine : ScanStateMachine}
    (hqueued : machine.current = .queued) {disk session : Snapshot} :
    wp (fun _ _ => True) (scopeVerifying env target machine)
      (fun _ d _ => d.scan.state ≠ .queued) (fun _ => False) disk session := by
  have henter (m : ScanStateMachine) (x target : ScanState) (hm : m.current = x)
      (hlinear : target ∈ linearTransitions x) :=
    ScanStateMachine.transition_ok none (canTransition_of_linear hlinear hm)
  have hblock (m : ScanStateMachine) (hm : m.current = .scopeVerifying) :=
    henter m .scopeVerifying .blockedUnverified hm (by decide)
  refine wp_seq ((quiet_getOrCreatePhase _).wp fun phase s _ => ?_)
  simp only [enter, startPhase, finishPhase, henter machine .queued .scopeVerifying hqueued
    (by decide), Except.mapError, wp_bind, wp_ofExcept, wp_modify, wp_point, wp_pure]
  split
  · simp only [hblock, wp_bind, wp_ofExcept, wp_modify, wp_point, wp_pure, wp_commit]
    exact ⟨trivial, by simp [Snapshot.modifyScan, Snapshot.modifyPhase, Snapshot.finishScan]⟩
  · simp only [wp_bind, wp_modify, wp_point, wp_pure, wp_commit]
    exact ⟨trivial, by simp [Snapshot.modifyScan, Snapshot.modifyPhase]⟩

omit [PyRuntime] in
/-- Out of any other state it is refused. -/
theorem scopeVerifying_refused (env : Environment) (target : Target) {machine : ScanStateMachine}
    (hstate : machine.current ≠ .queued) {disk session : Snapshot} :
    wp (fun _ _ => False) (scopeVerifying env target machine) (fun _ _ _ => False)
      (fun e => e = .machine (.invalidTransition machine.current .scopeVerifying))
      disk session := by
  have hrefused : machine.canTransition .scopeVerifying = false := by
    rw [Bool.eq_false_iff, Ne, ScanStateMachine.canTransition_scopeVerifying]
    exact hstate
  refine wp_seq ((quiet_getOrCreatePhase _).wp fun phase s _ => wp_seq (wp_seq ?_))
  rw [ScanStateMachine.transition_error none hrefused]
  exact (wp_raise _ _).mpr rfl

omit [PyRuntime] in
/-- SCOPE_VERIFYING commits first of all, or is refused. -/
theorem block_scopeVerifying_holdsBack (env : Environment) (target : Target)
    (machine : ScanStateMachine) (s : Session) :
    (block execution (scopeVerifying env target machine) s).HoldsBack fun
      | .ok _ => False
      | .error e => ∃ state, e = .machine (.invalidTransition state .scopeVerifying) := by
  refine replay_holdsBack _ s fun hnone s' => ?_
  by_cases hqueued : machine.current = .queued
  · -- it would have committed
    have hcommits : wp (fun _ _ => True) (scopeVerifying env target machine)
        (fun _ d _ => d.scan.state ≠ .queued) (fun _ => False) {} s.snapshot :=
      scopeVerifying_commits env target hqueued
    obtain ⟨-, hend⟩ := hcommits
    exfalso
    cases hresult : (scopeVerifying env target machine s.snapshot).result with
    | error e => rw [hresult] at hend; exact hend
    | ok r =>
      rw [hresult] at hend
      have hcommitted : (scopeVerifying env target machine s.snapshot).committed = [] := hnone
      rw [hcommitted] at hend
      exact hend rfl
  · have hrefused : wp (fun _ _ => False) (scopeVerifying env target machine) (fun _ _ _ => False)
        (fun e => e = .machine (.invalidTransition machine.current .scopeVerifying)) {}
        s.snapshot := scopeVerifying_refused env target hqueued
    obtain ⟨-, hend⟩ := hrefused
    cases hresult : (scopeVerifying env target machine s.snapshot).result with
    | ok r => rw [hresult] at hend; exact hend.elim
    | error e =>
      rw [hresult] at hend
      exact ⟨_, hend⟩

theorem runScan_holdsBack (env : Environment) :
    ((Shared.runScan execution env).run {}).HoldsBack (StopsAtFirstTransition env) := by
  unfold Shared.runScan
  split
  · next hfound => exact Or.inl (by simpa using hfound)
  · intro scanRead phasesRead
    cases htarget : env.target with
    | none => exact Or.inr htarget
    | some target =>
      show Task.HoldsBack _ (Shared.runPhases execution env target _
        (Session.loadPhases execution phasesRead (Session.loadScan scanRead {})))
      refine Task.HoldsBack.bind (block_scopeVerifying_holdsBack env target _ _) ?_ ?_
      · exact fun _ hfalse => hfalse.elim
      · exact fun _ herror => herror

/-! ## Executions of one scan -/

/-- The hosts are those `run_recon` has returned. -/
def FoundByRecon [JsonReader] (env : Environment) : Prop :=
  ∃ outside rootDomain result, (Recon.runRecon outside rootDomain).2 = .ok result ∧
    env.recon.assets.map DiscoveredAsset.host = result.assets.map Recon.DiscoveredAsset.host

omit [PyRuntime] in
/-- The scan was run once: no row is there twice, and all executions but one
have begun no work and committed nothing, and have stopped, if they have, at
their first transition. -/
structure RunOnce (envs : Nat → Environment)
    (p : Pool Tables ScanPhaseName RunError (Unit × Session)) : Prop where
  rows : p.store.OneRowEach
  others : ∃ leader, ∀ i, i ≠ leader → (∀ phase, (i, phase) ∉ p.begun) ∧ p.committed i = false ∧
    ∀ t result, p.tasks i = some t → t.ended = some result →
      StopsAtFirstTransition (envs i) result

/-- A first commit finds the scan QUEUED. -/
abbrev FirstCommitsFindQueued :
    Pool Tables ScanPhaseName RunError (Unit × Session) → PoolAction → Prop :=
  Pool.FirstCommits fun t => t.scan.state = .queued

/-- **A scan is run once**, by any number of executions, however their acts
interleave and wherever they are ended, if every first commit finds it
QUEUED. -/
theorem scan_run_once [JsonReader] {envs : Nat → Environment}
    (hrecon : ∀ i, FoundByRecon (envs i)) {scan : Scan} (hphases : scan.phases = [])
    {actions : List PoolAction}
    (h : Trace.Along Pool.step FirstCommitsFindQueued (Shared.executions envs scan) actions) :
    RunOnce envs (Trace.run Pool.step (Shared.executions envs scan) actions) := by
  have hhosts (i : Nat) : ((envs i).recon.assets.map DiscoveredAsset.host).Nodup := by
    obtain ⟨outside, rootDomain, result, hresult, hsame⟩ := hrecon i
    rw [hsame]
    exact Recon.runRecon_hosts_nodup hresult
  have hstart : (Shared.executions envs scan).OneCommits Tables.Settled Tables.OneRowEach
      fun i => StopsAtFirstTransition (envs i) :=
    Pool.oneCommits_start ⟨List.nodup_nil, List.nodup_nil, List.nodup_nil⟩
      (fun i => runScan_holdsBack (envs i)) fun i => alone_runScan (hhosts i) hphases
  have hwaiting {p : Pool Tables ScanPhaseName RunError (Unit × Session)} {i : Nat}
      (hi : p.Waiting (fun i => StopsAtFirstTransition (envs i)) i) :
      (∀ phase, (i, phase) ∉ p.begun) ∧ p.committed i = false ∧
        ∀ t result, p.tasks i = some t → t.ended = some result →
          StopsAtFirstTransition (envs i) result := by
    obtain ⟨hnot, hidle, hback⟩ := hi
    exact ⟨hidle, hnot, fun t result ht hended => (hback t ht).of_ended hended⟩
  have hend := Pool.run_oneCommits (fun t ht => ht.2) hstart h
  cases hend with
  | none hstore hall => exact ⟨hstore, 0, fun i _ => hwaiting (hall i)⟩
  | one leader hstore _ hothers => exact ⟨hstore.1, leader, fun i hi => hwaiting (hothers i hi)⟩

end

/-- A network in which no name resolves. -/
def silentNet : Recon.Network where
  resolve _ := []
  answers _ _ := .response { statusCode := 200 }
  redirectTarget _ location := location
  invalidUrl _ := none
  urlText url := url

/-- Two deliveries of a scan: the second is taken when the first has
committed, and the worker of the first dies in RECON. -/
theorem redelivered_scan_run_once :
    let _ := PyRuntime.ascii
    RunOnce (fun _ => bareTarget) (Trace.run Pool.step (Shared.executions (fun _ => bareTarget) {})
      (([0, 0, 0, 1, 0, 1, 0, 0, 0, 0].map PoolAction.act) ++ [.crash 0])) := by
  let runtime := PyRuntime.ascii
  let reader := Recon.evilReader
  let outside : Recon.Environment := ⟨Recon.bareMachine, silentNet, "00".toList⟩
  have hnothing : (Recon.runRecon outside "acme.test".toList).2.toOption.map
      (fun result => result.assets.map Recon.DiscoveredAsset.host) = some [] := by decide +kernel
  have hrecon : FoundByRecon bareTarget := by
    cases hresult : (Recon.runRecon outside "acme.test".toList).2 with
    | error e => rw [hresult] at hnothing; cases hnothing
    | ok result =>
      rw [hresult] at hnothing
      exact ⟨outside, _, result, hresult, (Option.some.inj hnothing).symm⟩
  exact scan_run_once (fun _ => hrecon) rfl (by decide +kernel)

/-- A target on which recon finds the root domain. -/
def rootOnlyTarget : Environment :=
  { bareTarget with
    recon := {
      assets := [{ host := "acme.test".toList, source := "root_domain".toList }]
      toolAvailability := []
      wildcardDnsSuspected := false } }

/-- Two executions read the scan before either commits; then the first runs
to its end, and the second after it. -/
def bothRead : List PoolAction :=
  [0, 0, 1, 1].map PoolAction.act ++ List.replicate 15 (.act 0) ++ List.replicate 15 (.act 1)

/-- Both do the work of every phase, and every phase row and the asset is
there twice. -/
theorem scan_run_twice :
    let _ := PyRuntime.ascii
    let p := Trace.run Pool.step (Shared.executions (fun _ => rootOnlyTarget) {}) bothRead
    ¬ RunOnce (fun _ => rootOnlyTarget) p ∧ (0, .crawling) ∈ p.begun ∧ (1, .crawling) ∈ p.begun ∧
      p.store.phases.length = 10 ∧ (p.store.assets.map fun s => s.row.host) =
        ["acme.test".toList, "acme.test".toList] := by
  intro runtime p
  refine ⟨fun h => ?_, by decide +kernel, by decide +kernel, by decide +kernel, by decide +kernel⟩
  have htwice : ¬ (p.store.assets.map fun s => s.row.host).Nodup := by decide +kernel
  exact htwice h.rows.assets

end Sentinel.Worker
