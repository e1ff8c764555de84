/-
Sentinel.Worker.ScanSurface — the surface a scan stores is the surface
that was crawled.

Up to the pause a scan has the assets of recon and no endpoint; the commit
that pauses it has all endpoints of all crawls, each with the personas that
saw it, and the statistics of the last phase are the numbers of the rows
(`surface_all_or_nothing`). So a crash in the merge leaves no part of a
surface behind.
-/
import Sentinel.Worker.PhaseFrames
import Sentinel.Worker.ScanOnce

namespace Sentinel.Worker

open Sentinel.Py Sentinel.Core Sentinel.Db Sentinel.Crawler Sentinel.Durable

/-! ## The rows of the surface -/

/-- The rows of the surface, without the scan they belong to. -/
def surfaceRows (db : Snapshot) : Snapshot := { assets := db.assets, endpoints := db.endpoints }

instance : Apart surfaceRows := ⟨fun _ _ _ _ => rfl⟩

/-- The rows when the phases in `finished` are. -/
def rowsAt (env : Environment) (finished : List ScanPhaseName) : Snapshot :=
  if .recon ∈ finished then reconSurface env else {}

/-- The personas whose login gave a session. -/
def loggedIn (env : Environment) : List Persona :=
  if env.kmsMasterKey = [] then []
  else env.configuredPersonas.filter fun p => (env.establishPersona p).available

/-- The storage state a persona is crawled with. -/
def sessionOf (env : Environment) (persona : Persona) : Str :=
  (env.establishPersona persona).storageState.getD "{}".toList

/-- The crawl as nobody, and one for each persona that is logged in. -/
def crawled (env : Environment) : List SurfaceMap :=
  env.crawl "anonymous".toList none ::
    (loggedIn env).map fun p => env.crawl p.id (some (sessionOf env p))

/-- The scan holds exactly what was crawled, and its last phase counts it. -/
structure WholeSurface [PyRuntime] (env : Environment) (db : Snapshot) : Prop where
  consistent : db.Consistent
  rows : ∀ key, HasRow db key ↔ ∃ personaId, Contains (crawled env) key personaId
  personas : ∀ key personaId, DiscoveredBy db key personaId ↔ Contains (crawled env) key personaId
  assets : (reconSurface env).assets <+: db.assets
  counted : ∃ row merged created, db.scan.phases.getLast? = some row ∧
    row.statsJson = .surfaceMapping db.endpoints.length merged created ∧
    db.assets.length = env.recon.assets.length + created ∧
    db.endpoints.length + merged = (allEndpoints (crawled env)).length

/-! ## Sessions and crawls -/

/-- The sessions after one more login. -/
def sessionStep (env : Environment) (sessions : Dict) (persona : Persona) : Dict :=
  if (env.establishPersona persona).available then sessions.set persona.id (sessionOf env persona)
  else sessions

/-- The crawls of `_run_crawling` with the sessions it is given. -/
def crawledWith (env : Environment) (sessions : Dict) : List SurfaceMap :=
  env.crawl "anonymous".toList none :: env.configuredPersonas.filterMap fun p =>
    (sessions.lookup p.id).map fun storageState => env.crawl p.id (some storageState)

/-- The first entry is looked at first. -/
theorem lookup_entry (k v x : Str) (d : Dict) :
    List.lookup x ((k, v) :: d) = if x = k then some v else d.lookup x := by
  by_cases h : x = k
  · rw [if_pos h, h, List.lookup_cons_self]
  · have hne : (x == k) = false := by simpa using h
    rw [if_neg h, List.lookup_cons, hne]

theorem lookup_set (d : Dict) (k v x : Str) :
    (d.set k v).lookup x = if x = k then some v else d.lookup x := by
  induction d with
  | nil => exact lookup_entry k v x []
  | cons item rest ih =>
    obtain ⟨k', v'⟩ := item
    by_cases hk : k' = k
    · rw [Dict.set, if_pos hk, lookup_entry, lookup_entry, hk]
      by_cases h : x = k
      · rw [if_pos h, if_pos h]
      · rw [if_neg h, if_neg h, if_neg h]
    · rw [Dict.set, if_neg hk, lookup_entry, lookup_entry, ih]
      by_cases h : x = k'
      · have hother : x ≠ k := fun heq => hk (h.symm.trans heq)
        rw [if_pos h, if_neg hother, if_pos h]
      · rw [if_neg h, if_neg h]

theorem lookup_sessionStep (env : Environment) (sessions : Dict) (persona : Persona) (x : Str) :
    (sessionStep env sessions persona).lookup x =
      if x = persona.id ∧ (env.establishPersona persona).available then
        some (sessionOf env persona)
      else sessions.lookup x := by
  unfold sessionStep
  split
  · next havailable => simp [lookup_set, havailable]
  · next hfailed => simp [hfailed]

/-- The logins of others do not matter. -/
theorem lookup_sessions_of_ne (env : Environment) {personas : List Persona} {x : Str}
    (h : ∀ p ∈ personas, x ≠ p.id) (sessions : Dict) :
    (personas.foldl (sessionStep env) sessions).lookup x = sessions.lookup x := by
  induction personas generalizing sessions with
  | nil => rfl
  | cons p personas ih =>
    obtain ⟨hne, hrest⟩ := List.forall_mem_cons.mp h
    rw [List.foldl_cons, ih hrest, lookup_sessionStep, if_neg fun hx => hne hx.1]

/-- With ids that differ, a persona has a session if it was logged in. -/
theorem lookup_sessions (env : Environment) {personas : List Persona}
    (hids : (personas.map (·.id)).Nodup) (sessions : Dict) {persona : Persona}
    (hmem : persona ∈ personas) :
    (personas.foldl (sessionStep env) sessions).lookup persona.id =
      if (env.establishPersona persona).available then some (sessionOf env persona)
      else sessions.lookup persona.id := by
  induction personas generalizing sessions with
  | nil => exact absurd hmem List.not_mem_nil
  | cons p personas ih =>
    rw [List.map_cons, List.nodup_cons] at hids
    obtain ⟨hfresh, hids⟩ := hids
    have hothers : ∀ q ∈ personas, p.id ≠ q.id := fun q hq heq =>
      hfresh (List.mem_map.mpr ⟨q, hq, heq.symm⟩)
    rw [List.foldl_cons]
    rcases List.mem_cons.mp hmem with rfl | hmem
    · rw [lookup_sessions_of_ne env hothers, lookup_sessionStep]
      simp
    · have hother : ¬ (persona.id = p.id ∧ (env.establishPersona p).available = true) :=
        fun hx => hothers persona hmem hx.1.symm
      rw [ih hids _ hmem, lookup_sessionStep, if_neg hother]

/-- The sessions that AUTH_ESTABLISHING hands on. -/
def loginSessions (env : Environment) : Dict :=
  if env.kmsMasterKey = [] then [] else env.configuredPersonas.foldl (sessionStep env) []

/-- With these the crawls are as nobody and as everybody who is logged in. -/
theorem crawledWith_loginSessions {env : Environment} (hids : (env.personas.map (·.id)).Nodup) :
    crawledWith env (loginSessions env) = crawled env := by
  have hconfigured : (env.configuredPersonas.map (·.id)).Nodup :=
    hids.sublist (List.filter_sublist.map _)
  unfold crawledWith crawled loginSessions loggedIn
  congr 1
  split
  · simp
  · rw [← List.filterMap_eq_map', List.filterMap_filter]
    refine List.filterMap_congr fun p hp => ?_
    rw [lookup_sessions env hconfigured [] hp]
    split <;> rfl

section

variable {names : List ScanPhaseName} {name : ScanPhaseName} {status : PhaseStatus}
  {x target : ScanState} {machine : ScanStateMachine} {disk session : Snapshot}
  {G : Snapshot → Snapshot → Prop} {E : RunError → Prop} {env : Environment}

theorem establishAll_sessions (env : Environment) (acc : Nat × Dict) (personas : List Persona) :
    wp G (personas.foldlM (establishStep env) acc) (fun a d s => d = disk ∧
      surfaceRows s = surfaceRows session ∧ a.2 = personas.foldl (sessionStep env) acc.2)
      E disk session := by
  induction personas generalizing acc session with
  | nil => simp
  | cons persona personas ih =>
    have hstep : wp G (establishStep env acc persona) (fun a d s => d = disk ∧
        surfaceRows s = surfaceRows session ∧ a.2 = sessionStep env acc.2 persona)
        E disk session := by
      simp only [establishStep, wp_bind, wp_point, wp_modify, sessionStep]
      by_cases havailable : (env.establishPersona persona).available
      · simp only [havailable, Bool.not_true, Bool.false_eq_true, if_false, if_true, wp_bind,
          wp_modify, wp_pure, true_and]
        refine ⟨?_, rfl⟩
        split <;> rfl
      · simp only [havailable, Bool.not_false, if_true, Bool.false_eq_true, if_false, wp_pure,
          true_and, and_true]
        rfl
    rw [List.foldlM_cons]
    refine wp_seq (wp_mono hstep (fun a d s hs => ?_) fun _ he => he)
    obtain ⟨rfl, hrows, hsessions⟩ := hs
    refine wp_mono (ih a) (fun b d s hs => ?_) fun _ he => he
    obtain ⟨rfl, hrows', hsessions'⟩ := hs
    exact ⟨rfl, hrows'.trans hrows, hsessions'.trans (by rw [hsessions, List.foldl_cons])⟩

theorem runAuthEstablishing_sessions (env : Environment) :
    wp G (runAuthEstablishing env) (fun a d s => d = disk ∧
      surfaceRows s = surfaceRows session ∧
      a.2 = env.configuredPersonas.foldl (sessionStep env) []) E disk session := by
  unfold runAuthEstablishing
  split
  · next hnone => simp [hnone]
  · refine wp_seq ((wp_point _).mpr (wp_seq ?_))
    refine wp_mono (establishAll_sessions env (0, []) env.configuredPersonas)
      (fun a d s hs => ?_) fun _ he => he
    simpa using hs

theorem crawlAll_surfaces (env : Environment) (sessions : Dict) (surfaces : List SurfaceMap)
    (personas : List Persona) :
    wp G (personas.foldlM (crawlStep env sessions) surfaces) (fun a d s => d = disk ∧
      s = session ∧ a = surfaces ++ personas.filterMap fun p =>
        (sessions.lookup p.id).map fun storageState => env.crawl p.id (some storageState))
      E disk session := by
  induction personas generalizing surfaces with
  | nil => simp
  | cons persona personas ih =>
    rw [List.foldlM_cons]
    cases hlookup : sessions.lookup persona.id with
    | none =>
      have hstep : crawlStep env sessions surfaces persona = pure surfaces := by
        rw [crawlStep, hlookup]
      rw [hstep, Program.pure_bind]
      refine wp_mono (ih surfaces) (fun a d s hs => ?_) fun _ he => he
      rwa [List.filterMap_cons_none (by rw [hlookup]; rfl)]
    | some storageState =>
      have hstep : crawlStep env sessions surfaces persona = (do
          Program.point
          pure (surfaces ++ [env.crawl persona.id (some storageState)])) := by
        rw [crawlStep, hlookup]
      rw [hstep]
      refine wp_seq (wp_seq ((wp_point _).mpr ((wp_pure _ _).mpr ?_)))
      refine wp_mono (ih _) (fun a d s hs => ?_) fun _ he => he
      rwa [List.filterMap_cons_some (by rw [hlookup]; rfl), List.append_cons]

theorem runCrawling_surfaces (env : Environment) (sessions : Dict) :
    wp G (runCrawling env sessions) (fun a d s => d = disk ∧ s = session ∧
      a = crawledWith env sessions) E disk session :=
  wp_seq ((wp_point _).mpr (crawlAll_surfaces env sessions _ _))

/-! ## The phases -/

/-- Up to the pause only recon's assets are there, and then everything is. -/
structure AllOrNothing [PyRuntime] (env : Environment) (next : Snapshot) : Prop where
  nothing : next.scan.state ≠ .paused → surfaceRows next = rowsAt env (finishedPhases next)
  all : next.scan.state = .paused → WholeSurface env next

variable [PyRuntime]

/-- What may be committed. -/
def Whole (env : Environment) (_ next : Snapshot) : Prop := AllOrNothing env next

theorem Rested.whole (h : Rested surfaceRows names x machine (rowsAt env names) session)
    (hrunning : x ≠ .paused) : Whole env disk session where
  nothing _ := by rw [h.seen, h.finishedPhases]
  all hpaused := absurd (h.between.state.symm.trans hpaused) hrunning

theorem Busy.whole (h : Busy surfaceRows names name status x machine (rowsAt env names) session)
    (hstatus : status = .running ∨ status = .failed) (hrunning : x ≠ .paused) :
    Whole env disk session where
  nothing _ := by rw [h.seen, h.finishedPhases hstatus]
  all hpaused := absurd (h.within.state.symm.trans hpaused) hrunning

/-- Ending a scan whose phase failed. -/
theorem Busy.commit_ended
    (h : Busy surfaceRows names name .failed x machine (rowsAt env names) session)
    (hrunning : x ≠ .paused) (now : Instant) {α : Type} {r : α}
    {Q : α → Snapshot → Snapshot → Prop} (hQ : ∀ d s, Q r d s) :
    wp (Whole env) (do
      Program.modify (Snapshot.finishScan now)
      Program.commit
      pure r : ScanProgram α) Q E disk session := by
  simp only [wp_bind, wp_modify, wp_commit, wp_pure]
  have hended : Busy surfaceRows names name .failed x machine (rowsAt env names)
      (session.finishScan now) :=
    ⟨⟨h.within.machine, h.within.state, h.within.rows⟩, h.seen⟩
  exact ⟨hended.whole (Or.inr rfl) hrunning, hQ _ _⟩

theorem scopeVerifying_whole (env : Environment) (target : Target)
    (h : Rested surfaceRows [] .queued machine {} session) :
    wp (Whole env) (scopeVerifying env target machine)
      (fun r _ s => ∀ m ∈ r, Rested surfaceRows [.scopeVerifying] .scopeVerifying m
        (rowsAt env [.scopeVerifying]) s) RunError.NotMachine disk session := by
  refine wp_seq (h.create (by decide) fun s h => ?_)
  refine wp_seq (h.enter (by decide) fun m s h => ?_)
  refine wp_seq (h.start _ fun s h => ?_)
  split
  · refine wp_seq (h.enter (by decide) fun m' s h => ?_)
    refine wp_seq (h.fail _ _ _ fun s h => ?_)
    have hrows : Busy surfaceRows [] .scopeVerifying .failed .blockedUnverified m'
      (rowsAt env []) s := h
    exact hrows.commit_ended (by decide) _ fun _ _ m hm => by cases hm
  · refine wp_seq (h.finish _ _ _ (Or.inl rfl) fun s h => ?_)
    have hrows : Rested surfaceRows [.scopeVerifying] .scopeVerifying m
      (rowsAt env [.scopeVerifying]) s := h
    refine wp_seq ((wp_commit _).mpr ⟨hrows.whole (by decide), ?_⟩)
    simpa using hrows

/-- RECON adds its assets. -/
theorem recon_whole (env : Environment)
    (h : Rested surfaceRows [.scopeVerifying] .scopeVerifying machine
      (rowsAt env [.scopeVerifying]) session) :
    wp (Whole env) (recon env machine)
      (fun m _ s => Rested surfaceRows [.scopeVerifying, .recon] .recon m
        (rowsAt env [.scopeVerifying, .recon]) s) RunError.NotMachine disk session := by
  refine wp_seq (h.create (by decide) fun s h => ?_)
  refine wp_seq (h.enter (by decide) fun m s h => ?_)
  refine wp_seq (h.start _ fun s h => ?_)
  refine wp_seq ((wp_commit _).mpr ⟨h.whole (Or.inl rfl) (by decide), ?_⟩)
  refine wp_seq ((wp_point _).mpr (wp_seq ((wp_modify _ _).mpr ?_)))
  have hadded : Busy surfaceRows [.scopeVerifying] .recon .running .recon m
      (rowsAt env [.scopeVerifying, .recon])
      (s.addAssets (env.recon.assets.map fun a => ⟨a.host, a.ips, a.httpProbes, a.source⟩)) := by
    refine ⟨⟨h.within.machine, h.within.state, h.within.rows⟩, ?_⟩
    have hassets : s.assets = [] := congrArg Snapshot.assets h.seen
    have hendpoints : s.endpoints = [] := congrArg Snapshot.endpoints h.seen
    simp [surfaceRows, Snapshot.addAssets, hassets, hendpoints, rowsAt, reconSurface]
  refine wp_seq (hadded.finish _ _ _ (Or.inl rfl) fun s h => ?_)
  refine wp_seq (h.calm (calm_degradeIf _ _) (Keeps.modify fun db => ?_) fun _ s h => ?_)
  · split <;> rfl
  · refine wp_seq ((wp_commit _).mpr ⟨h.whole (by decide), ?_⟩)
    simpa using h

theorem logIn_whole (env : Environment) (hkey : env.kmsMasterKey ≠ [])
    (h : Busy surfaceRows [.scopeVerifying, .recon] .authEstablishing .running .authEstablishing
      machine (rowsAt env [.scopeVerifying, .recon]) session) :
    wp (Whole env) (logIn env machine 2)
      (fun r _ s => ∀ sessions ∈ r, sessions = loginSessions env ∧
        Rested surfaceRows authDone .authEstablishing machine (rowsAt env authDone) s)
      RunError.NotMachine disk session := by
  have hlogins : wp (Whole env) (withBrowser (runAuthEstablishing env)) (fun a d s =>
      d = disk ∧ surfaceRows s = rowsAt env [.scopeVerifying, .recon] ∧
        a.2 = loginSessions env) RunError.NotMachine disk session := by
    refine wp_withBrowser (wp_mono (runAuthEstablishing_sessions env) (fun a d s hs => ?_)
      fun _ he => he)
    obtain ⟨rfl, hrows, hsessions⟩ := hs
    exact ⟨rfl, hrows.trans h.seen, hsessions.trans (if_neg hkey).symm⟩
  refine wp_seq (h.works (P := fun a rows => rows = rowsAt env [.scopeVerifying, .recon] ∧
    a.2 = loginSessions env) (calm_withBrowser (calm_runAuthEstablishing env)) hlogins
    fun a s rows hrows h => ?_)
  obtain ⟨rfl, hsessions⟩ := hrows
  dsimp only
  split
  · refine wp_seq (h.enter (by decide) fun m s h => ?_)
    refine wp_seq (h.fail _ _ _ fun s h => ?_)
    exact h.commit_ended (by decide) _ fun _ _ m hm => by cases hm
  · refine wp_seq (h.finish _ _ _ (Or.inl rfl) fun s h => ?_)
    have hrows : Rested surfaceRows authDone .authEstablishing machine (rowsAt env authDone) s := h
    simpa [hsessions] using hrows

theorem authBranches_whole (env : Environment)
    (h : Busy surfaceRows [.scopeVerifying, .recon] .authEstablishing .running .authEstablishing
      machine (rowsAt env [.scopeVerifying, .recon]) session) :
    wp (Whole env) (authBranches env machine 2)
      (fun r _ s => ∀ sessions ∈ r, sessions = loginSessions env ∧
        Rested surfaceRows authDone .authEstablishing machine (rowsAt env authDone) s)
      RunError.NotMachine disk session := by
  have hdegraded : ∀ reasons, Busy surfaceRows [.scopeVerifying, .recon] .authEstablishing .running
      .authEstablishing machine (rowsAt env [.scopeVerifying, .recon]) (session.degrade reasons) :=
    fun reasons => ⟨⟨h.within.machine, h.within.state, h.within.rows⟩, h.seen⟩
  unfold authBranches
  split
  · next hkey =>
    have hnone : loginSessions env = [] := if_pos hkey.1
    refine wp_seq ((wp_modify _ _).mpr ?_)
    refine wp_seq ((hdegraded _).finish _ _ _ (Or.inr ⟨rfl, rfl⟩) fun s h => ?_)
    have hrows : Rested surfaceRows authDone .authEstablishing machine (rowsAt env authDone) s := h
    simpa [hnone] using hrows
  · next hkey =>
    split
    · next hconfigured =>
      have hnone : loginSessions env = [] := by simp [loginSessions, hconfigured]
      refine wp_seq ((wp_modify _ _).mpr ?_)
      refine wp_seq ((hdegraded _).finish _ _ _ (Or.inl rfl) fun s h => ?_)
      have hrows : Rested surfaceRows authDone .authEstablishing machine (rowsAt env authDone) s := h
      simpa [hnone] using hrows
    · next hconfigured => exact logIn_whole env (fun hnone => hkey ⟨hnone, hconfigured⟩) h

theorem authEstablishing_whole (env : Environment)
    (h : Rested surfaceRows [.scopeVerifying, .recon] .recon machine
      (rowsAt env [.scopeVerifying, .recon]) session) :
    wp (Whole env) (authEstablishing env machine)
      (fun r _ s => ∀ next ∈ r, next.2 = loginSessions env ∧
        Rested surfaceRows authDone .crawling next.1 (rowsAt env authDone) s)
      RunError.NotMachine disk session := by
  have hsetup : Unseen surfaceRows (sharedSetup env) :=
    (Keeps.point _).bind fun _ => (Keeps.point _).bind fun _ => (Keeps.point _).bind fun _ =>
      Keeps.modify fun _ => rfl
  refine wp_seq (h.calm (calm_sharedSetup env) hsetup fun _ s h => ?_)
  refine wp_seq (h.create (by decide) fun s h => ?_)
  refine wp_seq (h.enter (by decide) fun m s h => ?_)
  refine wp_seq (h.start _ fun s h => ?_)
  refine wp_seq ((wp_commit _).mpr ⟨h.whole (Or.inl rfl) (by decide), ?_⟩)
  refine wp_seq (wp_mono (authBranches_whole env h) (fun r d s h => ?_) fun _ he => he)
  cases r with
  | none => simp
  | some sessions =>
    obtain ⟨hsessions, hdone⟩ := h sessions rfl
    refine wp_seq (hdone.enter (by decide) fun m s h => ?_)
    refine wp_seq ((wp_commit _).mpr ⟨h.whole (by decide), ?_⟩)
    simpa [hsessions] using h

/-- The phases before SURFACE_MAPPING. -/
abbrev crawlDone : List ScanPhaseName := [.scopeVerifying, .recon, .authEstablishing, .crawling]

theorem crawling_whole {env : Environment} (hids : (env.personas.map (·.id)).Nodup)
    (h : Rested surfaceRows authDone .crawling machine (rowsAt env authDone) session) :
    wp (Whole env) (crawling env machine (loginSessions env))
      (fun r _ s => r.2 = crawled env ∧
        Rested surfaceRows crawlDone .surfaceMapping r.1 (rowsAt env crawlDone) s)
      RunError.NotMachine disk session := by
  refine wp_seq (h.create (by decide) fun s h => ?_)
  refine wp_seq (h.start _ fun s h => ?_)
  refine wp_seq ((wp_commit _).mpr ⟨h.whole (Or.inl rfl) (by decide), ?_⟩)
  have hcrawls : wp (Whole env) (withBrowser (runCrawling env (loginSessions env))) (fun a d s' =>
      d = s ∧ surfaceRows s' = rowsAt env authDone ∧ a = crawled env)
      RunError.NotMachine s s := by
    refine wp_withBrowser (wp_mono (runCrawling_surfaces env _) (fun a d s' hs => ?_) fun _ he => he)
    obtain ⟨rfl, rfl, hcrawled⟩ := hs
    exact ⟨rfl, h.seen, hcrawled.trans (crawledWith_loginSessions hids)⟩
  refine wp_seq (h.works (P := fun a rows => rows = rowsAt env authDone ∧ a = crawled env)
    (calm_withBrowser (calm_runCrawling env _)) hcrawls fun a s rows hrows h => ?_)
  obtain ⟨rfl, hcrawled⟩ := hrows
  refine wp_seq (h.finish _ _ _ (Or.inl rfl) fun s h => ?_)
  refine wp_seq (h.enter (by decide) fun m s h => ?_)
  have hrows : Rested surfaceRows crawlDone .surfaceMapping m (rowsAt env crawlDone) s := h
  refine wp_seq ((wp_commit _).mpr ⟨hrows.whole (by decide), ?_⟩)
  simpa [hcrawled] using hrows

/-- Rows that are merged into recon's are the whole surface. -/
theorem wholeSurface_of_merge {s s' db : Snapshot} {total : MergeStats}
    (hrows : surfaceRows s = reconSurface env) (hexact : ExactMerge s (crawled env) total s')
    (hsame : surfaceRows db = surfaceRows s') {row : ScanPhase}
    (hlast : db.scan.phases.getLast? = some row)
    (hstats : row.statsJson = .surfaceMapping total.endpointsCreated total.endpointsMerged
      total.assetsCreated) : WholeSurface env db := by
  have hassets : (surfaceRows s).assets = (reconSurface env).assets := by rw [hrows]
  dsimp only [surfaceRows] at hassets
  have hnone : s.endpoints = [] := congrArg Snapshot.endpoints hrows
  have hlength : s.assets.length = env.recon.assets.length := by
    rw [hassets, reconSurface, List.length_map]
  have hcreated := hexact.endpointsCreated
  rw [hnone, List.length_nil, Nat.zero_add] at hcreated
  have hassets' : (surfaceRows db).assets = (surfaceRows s').assets := by rw [hsame]
  have hendpoints' : (surfaceRows db).endpoints = (surfaceRows s').endpoints := by rw [hsame]
  dsimp only [surfaceRows] at hassets' hendpoints'
  constructor
  case consistent =>
    have hconsistent := hexact.consistent
    exact ⟨hassets' ▸ hconsistent.hosts, hendpoints' ▸ hconsistent.places,
      hassets' ▸ hendpoints' ▸ hconsistent.owned, hendpoints' ▸ hconsistent.personas⟩
  case rows =>
    intro key
    have hiff : HasRow (surfaceRows db) key ↔ HasRow (surfaceRows s') key := by rw [hsame]
    refine hiff.trans ((hexact.rows key).trans ⟨fun h => h.resolve_left ?_, Or.inr⟩)
    rintro ⟨old, hold, -⟩
    rw [hnone] at hold
    exact List.not_mem_nil hold
  case personas =>
    intro key personaId
    have hiff : DiscoveredBy (surfaceRows db) key personaId ↔
        DiscoveredBy (surfaceRows s') key personaId := by rw [hsame]
    refine hiff.trans ((hexact.personas key personaId).trans ⟨fun h => h.resolve_left ?_, Or.inr⟩)
    rintro ⟨old, hold, -⟩
    rw [hnone] at hold
    exact List.not_mem_nil hold
  case assets =>
    rw [← hassets, hassets']
    exact hexact.assets
  case counted =>
    refine ⟨row, total.endpointsMerged, total.assetsCreated, hlast, ?_, ?_, ?_⟩
    · rw [hstats, hendpoints', hcreated]
    · rw [hassets', hexact.assetsCreated, hlength]
    · rw [hendpoints', hcreated]
      exact hexact.endpointsMerged

/-- SURFACE_MAPPING stores everything with its last commit. -/
theorem surfaceMapping_whole {env : Environment}
    (hhosts : (env.recon.assets.map DiscoveredAsset.host).Nodup)
    (h : Rested surfaceRows crawlDone .surfaceMapping machine (rowsAt env crawlDone) session) :
    wp (Whole env) (surfaceMapping env machine (crawled env)) (fun _ _ _ => True)
      RunError.NotMachine disk session := by
  refine wp_seq (h.create (by decide) fun s h => ?_)
  refine wp_seq (h.start _ fun s h => ?_)
  refine wp_seq ((wp_commit _).mpr ⟨h.whole (Or.inl rfl) (by decide), ?_⟩)
  have hrows : surfaceRows s = reconSurface env := h.seen
  have hconsistent : s.Consistent := by
    have hrecon : (surfaceRows s).Consistent := hrows ▸ consistent_reconSurface hhosts
    exact ⟨hrecon.hosts, hrecon.places, hrecon.owned, hrecon.personas⟩
  refine wp_seq (Program.wp_of_returns (calm_mergeLoop _ _) fun total s' hreturns => ?_)
  have hexact := ((mergeSurfaces_exact hconsistent (crawled env)).2 total s' hreturns).1
  have hscan : s'.scan = s.scan := hexact.others.1
  have hwithin : Within crawlDone .surfaceMapping .running .surfaceMapping machine s' :=
    ⟨h.within.machine, by rw [hscan]; exact h.within.state, by rw [hscan]; exact h.within.rows⟩
  obtain ⟨done, row, hphases, -⟩ := hwithin.modify fun p =>
    { p with
      status := .completed
      finishedAt := some (env.clock.phaseFinished .surfaceMapping)
      statsJson := .surfaceMapping total.endpointsCreated total.endpointsMerged total.assetsCreated
      error := none }
  have hpause : machine.canTransition .paused = true := by
    simp [ScanStateMachine.canTransition, ScanStateMachine.isTerminal, terminalStates,
      h.within.machine]
  have hok := ScanStateMachine.transition_ok none hpause
  simp only [finishPhase, Worker.enter, hok, Except.mapError, wp_bind, wp_ofExcept, wp_modify,
    wp_point, wp_commit, wp_pure, and_true]
  refine ⟨fun hrunning => absurd rfl hrunning, fun _ => ?_⟩
  have hlast := (congrArg List.getLast? hphases).trans List.getLast?_concat
  exact wholeSurface_of_merge hrows hexact rfl hlast rfl

theorem runPhases_whole {env : Environment} (target : Target)
    (hhosts : (env.recon.assets.map DiscoveredAsset.host).Nodup)
    (hids : (env.personas.map (·.id)).Nodup)
    (h : Rested surfaceRows [] .queued machine {} session) :
    wp (Whole env) (runPhases env target machine) (fun _ _ _ => True) RunError.NotMachine
      disk session := by
  refine wp_seq (wp_mono (scopeVerifying_whole env target h) (fun r d s h => ?_) fun _ he => he)
  cases r with
  | none => simp
  | some m =>
    refine wp_seq (wp_mono (recon_whole env (h m rfl)) (fun m d s h => ?_) fun _ he => he)
    refine wp_seq (wp_mono (authEstablishing_whole env h) (fun r d s h => ?_) fun _ he => he)
    cases r with
    | none => simp
    | some next =>
      obtain ⟨m, sessions⟩ := next
      obtain ⟨rfl, hdone⟩ := h (m, sessions) rfl
      refine wp_seq (wp_mono (crawling_whole hids hdone) (fun r d s h => ?_) fun _ he => he)
      obtain ⟨m, surfaces⟩ := r
      obtain ⟨rfl, hcrawled⟩ := h
      exact surfaceMapping_whole hhosts hcrawled

/-! ## Successive runs -/

theorem runScan_whole {env : Environment} {found : Snapshot}
    (hhosts : (env.recon.assets.map DiscoveredAsset.host).Nodup)
    (hids : (env.personas.map (·.id)).Nodup) (hstate : found.scan.state = .queued)
    (hphases : found.scan.phases = []) (hrows : surfaceRows found = {}) :
    wp (Whole env) (runScan env) (fun _ _ _ => True) RunError.NotMachine found found := by
  refine wp_seq ((wp_point _).mpr ?_)
  split
  · simp
  · refine wp_seq ((wp_point _).mpr ?_)
    split
    · simp
    · next target _ =>
      refine wp_seq ((wp_get _).mpr ?_)
      have h : Rested surfaceRows [] .queued
          { current := found.scan.state, pausedFrom := found.scan.pausedFrom } {} found :=
        ⟨⟨hstate, hstate, by rw [hphases]; rfl, by simp [hphases]⟩, hrows⟩
      refine wp_seq (wp_mono (runPhases_whole target hhosts hids h) (fun _ d s _ => ?_)
        fun _ he => he)
      simp

end

variable [PyRuntime]

/-- **The surface of a scan is stored as a whole.** For any attempts at a
QUEUED scan without rows, however they end, one of them makes all commits.
Those before the pause have recon's assets, if recon is finished, and no
endpoint; the one that pauses the scan has for every key an endpoint row
exactly if a crawl saw it, with exactly the personas that did, and counts
its rows. -/
theorem surface_all_or_nothing {db : Snapshot} (hstate : db.scan.state = .queued)
    (hphases : db.scan.phases = []) (hrows : surfaceRows db = {}) {attempts : List ScanAttempt}
    (hhosts : ∀ a ∈ attempts, (a.env.recon.assets.map DiscoveredAsset.host).Nodup)
    (hids : ∀ a ∈ attempts, (a.env.personas.map (·.id)).Nodup) :
    committedBy db attempts = [] ∨
      ∃ a ∈ attempts, ∀ c ∈ committedBy db attempts, AllOrNothing a.env c := by
  refine (committedBy_one attempts hstate).imp_right ?_
  rintro ⟨a, ha, hall⟩
  refine ⟨a, ha, ?_⟩
  have hchain : List.IsChain (Whole a.env) (db :: (a.report db).committed) :=
    attempt_isChain (runScan_whole (hhosts a ha) (hids a ha) hstate hphases hrows) a.stop
  rw [hall]
  exact forall_of_isChain (P := AllOrNothing a.env) (fun _ _ h => h) hchain

/-- Recon finds the root, and the crawl one page of it. -/
def orderTarget : Environment :=
  { bareTarget with
    recon := {
      assets := [{ host := "app.acme.test".toList, source := "root_domain".toList }]
      toolAvailability := []
      wildcardDnsSuspected := false }
    crawl := fun _ _ => orderSurface "anonymous" }

omit [PyRuntime] in
/-- Ended in the merge, and ended by nothing. -/
theorem orderTarget_stored :
    let _ := PyRuntime.ascii
    let Leaves (stop : Option Nat) (endpoints : Nat) :=
      ∃ c, (committedBy {} [⟨orderTarget, stop⟩]).getLast? = some c ∧
        c.endpoints.length = endpoints ∧ AllOrNothing orderTarget c
    Leaves (some 41) 0 ∧ Leaves none 1 := by
  intro runtime Leaves
  have hleaves : ∀ stop endpoints, (committedBy {} [⟨orderTarget, stop⟩]).getLast?.map
      (·.endpoints.length) = some endpoints → Leaves stop endpoints := by
    intro stop endpoints hlast
    obtain ⟨c, hc, hlength⟩ := Option.map_eq_some_iff.mp hlast
    have hmem := List.mem_of_getLast? hc
    refine ⟨c, hc, hlength, ?_⟩
    have hhosts : (orderTarget.recon.assets.map DiscoveredAsset.host).Nodup := by decide +kernel
    have hids : (orderTarget.personas.map (·.id)).Nodup := by decide +kernel
    have hall := @surface_all_or_nothing runtime {} rfl rfl rfl [⟨orderTarget, stop⟩]
      (List.forall_mem_singleton.mpr hhosts) (List.forall_mem_singleton.mpr hids)
    rcases hall with hnone | ⟨a, ha, hall⟩
    · rw [hnone] at hmem
      exact absurd hmem List.not_mem_nil
    · obtain rfl := List.mem_singleton.mp ha
      exact hall c hmem
  exact ⟨hleaves _ _ (by decide +kernel), hleaves _ _ (by decide +kernel)⟩

end Sentinel.Worker
