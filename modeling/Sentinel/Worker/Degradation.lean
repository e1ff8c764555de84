/-
Sentinel.Worker.Degradation — what a scan tells of its own gaps.

Whatever a run of `run_scan` had to do without, it writes into
`is_degraded` and `degraded_reasons`, and it does so when the phase that
met the gap is finished. So what a committed scan tells can be read off its
phase rows and its state (`told_exactly`): it tells every gap of the phases
that are finished, and nothing else. What stood there before stays.
-/
import Sentinel.Worker.PhaseFrames

namespace Sentinel.Worker

open Sentinel.Py Sentinel.Core Sentinel.Db Sentinel.Crawler Sentinel.Durable

/-! ## Gaps -/

/-- That something is missing, and what is said about it. -/
@[ext] structure Degradation where
  degraded : Bool := false
  reasons : List Str := []
  deriving DecidableEq, Repr

namespace Degradation

instance : Append Degradation := ⟨fun a b => ⟨a.degraded || b.degraded, a.reasons ++ b.reasons⟩⟩

theorem append_eq (a b : Degradation) :
    a ++ b = ⟨a.degraded || b.degraded, a.reasons ++ b.reasons⟩ := rfl

@[simp] theorem append_none (a : Degradation) : a ++ ({} : Degradation) = a := by
  simp [append_eq]

theorem append_assoc (a b c : Degradation) : a ++ b ++ c = a ++ (b ++ c) := by
  simp [append_eq, Bool.or_assoc]

/-- The gaps of several, in their order. -/
def all (gaps : List Degradation) : Degradation := gaps.foldl (· ++ ·) {}

theorem foldl_append (a : Degradation) (gaps : List Degradation) :
    gaps.foldl (· ++ ·) a = a ++ all gaps := by
  induction gaps generalizing a with
  | nil => simp [all]
  | cons gap gaps ih =>
    have hone : all (gap :: gaps) = gap ++ all gaps := by
      simp only [all, List.foldl_cons]
      rw [ih]
      rfl
    rw [List.foldl_cons, ih, hone, append_assoc]

end Degradation

/-- What the scan tells. -/
def told (db : Snapshot) : Degradation := ⟨db.scan.isDegraded, db.scan.degradedReasons⟩

theorem told_degrade (reasons : List Str) (db : Snapshot) :
    told (db.degrade reasons) = told db ++ ⟨true, reasons⟩ := by
  simp [told, Snapshot.degrade, Snapshot.modifyScan, Degradation.append_eq]

/-- Tools that are not installed. -/
def reconGaps (env : Environment) : Degradation :=
  if env.recon.degraded then ⟨true, env.recon.notes⟩ else {}

/-- A persona that logged in without an oracle to tell the session by. -/
def loginGap (env : Environment) (persona : Persona) : Degradation :=
  let result := env.establishPersona persona
  if result.available ∧ result.sessionOracle = none then
    ⟨true, ["Persona '".toList ++ persona.label ++ "': ".toList ++
      result.oracleDetail.getD "None".toList]⟩
  else {}

/-- Personas that were not tried, that were not configured, or that logged
in without an oracle. -/
def loginGaps (env : Environment) : Degradation :=
  if env.kmsMasterKey = [] ∧ env.configuredPersonas ≠ [] then ⟨true, [noMasterKeyNote]⟩
  else if env.configuredPersonas = [] then ⟨true, [noPersonasNote]⟩
  else .all (env.configuredPersonas.map (loginGap env))

/-- The engines that do not exist yet. -/
def pauseGap : Degradation := ⟨true, [notYetImplementedNote]⟩

/-- The gaps of the phases in `finished`. -/
def phaseGaps (env : Environment) (finished : List ScanPhaseName) : Degradation :=
  (if .recon ∈ finished then reconGaps env else {}) ++
    (if .authEstablishing ∈ finished then loginGaps env else {})

/-- The scan tells what it told before, the gaps of its finished phases,
and when it is paused that it is not complete. -/
def ToldExactly (env : Environment) (found db : Snapshot) : Prop :=
  told db = told found ++ phaseGaps env (finishedPhases db) ++
    (if db.scan.state = .paused then pauseGap else {})

instance : Apart told where
  scan db scan hdegraded hreasons := by simp only [told, hdegraded, hreasons]

variable {names : List ScanPhaseName} {name : ScanPhaseName} {status : PhaseStatus}
  {x target : ScanState} {machine : ScanStateMachine} {news : Degradation}
  {disk session : Snapshot} {G : Snapshot → Snapshot → Prop} {E : RunError → Prop}

/-! ## What the logins tell -/

/-- One login tells its own gap. -/
theorem establishStep_tells (env : Environment) (acc : Nat × Dict) (persona : Persona) :
    wp G (establishStep env acc persona) (fun a d s => d = disk ∧
      told s = told session ++ loginGap env persona ∧
      a.1 = acc.1 + if (env.establishPersona persona).available then 1 else 0) E disk session := by
  simp only [establishStep, wp_bind, wp_point, wp_modify]
  by_cases havailable : (env.establishPersona persona).available
  · by_cases horacle : (env.establishPersona persona).sessionOracle = none
    · simp only [havailable, horacle, Bool.not_true, Bool.false_eq_true, if_false, if_true, wp_bind,
        wp_modify, wp_pure, loginGap, and_self, true_and, and_true]
      exact told_degrade _ _
    · simp only [havailable, horacle, Bool.not_true, Bool.false_eq_true, if_false, if_true, wp_bind,
        wp_modify, wp_pure, loginGap, and_false, true_and, and_true, Degradation.append_none]
      rfl
  · simp only [havailable, Bool.not_false, if_true, Bool.false_eq_true, if_false, wp_pure, loginGap,
      false_and, true_and, and_true, Degradation.append_none, Nat.add_zero]
    rfl

/-- The logins tell their gaps in their order. -/
theorem establishAll_tells (env : Environment) (acc : Nat × Dict) (personas : List Persona) :
    wp G (personas.foldlM (establishStep env) acc) (fun a d s => d = disk ∧
      told s = told session ++ .all (personas.map (loginGap env)) ∧
      a.1 = acc.1 + personas.countP fun p => (env.establishPersona p).available) E disk session := by
  induction personas generalizing acc session with
  | nil => simp [Degradation.all]
  | cons persona personas ih =>
    rw [List.foldlM_cons]
    refine wp_seq (wp_mono (establishStep_tells env acc persona) (fun a d s hs => ?_)
      fun _ he => he)
    obtain ⟨rfl, htold, hcount⟩ := hs
    refine wp_mono (ih a) (fun b d s hs => ?_) fun _ he => he
    obtain ⟨rfl, htold', hcount'⟩ := hs
    have hall : Degradation.all ((persona :: personas).map (loginGap env)) =
        loginGap env persona ++ .all (personas.map (loginGap env)) :=
      Degradation.foldl_append (loginGap env persona) _
    refine ⟨rfl, ?_, ?_⟩
    · rw [htold', htold, hall, Degradation.append_assoc]
    · rw [hcount', hcount, List.countP_cons, Nat.add_assoc]
      congr 1
      exact Nat.add_comm _ _

/-- Where nobody logged in, the logins tell nothing. -/
theorem all_loginGap_of_none {env : Environment} {personas : List Persona}
    (h : personas.countP (fun p => (env.establishPersona p).available) = 0) :
    Degradation.all (personas.map (loginGap env)) = {} := by
  have hnone : ∀ gap ∈ personas.map (loginGap env), gap = {} := by
    intro gap hgap
    obtain ⟨p, hp, rfl⟩ := List.mem_map.mp hgap
    have hfailed := List.countP_eq_zero.mp h p hp
    simp [loginGap, hfailed]
  rw [List.eq_replicate_of_mem hnone]
  generalize (personas.map (loginGap env)).length = n
  induction n with
  | zero => rfl
  | succ n ih => exact ih

theorem runAuthEstablishing_tells (env : Environment) (hconfigured : env.configuredPersonas ≠ []) :
    wp G (runAuthEstablishing env) (fun a d s => d = disk ∧
      told s = told session ++ .all (env.configuredPersonas.map (loginGap env)) ∧
      a.1 = env.configuredPersonas.countP fun p => (env.establishPersona p).available)
      E disk session := by
  rw [runAuthEstablishing, if_neg hconfigured]
  refine wp_seq ((wp_point _).mpr (wp_seq ?_))
  refine wp_mono (establishAll_tells env (0, []) env.configuredPersonas) (fun a d s hs => ?_)
    fun _ he => he
  simpa using hs

/-! ## The phases -/

variable {env : Environment} {found : Snapshot}

/-- The target that was loaded is not scannable. -/
def Unscannable (env : Environment) : Prop :=
  ∃ target, env.target = some target ∧ target.isScannable = false

/-- Every commit tells exactly, and blocks the scan for no other target. -/
structure Exact (env : Environment) (found : Snapshot) (_ next : Snapshot) : Prop where
  told : ToldExactly env found next
  gate : next.scan.state = .blockedUnverified → Unscannable env

theorem Rested.exact (h : Rested told names x machine (told found ++ phaseGaps env names) session)
    (hrunning : x ≠ .paused ∧ x ≠ .blockedUnverified) : Exact env found disk session where
  told := by
    rw [ToldExactly, h.seen, h.finishedPhases, h.between.state, if_neg hrunning.1,
      Degradation.append_none]
  gate hblocked := absurd (h.between.state.symm.trans hblocked) hrunning.2

theorem Busy.exact
    (h : Busy told names name status x machine (told found ++ phaseGaps env names) session)
    (hstatus : status = .running ∨ status = .failed) (hrunning : x ≠ .paused)
    (hgate : x = .blockedUnverified → Unscannable env) : Exact env found disk session where
  told := by
    rw [ToldExactly, h.seen, h.finishedPhases hstatus, h.within.state, if_neg hrunning,
      Degradation.append_none]
  gate hblocked := hgate (h.within.state.symm.trans hblocked)

/-- Ending a scan whose phase failed. -/
theorem Busy.commit_failed
    (h : Busy told names name .failed x machine (told found ++ phaseGaps env names) session)
    (hrunning : x ≠ .paused) (hgate : x = .blockedUnverified → Unscannable env) (now : Instant)
    {α : Type} {r : α} {Q : α → Snapshot → Snapshot → Prop} (hQ : ∀ d s, Q r d s) :
    wp (Exact env found) (do
      Program.modify (Snapshot.finishScan now)
      Program.commit
      pure r : ScanProgram α) Q E disk session := by
  simp only [wp_bind, wp_modify, wp_commit, wp_pure]
  have hended : Busy told names name .failed x machine (told found ++ phaseGaps env names)
      (session.finishScan now) :=
    ⟨⟨h.within.machine, h.within.state, h.within.rows⟩, h.seen⟩
  exact ⟨hended.exact (Or.inr rfl) hrunning hgate, hQ _ _⟩

theorem scopeVerifying_exact {target : Target} (htarget : env.target = some target)
    (h : Rested told [] .queued machine (told found) session) :
    wp (Exact env found) (scopeVerifying env target machine)
      (fun r _ s => ∀ m ∈ r, Rested told [.scopeVerifying] .scopeVerifying m (told found) s)
      RunError.NotMachine disk session := by
  have hnone : told found = told found ++ phaseGaps env [] := by simp [phaseGaps]
  have hfirst : told found = told found ++ phaseGaps env [.scopeVerifying] := by simp [phaseGaps]
  refine wp_seq (h.create (by decide) fun s h => ?_)
  refine wp_seq (h.enter (by decide) fun m s h => ?_)
  refine wp_seq (h.start _ fun s h => ?_)
  split
  · next hgate =>
    have hunscannable : Unscannable env := ⟨target, htarget, by simpa using hgate⟩
    refine wp_seq (h.enter (by decide) fun m' s h => ?_)
    refine wp_seq (h.fail _ _ _ fun s h => ?_)
    rw [hnone] at h
    exact h.commit_failed (by decide) (fun _ => hunscannable) _ fun _ _ m hm => by cases hm
  · refine wp_seq (h.finish _ _ _ (Or.inl rfl) fun s h => ?_)
    have hexact : Rested told [.scopeVerifying] .scopeVerifying m
        (told found ++ phaseGaps env [.scopeVerifying]) s := hfirst ▸ h
    refine wp_seq ((wp_commit _).mpr ⟨hexact.exact (by decide), ?_⟩)
    simpa using h

/-- RECON tells which tools are missing. -/
theorem recon_exact (env : Environment)
    (h : Rested told [.scopeVerifying] .scopeVerifying machine (told found) session) :
    wp (Exact env found) (recon env machine)
      (fun m _ s => Rested told [.scopeVerifying, .recon] .recon m (told found ++ reconGaps env) s)
      RunError.NotMachine disk session := by
  have hbefore : told found = told found ++ phaseGaps env [.scopeVerifying] := by simp [phaseGaps]
  have hafter : reconGaps env = phaseGaps env [.scopeVerifying, .recon] := by simp [phaseGaps]
  refine wp_seq (h.create (by decide) fun s h => ?_)
  refine wp_seq (h.enter (by decide) fun m s h => ?_)
  refine wp_seq (h.start _ fun s h => ?_)
  have hstarted := h
  rw [hbefore] at hstarted
  refine wp_seq ((wp_commit _).mpr ⟨hstarted.exact (Or.inl rfl) (by decide) (fun hx => by cases hx), ?_⟩)
  refine wp_seq ((wp_point _).mpr ?_)
  refine wp_seq (h.calm (Keeps.modify (Snapshot.addAssets_progress _)) (Keeps.modify fun _ => rfl)
    fun _ s h => ?_)
  refine wp_seq (h.finish _ _ _ (Or.inl rfl) fun s h => ?_)
  refine wp_seq ((wp_modify _ _).mpr ?_)
  have htold : Rested told [.scopeVerifying, .recon] .recon m (told found ++ reconGaps env)
      (if env.recon.degraded then s.degrade env.recon.notes else s) := by
    rw [reconGaps]
    split
    · exact ⟨⟨h.between.machine, h.between.state, h.between.names, h.between.finished⟩,
        (told_degrade _ _).trans (congrArg (· ++ _) h.seen)⟩
    · exact ⟨h.between, h.seen.trans (Degradation.append_none _).symm⟩
  have hexact := htold
  rw [hafter] at hexact
  refine wp_seq ((wp_commit _).mpr ⟨hexact.exact (by decide), ?_⟩)
  simpa using htold

theorem logIn_exact (env : Environment) (hkey : ¬ (env.kmsMasterKey = [] ∧ env.configuredPersonas ≠ []))
    (hconfigured : env.configuredPersonas ≠ [])
    (h : Busy told [.scopeVerifying, .recon] .authEstablishing .running .authEstablishing machine
      (told found ++ reconGaps env) session) :
    wp (Exact env found) (logIn env machine 2)
      (fun r _ s => ∀ sessions ∈ r, Rested told authDone .authEstablishing machine
        (told found ++ reconGaps env ++ loginGaps env) s) RunError.NotMachine disk session := by
  have hgaps : loginGaps env = .all (env.configuredPersonas.map (loginGap env)) := by
    rw [loginGaps, if_neg hkey, if_neg hconfigured]
  have hlogins : wp (Exact env found) (withBrowser (runAuthEstablishing env)) (fun a d s =>
      d = disk ∧ told s = told session ++ loginGaps env ∧
        (a.1 = 0 → loginGaps env = {})) RunError.NotMachine disk session := by
    refine wp_withBrowser (wp_mono (runAuthEstablishing_tells env hconfigured) (fun a d s hs => ?_)
      fun _ he => he)
    obtain ⟨rfl, htold, hcount⟩ := hs
    refine ⟨rfl, hgaps ▸ htold, fun hnobody => ?_⟩
    rw [hgaps]
    exact all_loginGap_of_none (hcount.symm.trans hnobody)
  rw [h.seen] at hlogins
  refine wp_seq (h.works (P := fun a news => news = told found ++ reconGaps env ++ loginGaps env ∧
    (a.1 = 0 → loginGaps env = {})) (calm_withBrowser (calm_runAuthEstablishing env)) hlogins
    fun a s news hnews h => ?_)
  obtain ⟨rfl, hnobody⟩ := hnews
  dsimp only
  split
  · next havailable =>
    have hsame : told found ++ reconGaps env ++ loginGaps env =
        told found ++ phaseGaps env [.scopeVerifying, .recon] := by
      rw [hnobody havailable, Degradation.append_none]
      simp [phaseGaps]
    rw [hsame] at h
    refine wp_seq (h.enter (by decide) fun m s h => ?_)
    refine wp_seq (h.fail _ _ _ fun s h => ?_)
    exact h.commit_failed (by decide) (fun hx => by cases hx) _ fun _ _ m hm => by cases hm
  · refine wp_seq (h.finish _ _ _ (Or.inl rfl) fun s h => ?_)
    simpa using h

/-- Telling a reason within a phase. -/
theorem Busy.degrade (h : Busy told names name status x machine news session) (reasons : List Str) :
    Busy told names name status x machine (news ++ ⟨true, reasons⟩) (session.degrade reasons) :=
  ⟨⟨h.within.machine, h.within.state, h.within.rows⟩,
    (told_degrade _ _).trans (congrArg (· ++ _) h.seen)⟩

/-- AUTH_ESTABLISHING tells who was not logged in, and why. -/
theorem authBranches_exact (env : Environment)
    (h : Busy told [.scopeVerifying, .recon] .authEstablishing .running .authEstablishing machine
      (told found ++ reconGaps env) session) :
    wp (Exact env found) (authBranches env machine 2)
      (fun r _ s => ∀ sessions ∈ r, Rested told authDone .authEstablishing machine
        (told found ++ reconGaps env ++ loginGaps env) s) RunError.NotMachine disk session := by
  unfold authBranches
  split
  · next hkey =>
    have hgaps : loginGaps env = ⟨true, [noMasterKeyNote]⟩ := by rw [loginGaps, if_pos hkey]
    refine wp_seq ((wp_modify _ _).mpr ?_)
    refine wp_seq ((h.degrade _).finish _ _ _ (Or.inr ⟨rfl, rfl⟩) fun s h => ?_)
    simpa [hgaps] using h
  · next hkey =>
    split
    · next hnone =>
      have hgaps : loginGaps env = ⟨true, [noPersonasNote]⟩ := by
        rw [loginGaps, if_neg hkey, if_pos hnone]
      refine wp_seq ((wp_modify _ _).mpr ?_)
      refine wp_seq ((h.degrade _).finish _ _ _ (Or.inl rfl) fun s h => ?_)
      simpa [hgaps] using h
    · next hsome => exact logIn_exact env hkey hsome h

theorem unseen_sharedSetup (env : Environment) : Unseen told (sharedSetup env) :=
  (Keeps.point _).bind fun _ => (Keeps.point _).bind fun _ => (Keeps.point _).bind fun _ =>
    Keeps.modify fun _ => rfl

/-- The gaps once AUTH_ESTABLISHING is finished, whatever comes behind. -/
theorem phaseGaps_authDone (env : Environment) {names : List ScanPhaseName}
    (h : authDone ⊆ names) : phaseGaps env names = reconGaps env ++ loginGaps env := by
  have hrecon : ScanPhaseName.recon ∈ names := h (by decide)
  have hauth : ScanPhaseName.authEstablishing ∈ names := h (by decide)
  rw [phaseGaps, if_pos hrecon, if_pos hauth]

theorem authEstablishing_exact (env : Environment)
    (h : Rested told [.scopeVerifying, .recon] .recon machine (told found ++ reconGaps env) session) :
    wp (Exact env found) (authEstablishing env machine)
      (fun r _ s => ∀ next ∈ r, Rested told authDone .crawling next.1
        (told found ++ phaseGaps env authDone) s) RunError.NotMachine disk session := by
  have hbefore : reconGaps env = phaseGaps env [.scopeVerifying, .recon] := by simp [phaseGaps]
  refine wp_seq (h.calm (calm_sharedSetup env) (unseen_sharedSetup env) fun _ s h => ?_)
  refine wp_seq (h.create (by decide) fun s h => ?_)
  refine wp_seq (h.enter (by decide) fun m s h => ?_)
  refine wp_seq (h.start _ fun s h => ?_)
  have hstarted := h
  rw [hbefore] at hstarted
  refine wp_seq ((wp_commit _).mpr ⟨hstarted.exact (Or.inl rfl) (by decide) (fun hx => by cases hx), ?_⟩)
  refine wp_seq (wp_mono (authBranches_exact env h) (fun r d s h => ?_) fun _ he => he)
  cases r with
  | none => simp
  | some sessions =>
    have hdone := h sessions rfl
    rw [Degradation.append_assoc, ← phaseGaps_authDone env (List.Subset.refl authDone)] at hdone
    refine wp_seq (hdone.enter (by decide) fun m s h => ?_)
    refine wp_seq ((wp_commit _).mpr ⟨h.exact (by decide), ?_⟩)
    simpa using h

theorem unseen_runCrawling (env : Environment) (sessions : Dict) :
    Unseen told (withBrowser (runCrawling env sessions)) := by
  refine (Keeps.point _).bind fun _ => (Keeps.point _).bind fun _ => Keeps.bind ?_ fun _ =>
    (Keeps.point _).bind fun _ => (Keeps.point _).bind fun _ => (Keeps.point _).bind fun _ =>
      Keeps.pure _ _
  refine (Keeps.point _).bind fun _ => Keeps.foldlM (fun surfaces persona => ?_) _ _
  unfold crawlStep
  split
  · exact Keeps.pure _ _
  · exact (Keeps.point _).bind fun _ => Keeps.pure _ _

theorem crawling_exact (env : Environment) (sessions : Dict)
    (h : Rested told authDone .crawling machine (told found ++ phaseGaps env authDone) session) :
    wp (Exact env found) (crawling env machine sessions)
      (fun r _ s => Rested told [.scopeVerifying, .recon, .authEstablishing, .crawling]
        .surfaceMapping r.1 (told found ++ phaseGaps env authDone) s) RunError.NotMachine
      disk session := by
  have hgaps : phaseGaps env authDone =
      phaseGaps env [.scopeVerifying, .recon, .authEstablishing, .crawling] := by simp [phaseGaps]
  refine wp_seq (h.create (by decide) fun s h => ?_)
  refine wp_seq (h.start _ fun s h => ?_)
  refine wp_seq ((wp_commit _).mpr ⟨h.exact (Or.inl rfl) (by decide) (fun hx => by cases hx), ?_⟩)
  refine wp_seq (h.calm (calm_withBrowser (calm_runCrawling env sessions))
    (unseen_runCrawling env sessions) fun r s h => ?_)
  refine wp_seq (h.finish _ _ _ (Or.inl rfl) fun s h => ?_)
  refine wp_seq (h.enter (by decide) fun m s h => ?_)
  have hdone := h
  rw [hgaps] at hdone
  refine wp_seq ((wp_commit _).mpr ⟨Rested.exact hdone (by decide), ?_⟩)
  simpa using h

/-- A paused scan tells that it is not complete. -/
theorem exact_of_paused (hstate : session.scan.state = .paused)
    (htold : told session =
      told found ++ phaseGaps env (finishedPhases session) ++ pauseGap) :
    Exact env found disk session where
  told := by rw [ToldExactly, htold, if_pos hstate]
  gate hblocked := by rw [hstate] at hblocked; cases hblocked

section

variable [PyRuntime]

/-- The merge tells nothing. -/
theorem mergeLoop_silent (total : MergeStats) (surfaces : List SurfaceMap) :
    Keeps told RunError.NotMachine (surfaces.foldlM totalStep total) := by
  refine Keeps.foldlM (fun total surface => ?_) total surfaces
  have hscan := (mergeSurfaceMap_keeps surface).coarsen fun scan =>
    (⟨scan.isDegraded, scan.degradedReasons⟩ : Degradation)
  exact hscan.bind fun _ => Keeps.pure _ _

/-- The pause tells that the scan is not complete. -/
theorem surfaceMapping_exact (env : Environment) (surfaces : List SurfaceMap)
    (h : Rested told [.scopeVerifying, .recon, .authEstablishing, .crawling] .surfaceMapping machine
      (told found ++ phaseGaps env authDone) session) :
    wp (Exact env found) (surfaceMapping env machine surfaces) (fun _ _ _ => True)
      RunError.NotMachine disk session := by
  have hgaps : phaseGaps env authDone =
      phaseGaps env [.scopeVerifying, .recon, .authEstablishing, .crawling] := by simp [phaseGaps]
  refine wp_seq (h.create (by decide) fun s h => ?_)
  refine wp_seq (h.start _ fun s h => ?_)
  have hstarted := h
  rw [hgaps] at hstarted
  refine wp_seq ((wp_commit _).mpr ⟨hstarted.exact (Or.inl rfl) (by decide) (fun hx => by cases hx), ?_⟩)
  refine wp_seq (h.works (P := fun _ news => news = told found ++ phaseGaps env authDone)
    (calm_mergeLoop _ _) ((mergeLoop_silent _ _).wp fun _ s htold => ⟨rfl, htold.trans h.seen⟩)
    fun total s news hnews h => ?_)
  obtain rfl := hnews
  refine wp_seq (h.finish _ _ _ (Or.inl rfl) fun s h => ?_)
  have hpause : machine.canTransition .paused = true := by
    simp [ScanStateMachine.canTransition, ScanStateMachine.isTerminal, terminalStates,
      h.between.machine]
  have hok := ScanStateMachine.transition_ok none hpause
  simp only [Worker.enter, hok, Except.mapError, wp_bind, wp_ofExcept, wp_modify, wp_commit, wp_pure,
    and_true]
  have hgaps : phaseGaps env authDone = phaseGaps env (finishedPhases s) := by
    rw [h.finishedPhases, phaseGaps_authDone env (List.Subset.refl authDone),
      phaseGaps_authDone env (by simp [authDone])]
  refine exact_of_paused rfl ((told_degrade _ _).trans (congrArg (· ++ pauseGap) ?_))
  exact h.seen.trans (congrArg (told found ++ ·) hgaps)

theorem runPhases_exact {target : Target} (htarget : env.target = some target)
    (h : Rested told [] .queued machine (told found) session) :
    wp (Exact env found) (runPhases env target machine) (fun _ _ _ => True) RunError.NotMachine
      disk session := by
  refine wp_seq (wp_mono (scopeVerifying_exact htarget h) (fun r d s h => ?_) fun _ he => he)
  cases r with
  | none => simp
  | some m =>
    refine wp_seq (wp_mono (recon_exact env (h m rfl)) (fun m d s h => ?_) fun _ he => he)
    refine wp_seq (wp_mono (authEstablishing_exact env h) (fun r d s h => ?_) fun _ he => he)
    cases r with
    | none => simp
    | some next =>
      refine wp_seq (wp_mono (crawling_exact env next.2 (h next rfl)) (fun r d s h => ?_)
        fun _ he => he)
      exact surfaceMapping_exact env r.2 h

theorem runScan_exact (env : Environment) (hstate : found.scan.state = .queued)
    (hphases : found.scan.phases = []) :
    wp (Exact env found) (runScan env) (fun _ _ _ => True) RunError.NotMachine found found := by
  refine wp_seq ((wp_point _).mpr ?_)
  split
  · simp
  · refine wp_seq ((wp_point _).mpr ?_)
    split
    · simp
    · next target htarget =>
      refine wp_seq ((wp_get _).mpr ?_)
      have h : Rested told [] .queued
          { current := found.scan.state, pausedFrom := found.scan.pausedFrom } (told found) found :=
        ⟨⟨hstate, hstate, by rw [hphases]; rfl, by simp [hphases]⟩, rfl⟩
      refine wp_seq (wp_mono (runPhases_exact htarget h) (fun _ d s _ => ?_) fun _ he => he)
      simp

end

/-! ## The gate -/

/-- The scan as it is blocked: one failed phase and an end; all else is as
it was found. -/
def blocked (clock : Clock) (found : Snapshot) : Snapshot :=
  let row : ScanPhase := {
    name := .scopeVerifying
    status := .failed
    startedAt := some (clock.phaseStarted .scopeVerifying)
    finishedAt := some (clock.phaseFinished .scopeVerifying)
    error := some "Target is not scannable (ownership/authorization gate failed).".toList }
  { found with
    scan := { found.scan with
      state := .blockedUnverified, phases := [row], finishedAt := some clock.scanFinished } }

/-- The commit of the block is the only one. -/
def OnlyBlocks (env : Environment) (found : Snapshot) (disk next : Snapshot) : Prop :=
  disk = found ∧ next = blocked env.clock found

/-- Entering a successor changes the state and nothing else. -/
theorem wp_enter (hlinear : target ∈ linearTransitions x) (hmachine : machine.current = x)
    {Q : ScanStateMachine → Snapshot → Snapshot → Prop}
    (hQ : ∀ m, m.current = target →
      Q m disk (session.modifyScan fun scan => { scan with state := target })) :
    wp G (enter machine target) Q E disk session := by
  have hok := ScanStateMachine.transition_ok none (canTransition_of_linear hlinear hmachine)
  simp only [enter, hok, Except.mapError, wp_bind, wp_ofExcept, wp_modify, wp_pure]
  exact hQ _ rfl

theorem scopeVerifying_blocks {target : Target} (hgate : target.isScannable = false)
    (hmachine : machine.current = .queued) (hphases : found.scan.phases = []) :
    wp (OnlyBlocks env found) (scopeVerifying env target machine) (fun r _ _ => r = none) E
      found found := by
  refine wp_seq ?_
  simp only [getOrCreatePhase, wp_bind, wp_get, hphases, List.findIdx?_nil, wp_modify, wp_point,
    wp_pure, List.length_nil]
  refine wp_enter (x := .queued) (by decide) hmachine fun m hm => ?_
  simp only [startPhase, wp_bind, wp_modify, wp_point, hgate, Bool.not_false, if_true]
  refine wp_enter (x := .scopeVerifying) (by decide) hm fun m' hm' => ?_
  simp only [finishPhase, wp_bind, wp_modify, wp_point, wp_commit, wp_pure, and_true]
  refine ⟨rfl, ?_⟩
  simp [blocked, Snapshot.finishScan, Snapshot.modifyScan, Snapshot.modifyPhase, hphases]

variable [PyRuntime]

theorem runScan_blocks {target : Target} (htarget : env.target = some target)
    (hgate : target.isScannable = false) (hstate : found.scan.state = .queued)
    (hphases : found.scan.phases = []) :
    wp (OnlyBlocks env found) (runScan env) (fun _ _ _ => True) E found found := by
  refine wp_seq ((wp_point _).mpr ?_)
  split
  · simp
  · refine wp_seq ((wp_point _).mpr ?_)
    rw [htarget]
    refine wp_seq ((wp_get _).mpr (wp_seq (wp_seq ?_)))
    refine wp_mono (scopeVerifying_blocks hgate hstate hphases) (fun r d s hr => ?_) fun _ he => he
    rw [hr]
    simp

/-! ## Successive runs -/

variable {db : Snapshot}

theorem report_exact (a : ScanAttempt) (hstate : db.scan.state = .queued)
    (hphases : db.scan.phases = []) :
    List.IsChain (Exact a.env db) (db :: (a.report db).committed) :=
  attempt_isChain (runScan_exact a.env hstate hphases) a.stop

/-- **What a scan tells of its gaps.** For any attempts at a QUEUED scan,
however they end, one of them makes all commits, and every commit tells
what the scan told before, the gaps of the phases that are finished in it,
and nothing else. -/
theorem told_exactly (hstate : db.scan.state = .queued) (hphases : db.scan.phases = [])
    (attempts : List ScanAttempt) :
    committedBy db attempts = [] ∨
      ∃ a ∈ attempts, ∀ c ∈ committedBy db attempts, ToldExactly a.env db c := by
  refine (committedBy_one attempts hstate).imp_right ?_
  rintro ⟨a, ha, hall⟩
  refine ⟨a, ha, ?_⟩
  rw [hall]
  exact forall_of_isChain (fun _ _ h => h.told) (report_exact a hstate hphases)

omit [PyRuntime] in
/-- Without personas, and ended in the crawl: the scan says that it crawls
as nobody, and a later attempt adds nothing. -/
theorem bareTarget_told :
    let _ := PyRuntime.ascii
    let attempts : List ScanAttempt := [⟨bareTarget, some 32⟩, ⟨bareTarget, none⟩]
    ((committedBy {} attempts).map told).getLast? = some ⟨true, [noPersonasNote]⟩ ∧
      ∃ a ∈ attempts, ∀ c ∈ committedBy {} attempts, ToldExactly a.env {} c := by
  intro runtime attempts
  exact ⟨by decide +kernel, (told_exactly rfl rfl attempts).resolve_left (by decide +kernel)⟩

/-- The report of an attempt on a target that is not scannable. -/
theorem report_blocks {a : ScanAttempt} (hgate : Unscannable a.env)
    (hstate : db.scan.state = .queued) (hphases : db.scan.phases = []) :
    (a.report db).committed = [] ∨ (a.report db).committed = [blocked a.env.clock db] := by
  obtain ⟨target, htarget, hgate⟩ := hgate
  have hwp : wp (OnlyBlocks a.env db) (runScan a.env) (fun _ _ _ => True) (fun _ => True) db db :=
    runScan_blocks htarget hgate hstate hphases
  have hchain : List.IsChain (OnlyBlocks a.env db) (db :: (a.report db).committed) :=
    attempt_isChain hwp a.stop
  cases hcommitted : (a.report db).committed with
  | nil => exact Or.inl rfl
  | cons c rest =>
    rw [hcommitted, List.isChain_cons_cons] at hchain
    obtain ⟨⟨-, rfl⟩, hrest⟩ := hchain
    cases rest with
    | nil => exact Or.inr rfl
    | cons c' rest =>
      have hsame := (List.isChain_cons_cons.mp hrest).1.1
      have hstates : ScanState.blockedUnverified = db.scan.state :=
        congrArg (fun s => s.scan.state) hsame
      rw [hstate] at hstates
      cases hstates

/-- **A scan of a target that is not scannable** is blocked and touches
nothing else. For any attempts at a QUEUED scan, however they end, one of
them makes all commits: if its target is not scannable there is one
commit, the block, and otherwise no commit blocks the scan. -/
theorem unscannable_untouched (hstate : db.scan.state = .queued) (hphases : db.scan.phases = [])
    (attempts : List ScanAttempt) :
    committedBy db attempts = [] ∨
      ∃ a ∈ attempts,
        (Unscannable a.env → committedBy db attempts = [blocked a.env.clock db]) ∧
        (¬ Unscannable a.env →
          ∀ c ∈ committedBy db attempts, c.scan.state ≠ .blockedUnverified) := by
  rcases committedBy_one attempts hstate with hnone | ⟨a, ha, hall⟩
  · exact Or.inl hnone
  · by_cases hgate : Unscannable a.env
    · have hblocks := report_blocks hgate hstate hphases
      rw [← hall] at hblocks
      exact hblocks.imp_right fun hone => ⟨a, ha, fun _ => hone, fun hnot => absurd hgate hnot⟩
    · refine Or.inr ⟨a, ha, fun h => absurd h hgate, fun _ => ?_⟩
      rw [hall]
      exact forall_of_isChain (P := fun c => c.scan.state ≠ .blockedUnverified)
        (fun _ _ h hblocked => hgate (h.gate hblocked)) (report_exact a hstate hphases)

omit [PyRuntime] in
/-- The target's ownership is not verified: two attempts leave the block. -/
theorem unverified_untouched :
    let _ := PyRuntime.ascii
    let env := { bareTarget with target := some ⟨[], "acme.test".toList, false, true⟩ }
    committedBy {} [⟨env, none⟩, ⟨env, none⟩] = [blocked {} {}] := by
  intro runtime env
  have hgate : Unscannable env := ⟨_, rfl, rfl⟩
  have hstate : ({} : Snapshot).scan.state = .queued := rfl
  rcases unscannable_untouched hstate rfl [⟨env, none⟩, ⟨env, none⟩] with
    hnone | ⟨a, ha, hblocks, -⟩
  · exact absurd hnone (by decide +kernel)
  · have henv : a.env = env := by
      simp only [List.mem_cons, List.not_mem_nil, or_false, or_self] at ha
      rw [ha]
    have hall := hblocks (henv ▸ hgate)
    rw [henv] at hall
    exact hall

end Sentinel.Worker
