/-
Sentinel.Worker.Onward — what is committed of a scan only adds to what was.

`Forward` compares the states of the scan. What the scan tells of its gaps
and the phases it has rows of grow as well, whatever state it was found in:
`run_scan` has no operation that takes any of it back (`rises_runScan`).
Together: `report_onward`.
-/
import Sentinel.Durable.Ascent
import Sentinel.Worker.Degradation

namespace Sentinel.Worker

open Sentinel.Py Sentinel.Core Sentinel.Db Sentinel.Crawler Sentinel.Durable

/-! ## What has been said of a scan -/

/-- The gaps a scan tells of and the phases it has rows of. -/
structure Said where
  degraded : Bool
  reasons : List Str
  phases : List ScanPhaseName

/-- What was said is still said. -/
structure Said.Kept (a b : Said) : Prop where
  degraded : a.degraded = true → b.degraded = true
  reasons : a.reasons <+: b.reasons
  phases : a.phases ⊆ b.phases

instance : Preorder Said where
  le := Said.Kept
  le_refl a := ⟨id, List.prefix_refl _, List.Subset.refl _⟩
  le_trans _ _ _ h h' := ⟨fun hset => h'.degraded (h.degraded hset), h.reasons.trans h'.reasons,
    List.Subset.trans h.phases h'.phases⟩

/-- What the scan has said. -/
def said (scan : Scan) : Said := ⟨scan.isDegraded, scan.degradedReasons, scan.phases.map (·.name)⟩

abbrev OnlyAdds {α : Type} (p : ScanProgram α) : Prop := Rises (fun db => said db.scan) p

/-- A change of the scan that keeps the gaps. -/
theorem onlyAdds_modifyScan {f : Scan → Scan}
    (hdegraded : ∀ scan, (f scan).isDegraded = scan.isDegraded)
    (hreasons : ∀ scan, (f scan).degradedReasons = scan.degradedReasons)
    (hphases : ∀ scan, scan.phases.map (·.name) ⊆ (f scan).phases.map (·.name)) :
    OnlyAdds (Program.modify (Snapshot.modifyScan f)) := by
  refine Rises.modify fun db => Said.Kept.mk ?_ ?_ (hphases db.scan)
  · exact fun hset => (hdegraded db.scan).trans hset
  · show db.scan.degradedReasons <+: (f db.scan).degradedReasons
    rw [hreasons]

theorem names_modify (rows : List ScanPhase) (phase : Nat) {f : ScanPhase → ScanPhase}
    (hname : ∀ row, (f row).name = row.name) :
    (rows.modify phase f).map (·.name) = rows.map (·.name) := by
  apply List.ext_getElem?
  intro i
  rw [List.getElem?_map, List.getElem?_map, List.getElem?_modify]
  cases rows[i]? with
  | none => rfl
  | some row =>
    by_cases hi : phase = i
    · simp [hi, hname]
    · simp [hi]

/-- A change of a phase row that keeps its name. -/
theorem onlyAdds_modifyPhase (phase : Nat) {f : ScanPhase → ScanPhase}
    (hname : ∀ row, (f row).name = row.name) :
    OnlyAdds (Program.modify (Snapshot.modifyPhase phase f)) := by
  refine onlyAdds_modifyScan (fun _ => rfl) (fun _ => rfl) fun scan => ?_
  show _ ⊆ (scan.phases.modify phase f).map (·.name)
  rw [names_modify scan.phases phase hname]
  exact List.Subset.refl _

theorem onlyAdds_degrade (reasons : List Str) (db : Snapshot) :
    said db.scan ≤ said (db.degrade reasons).scan :=
  Said.Kept.mk (fun _ => rfl) (List.prefix_append _ _) (List.Subset.refl _)

theorem onlyAdds_modifyPersona (id : Str) (f : Persona → Persona) :
    OnlyAdds (Program.modify (Snapshot.modifyPersona id f)) :=
  Rises.modify fun db => le_refl (said db.scan)

/-! ## `run_scan` only adds -/

theorem onlyAdds_getOrCreatePhase (name : ScanPhaseName) : OnlyAdds (getOrCreatePhase name) := by
  refine (Rises.get _).bind fun db => ?_
  split
  · exact Rises.pure _ _
  · refine Rises.bind ?_ fun _ => (Rises.point _).bind fun _ => Rises.pure _ _
    refine onlyAdds_modifyScan (fun _ => rfl) (fun _ => rfl) fun scan => ?_
    show _ ⊆ (scan.phases ++ [({ name } : ScanPhase)]).map ScanPhase.name
    rw [List.map_append]
    exact List.subset_append_left _ _

theorem onlyAdds_startPhase (phase : Nat) (now : Instant) : OnlyAdds (startPhase phase now) := by
  refine Rises.bind ?_ fun _ => Rises.point _
  exact onlyAdds_modifyPhase phase fun _ => rfl

theorem onlyAdds_finishPhase (phase : Nat) (now : Instant) (status : PhaseStatus)
    (stats : PhaseStats) (error : Option Str) : OnlyAdds (finishPhase phase now status stats error) := by
  refine Rises.bind ?_ fun _ => Rises.point _
  exact onlyAdds_modifyPhase phase fun _ => rfl

theorem onlyAdds_enter (machine : ScanStateMachine) (target : ScanState) :
    OnlyAdds (enter machine target) := by
  refine (Rises.ofExcept _ _).bind fun m => Rises.bind ?_ fun _ => Rises.pure _ _
  exact onlyAdds_modifyScan (fun _ => rfl) (fun _ => rfl) fun _ => List.Subset.refl _

theorem onlyAdds_finishScan (now : Instant) :
    OnlyAdds (Program.modify (Snapshot.finishScan now) : ScanProgram Unit) :=
  onlyAdds_modifyScan (fun _ => rfl) (fun _ => rfl) fun _ => List.Subset.refl _

theorem onlyAdds_withBrowser {α : Type} {work : ScanProgram α} (h : OnlyAdds work) :
    OnlyAdds (withBrowser work) := by
  refine (Rises.point _).bind fun _ => (Rises.point _).bind fun _ => h.bind fun _ => ?_
  exact (Rises.point _).bind fun _ => (Rises.point _).bind fun _ => (Rises.point _).bind fun _ =>
    Rises.pure _ _

theorem onlyAdds_establishStep (env : Environment) (acc : Nat × Dict) (persona : Persona) :
    OnlyAdds (establishStep env acc persona) := by
  refine (Rises.point _).bind fun _ => ?_
  refine Rises.bind (onlyAdds_modifyPersona _ _) fun _ => ?_
  split
  · exact Rises.pure _ _
  · refine Rises.bind (onlyAdds_modifyPersona _ _) fun _ => ?_
    refine (Rises.modify fun db => ?_).bind fun _ => Rises.pure _ _
    split
    · exact onlyAdds_degrade _ db
    · exact le_refl _

theorem onlyAdds_runAuthEstablishing (env : Environment) : OnlyAdds (runAuthEstablishing env) := by
  unfold runAuthEstablishing
  split
  · exact Rises.pure _ _
  · refine (Rises.point _).bind fun _ => ?_
    refine (Rises.foldlM (onlyAdds_establishStep env) _ _).bind fun _ => ?_
    exact (Rises.point _).bind fun _ => Rises.pure _ _

theorem onlyAdds_runCrawling (env : Environment) (sessions : Dict) :
    OnlyAdds (runCrawling env sessions) := by
  refine (Rises.point _).bind fun _ => Rises.foldlM (fun surfaces persona => ?_) _ _
  unfold crawlStep
  split
  · exact Rises.pure _ _
  · exact (Rises.point _).bind fun _ => Rises.pure _ _

theorem onlyAdds_scopeVerifying (env : Environment) (target : Target) (machine : ScanStateMachine) :
    OnlyAdds (scopeVerifying env target machine) := by
  refine (onlyAdds_getOrCreatePhase _).bind fun phase => (onlyAdds_enter _ _).bind fun machine => ?_
  refine (onlyAdds_startPhase _ _).bind fun _ => ?_
  split
  · refine (onlyAdds_enter _ _).bind fun _ => (onlyAdds_finishPhase _ _ _ _ _).bind fun _ => ?_
    exact (onlyAdds_finishScan _).bind fun _ => (Rises.commit _).bind fun _ => Rises.pure _ _
  · refine (onlyAdds_finishPhase _ _ _ _ _).bind fun _ => ?_
    exact (Rises.commit _).bind fun _ => Rises.pure _ _

theorem onlyAdds_recon (env : Environment) (machine : ScanStateMachine) :
    OnlyAdds (recon env machine) := by
  refine (onlyAdds_getOrCreatePhase _).bind fun phase => (onlyAdds_enter _ _).bind fun machine => ?_
  refine (onlyAdds_startPhase _ _).bind fun _ => (Rises.commit _).bind fun _ => ?_
  refine (Rises.point _).bind fun _ => Rises.bind ?_ fun _ => ?_
  · exact Rises.modify fun db => le_refl (said db.scan)
  refine (onlyAdds_finishPhase _ _ _ _ _).bind fun _ => ?_
  refine (Rises.modify fun db => ?_).bind fun _ => (Rises.commit _).bind fun _ => Rises.pure _ _
  split
  · exact onlyAdds_degrade _ db
  · exact le_refl _

theorem onlyAdds_logIn (env : Environment) (machine : ScanStateMachine) (phase : Nat) :
    OnlyAdds (logIn env machine phase) := by
  refine (onlyAdds_withBrowser (onlyAdds_runAuthEstablishing env)).bind fun result => ?_
  dsimp only
  split
  · refine (onlyAdds_enter _ _).bind fun _ => (onlyAdds_finishPhase _ _ _ _ _).bind fun _ => ?_
    exact (onlyAdds_finishScan _).bind fun _ => (Rises.commit _).bind fun _ => Rises.pure _ _
  · exact (onlyAdds_finishPhase _ _ _ _ _).bind fun _ => Rises.pure _ _

theorem onlyAdds_authBranches (env : Environment) (machine : ScanStateMachine) (phase : Nat) :
    OnlyAdds (authBranches env machine phase) := by
  unfold authBranches
  split
  · refine (Rises.modify (onlyAdds_degrade _)).bind fun _ => ?_
    exact (onlyAdds_finishPhase _ _ _ _ _).bind fun _ => Rises.pure _ _
  · split
    · refine (Rises.modify (onlyAdds_degrade _)).bind fun _ => ?_
      exact (onlyAdds_finishPhase _ _ _ _ _).bind fun _ => Rises.pure _ _
    · exact onlyAdds_logIn env machine phase

theorem onlyAdds_sharedSetup (env : Environment) : OnlyAdds (sharedSetup env) :=
  (Rises.point _).bind fun _ => (Rises.point _).bind fun _ => (Rises.point _).bind fun _ =>
    Rises.modify fun _ => le_refl _

theorem onlyAdds_authEstablishing (env : Environment) (machine : ScanStateMachine) :
    OnlyAdds (authEstablishing env machine) := by
  refine (onlyAdds_sharedSetup env).bind fun _ => (onlyAdds_getOrCreatePhase _).bind fun phase => ?_
  refine (onlyAdds_enter _ _).bind fun machine => (onlyAdds_startPhase _ _).bind fun _ => ?_
  refine (Rises.commit _).bind fun _ => ?_
  refine (onlyAdds_authBranches env machine phase).bind fun sessions => ?_
  cases sessions with
  | none => exact Rises.pure _ _
  | some sessions =>
    exact (onlyAdds_enter _ _).bind fun _ => (Rises.commit _).bind fun _ => Rises.pure _ _

theorem onlyAdds_crawling (env : Environment) (machine : ScanStateMachine) (sessions : Dict) :
    OnlyAdds (crawling env machine sessions) := by
  refine (onlyAdds_getOrCreatePhase _).bind fun phase => (onlyAdds_startPhase _ _).bind fun _ => ?_
  refine (Rises.commit _).bind fun _ => ?_
  refine (onlyAdds_withBrowser (onlyAdds_runCrawling env sessions)).bind fun surfaces => ?_
  refine (onlyAdds_finishPhase _ _ _ _ _).bind fun _ => (onlyAdds_enter _ _).bind fun _ => ?_
  exact (Rises.commit _).bind fun _ => Rises.pure _ _

variable [PyRuntime]

theorem onlyAdds_surfaceMapping (env : Environment) (machine : ScanStateMachine)
    (surfaces : List SurfaceMap) : OnlyAdds (surfaceMapping env machine surfaces) := by
  refine (onlyAdds_getOrCreatePhase _).bind fun phase => (onlyAdds_startPhase _ _).bind fun _ => ?_
  refine (Rises.commit _).bind fun _ => Rises.bind ?_ fun total => ?_
  · refine Rises.foldlM (fun total surface => ?_) _ _
    exact ((mergeSurfaceMap_keeps surface).coarsen said).rises.bind fun _ => Rises.pure _ _
  · refine (onlyAdds_finishPhase _ _ _ _ _).bind fun _ => (onlyAdds_enter _ _).bind fun _ => ?_
    refine Rises.bind ?_ fun _ => (Rises.modify (onlyAdds_degrade _)).bind fun _ => Rises.commit _
    exact onlyAdds_modifyScan (fun _ => rfl) (fun _ => rfl) fun _ => List.Subset.refl _

/-- **`run_scan` only adds** to what is said of the scan, in whatever state
it finds it. -/
theorem rises_runScan (env : Environment) : OnlyAdds (runScan env) := by
  refine (Rises.point _).bind fun _ => ?_
  split
  · exact Rises.pure _ _
  · refine (Rises.point _).bind fun _ => ?_
    split
    · exact Rises.pure _ _
    · refine (Rises.get _).bind fun db => Rises.bind ?_ fun _ => Rises.point _
      refine (onlyAdds_scopeVerifying env _ _).bind fun verified => ?_
      cases verified with
      | none => exact Rises.pure _ _
      | some machine =>
        refine (onlyAdds_recon env machine).bind fun machine => ?_
        refine (onlyAdds_authEstablishing env machine).bind fun established => ?_
        cases established with
        | none => exact Rises.pure _ _
        | some established =>
          obtain ⟨machine, sessions⟩ := established
          refine (onlyAdds_crawling env machine sessions).bind fun crawled => ?_
          exact onlyAdds_surfaceMapping env crawled.1 crawled.2

/-! ## Attempts -/

/-- A commit leaves neither a terminal state nor PAUSED, does not queue the
scan again, comes no earlier in the lifecycle and takes nothing back. -/
structure Onward (disk next : Scan) : Prop where
  live : disk.state ∉ terminalStates
  running : disk.state ≠ .paused
  started : next.state ≠ .queued
  le : lifecycleRank disk.state disk.pausedFrom ≤ lifecycleRank next.state next.pausedFrom
  adds : said disk ≤ said next

/-- **The commits of an attempt go onward**, whatever state it finds. -/
theorem report_onward (a : ScanAttempt) (db : Snapshot) :
    List.IsChain Onward (db.scan :: (a.report db).committed.map (·.scan)) := by
  by_cases hqueued : db.scan.state = .queued
  · have hforward := report_forward a hqueued
    have hadds : List.IsChain (fun s s' => said s.scan ≤ said s'.scan)
        (db :: (a.report db).committed) := (rises_runScan a.env).attempt a.stop db
    have hmap : db.scan :: (a.report db).committed.map (·.scan) =
        (db :: (a.report db).committed).map (·.scan) := rfl
    rw [hmap, List.isChain_map]
    rw [List.isChain_iff_getElem] at hforward hadds ⊢
    intro i hi
    have h := hforward i hi
    exact ⟨h.live, h.running, h.started, h.le, hadds i hi⟩
  · rw [committed_of_refused a hqueued]
    exact List.isChain_singleton _

end Sentinel.Worker
