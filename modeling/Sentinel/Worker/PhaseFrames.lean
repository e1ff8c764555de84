/-
Sentinel.Worker.PhaseFrames — what a run of `run_scan` says of its session
beside the phase rows.

A view of the session that sees neither the state of the scan nor its
phase rows is not changed where these are. `Rested` and `Busy` are
`Between` and `Within` with the value of such a view; the steps between
them keep it, and other work is described by what it makes of it.
-/
import Sentinel.Worker.ScanPhases

namespace Sentinel.Worker

open Sentinel.Py Sentinel.Core Sentinel.Db Sentinel.Crawler Sentinel.Durable

/-! ## Views -/

/-- The view sees of the scan at most what it tells of its gaps. -/
class Apart {τ : Type} (view : Snapshot → τ) : Prop where
  scan : ∀ (db : Snapshot) (scan : Scan), scan.isDegraded = db.scan.isDegraded →
    scan.degradedReasons = db.scan.degradedReasons → view { db with scan := scan } = view db

variable {τ : Type} {view : Snapshot → τ} {v : τ}

/-- Work the view does not see. -/
abbrev Unseen {α : Type} (view : Snapshot → τ) (p : ScanProgram α) : Prop :=
  Keeps view (fun _ => True) p

section

variable (view) [Apart view]

theorem unseen_modifyScan (f : Scan → Scan)
    (hdegraded : ∀ scan, (f scan).isDegraded = scan.isDegraded)
    (hreasons : ∀ scan, (f scan).degradedReasons = scan.degradedReasons) :
    Unseen view (Program.modify (Snapshot.modifyScan f)) :=
  Keeps.modify fun db => Apart.scan db (f db.scan) (hdegraded _) (hreasons _)

theorem unseen_getOrCreatePhase (name : ScanPhaseName) : Unseen view (getOrCreatePhase name) := by
  refine (Keeps.get _).bind fun db => ?_
  split
  · exact Keeps.pure _ _
  · refine Keeps.bind ?_ fun _ => (Keeps.point _).bind fun _ => Keeps.pure _ _
    exact unseen_modifyScan view _ (fun _ => rfl) fun _ => rfl

theorem unseen_startPhase (phase : Nat) (now : Instant) : Unseen view (startPhase phase now) := by
  refine Keeps.bind ?_ fun _ => Keeps.point _
  exact unseen_modifyScan view _ (fun _ => rfl) fun _ => rfl

theorem unseen_finishPhase (phase : Nat) (now : Instant) (status : PhaseStatus)
    (stats : PhaseStats) (error : Option Str) :
    Unseen view (finishPhase phase now status stats error) := by
  refine Keeps.bind ?_ fun _ => Keeps.point _
  exact unseen_modifyScan view _ (fun _ => rfl) fun _ => rfl

theorem unseen_enter (machine : ScanStateMachine) (target : ScanState) :
    Unseen view (enter machine target) := by
  refine Keeps.bind ?_ fun m => Keeps.bind ?_ fun _ => Keeps.pure _ _
  · cases (machine.transition target).mapError RunError.machine with
    | ok m => exact Keeps.pure _ m
    | error e => exact Keeps.raise _ trivial
  · exact unseen_modifyScan view _ (fun _ => rfl) fun _ => rfl

end

/-! ## Between and within phases -/

/-- Between two phases, and what the view shows. -/
structure Rested (view : Snapshot → τ) (names : List ScanPhaseName) (x : ScanState)
    (machine : ScanStateMachine) (v : τ) (session : Snapshot) : Prop where
  between : Between names x machine session
  seen : view session = v

/-- Within a phase, and what the view shows. -/
structure Busy (view : Snapshot → τ) (names : List ScanPhaseName) (name : ScanPhaseName)
    (status : PhaseStatus) (x : ScanState) (machine : ScanStateMachine) (v : τ)
    (session : Snapshot) : Prop where
  within : Within names name status x machine session
  seen : view session = v

variable {names : List ScanPhaseName} {name : ScanPhaseName} {status : PhaseStatus}
  {x target : ScanState} {machine : ScanStateMachine}
  {disk session : Snapshot} {G : Snapshot → Snapshot → Prop} {E : RunError → Prop}

section

variable [Apart view]

/-- Creating the row of the next phase. -/
theorem Rested.create (h : Rested view names x machine v session) (hnew : name ∉ names)
    {Q : Nat → Snapshot → Snapshot → Prop}
    (hQ : ∀ s, Busy view names name .pending x machine v s → Q names.length disk s) :
    wp G (getOrCreatePhase name) Q E disk session := by
  have hrow : wp G (getOrCreatePhase name)
      (fun phase d s => d = disk ∧ phase = names.length ∧ Within names name .pending x machine s)
      E disk session := h.between.create hnew fun s hs => ⟨rfl, rfl, hs⟩
  refine (unseen_getOrCreatePhase view name).frame hrow fun phase s hs hseen => ?_
  obtain ⟨rfl, hwithin⟩ := hs
  exact hQ s ⟨hwithin, hseen.trans h.seen⟩

/-- Starting the phase. -/
theorem Busy.start (h : Busy view names name status x machine v session) (now : Instant)
    {Q : Unit → Snapshot → Snapshot → Prop}
    (hQ : ∀ s, Busy view names name .running x machine v s → Q () disk s) :
    wp G (startPhase names.length now) Q E disk session := by
  have hrow : wp G (startPhase names.length now)
      (fun _ d s => d = disk ∧ Within names name .running x machine s) E disk session :=
    h.within.start now fun s hs => ⟨rfl, hs⟩
  exact (unseen_startPhase view _ _).frame hrow fun _ s hs hseen => hQ s ⟨hs, hseen.trans h.seen⟩

/-- Finishing the phase well. -/
theorem Busy.finish (h : Busy view names name status x machine v session) (now : Instant)
    {status' : PhaseStatus} (stats : PhaseStats) (error : Option Str)
    (hstatus : status' = .completed ∨ name = .authEstablishing ∧ status' = .skipped)
    {Q : Unit → Snapshot → Snapshot → Prop}
    (hQ : ∀ s, Rested view (names ++ [name]) x machine v s → Q () disk s) :
    wp G (finishPhase names.length now status' stats error) Q E disk session := by
  have hrow : wp G (finishPhase names.length now status' stats error)
      (fun _ d s => d = disk ∧ Between (names ++ [name]) x machine s) E disk session :=
    h.within.finish now stats error hstatus fun s hs => ⟨rfl, hs⟩
  exact (unseen_finishPhase view _ _ _ _ _).frame hrow fun _ s hs hseen =>
    hQ s ⟨hs, hseen.trans h.seen⟩

/-- Finishing the phase as failed. -/
theorem Busy.fail (h : Busy view names name status x machine v session) (now : Instant)
    (stats : PhaseStats) (error : Option Str) {Q : Unit → Snapshot → Snapshot → Prop}
    (hQ : ∀ s, Busy view names name .failed x machine v s → Q () disk s) :
    wp G (finishPhase names.length now .failed stats error) Q E disk session := by
  have hrow : wp G (finishPhase names.length now .failed stats error)
      (fun _ d s => d = disk ∧ Within names name .failed x machine s) E disk session :=
    h.within.fail now stats error fun s hs => ⟨rfl, hs⟩
  exact (unseen_finishPhase view _ _ _ _ _).frame hrow fun _ s hs hseen =>
    hQ s ⟨hs, hseen.trans h.seen⟩

/-- Entering a successor between two phases. -/
theorem Rested.enter (h : Rested view names x machine v session)
    (hlinear : target ∈ linearTransitions x) {Q : ScanStateMachine → Snapshot → Snapshot → Prop}
    (hQ : ∀ m s, Rested view names target m v s → Q m disk s) :
    wp G (enter machine target) Q E disk session := by
  have hstate : wp G (Worker.enter machine target)
      (fun m d s => d = disk ∧ Between names target m s) E disk session :=
    h.between.enter hlinear fun m s hs => ⟨rfl, hs⟩
  exact (unseen_enter view _ _).frame hstate fun m s hs hseen => hQ m s ⟨hs, hseen.trans h.seen⟩

/-- Entering a successor within a phase. -/
theorem Busy.enter (h : Busy view names name status x machine v session)
    (hlinear : target ∈ linearTransitions x) {Q : ScanStateMachine → Snapshot → Snapshot → Prop}
    (hQ : ∀ m s, Busy view names name status target m v s → Q m disk s) :
    wp G (enter machine target) Q E disk session := by
  have hstate : wp G (Worker.enter machine target)
      (fun m d s => d = disk ∧ Within names name status target m s) E disk session :=
    h.within.enter hlinear fun m s hs => ⟨rfl, hs⟩
  exact (unseen_enter view _ _).frame hstate fun m s hs hseen => hQ m s ⟨hs, hseen.trans h.seen⟩

end

/-- Calm work the view does not see does not matter. -/
theorem Rested.calm {α : Type} {p : ScanProgram α} (h : Rested view names x machine v session)
    (hp : Calm p) (hunseen : Unseen view p) {Q : α → Snapshot → Snapshot → Prop}
    (hQ : ∀ a s, Rested view names x machine v s → Q a disk s) :
    wp G p Q RunError.NotMachine disk session := by
  have hrow : wp G p (fun _ d s => d = disk ∧ Between names x machine s) RunError.NotMachine
      disk session := h.between.calm hp fun _ s hs => ⟨rfl, hs⟩
  exact hunseen.frame hrow fun a s hs hseen => hQ a s ⟨hs, hseen.trans h.seen⟩

/-- Nor does it within a phase. -/
theorem Busy.calm {α : Type} {p : ScanProgram α}
    (h : Busy view names name status x machine v session) (hp : Calm p) (hunseen : Unseen view p)
    {Q : α → Snapshot → Snapshot → Prop}
    (hQ : ∀ a s, Busy view names name status x machine v s → Q a disk s) :
    wp G p Q RunError.NotMachine disk session := by
  have hrow : wp G p (fun _ d s => d = disk ∧ Within names name status x machine s)
      RunError.NotMachine disk session := h.within.calm hp fun _ s hs => ⟨rfl, hs⟩
  exact hunseen.frame hrow fun a s hs hseen => hQ a s ⟨hs, hseen.trans h.seen⟩

/-- Calm work within a phase, by what the view shows then. -/
theorem Busy.works {α : Type} {p : ScanProgram α} {P : α → τ → Prop}
    (h : Busy view names name status x machine v session) (hp : Calm p)
    (hworks : wp G p (fun a d s => d = disk ∧ P a (view s)) RunError.NotMachine disk session)
    {Q : α → Snapshot → Snapshot → Prop}
    (hQ : ∀ a s v', P a v' → Busy view names name status x machine v' s → Q a disk s) :
    wp G p Q RunError.NotMachine disk session := by
  refine hp.frame hworks fun a s hs hview => hQ a s _ hs ⟨⟨h.within.machine, ?_, ?_⟩, rfl⟩
  · have hstate : s.scan.state = session.scan.state := congrArg Prod.fst hview
    exact hstate.trans h.within.state
  · have hphases : s.scan.phases = session.scan.phases := congrArg (fun v => v.2.2.1) hview
    exact hphases ▸ h.within.rows

/-- The browser adds nothing to its work. -/
theorem wp_withBrowser {α : Type} {work : ScanProgram α} {Q : α → Snapshot → Snapshot → Prop}
    (h : wp G work Q E disk session) : wp G (withBrowser work) Q E disk session := by
  refine wp_seq ((wp_point _).mpr (wp_seq ((wp_point _).mpr (wp_seq ?_))))
  refine wp_mono h (fun a d s hs => ?_) fun _ he => he
  simpa using hs

/-! ## What is finished -/

/-- The phases whose row is COMPLETED or SKIPPED. -/
def finishedPhases (db : Snapshot) : List ScanPhaseName :=
  (db.scan.phases.filter fun row => row.status = .completed ∨ row.status = .skipped).map (·.name)

theorem finishedPhases_of_finished {rows : List ScanPhase} (h : ∀ row ∈ rows, Finished row) :
    (rows.filter fun row => row.status = .completed ∨ row.status = .skipped).map (·.name) =
      rows.map ScanPhase.name := by
  rw [List.filter_eq_self.mpr fun row hrow => ?_]
  have hstatus : row.status = .completed ∨ row.status = .skipped :=
    (h row hrow).status.imp_right And.right
  simpa using hstatus

/-- Between two phases all rows are finished. -/
theorem Rested.finishedPhases (h : Rested view names x machine v session) :
    finishedPhases session = names :=
  (finishedPhases_of_finished h.between.finished).trans h.between.names

/-- Within a phase all but its own are. -/
theorem Busy.finishedPhases (h : Busy view names name status x machine v session)
    (hstatus : status = .running ∨ status = .failed) : finishedPhases session = names := by
  obtain ⟨done, row, hphases, hnames, hfinished, -, hrow⟩ := h.within.rows
  have hlast : ¬ (row.status = .completed ∨ row.status = .skipped) := by
    rw [hrow]
    rcases hstatus with rfl | rfl <;> decide
  have hsplit := (finishedPhases_of_finished hfinished).trans hnames
  rw [Worker.finishedPhases, hphases, List.filter_append, List.map_append, hsplit]
  simp [hlast]

/-! ## Successive runs -/

section

variable [PyRuntime] {db : Snapshot}

/-- An attempt that left the scan QUEUED committed nothing. -/
theorem committed_of_queued (a : ScanAttempt) (hstate : db.scan.state = .queued)
    (hnext : (a.next db).scan.state = .queued) : (a.report db).committed = [] := by
  have hstarted := forall_of_isChain (P := fun s => s.scan.state ≠ .queued)
    (fun _ _ h => h.started) (report_forward a hstate)
  rcases persisted_cases (a.report db) db with ⟨hnone, -⟩ | hcommitted
  · exact hnone
  · exact absurd hnext (hstarted _ hcommitted)

/-- Where anything is committed, one attempt commits all of it. -/
theorem committedBy_one (attempts : List ScanAttempt) (hstate : db.scan.state = .queued) :
    committedBy db attempts = [] ∨
      ∃ a ∈ attempts, committedBy db attempts = (a.report db).committed := by
  induction attempts with
  | nil => exact Or.inl rfl
  | cons a attempts ih =>
    have hfirst : committedBy db (a :: attempts) =
        (a.report db).committed ++ committedBy (a.next db) attempts := rfl
    by_cases hnext : (a.next db).scan.state = .queued
    · rw [hfirst, next_of_queued a hstate hnext, committed_of_queued a hstate hnext,
        List.nil_append]
      exact ih.imp_right fun ⟨b, hb, hall⟩ => ⟨b, List.mem_cons_of_mem a hb, hall⟩
    · refine Or.inr ⟨a, List.mem_cons_self, ?_⟩
      rw [hfirst, committedBy_of_not_queued attempts hnext, List.append_nil]

end

end Sentinel.Worker
