/-
Sentinel.Platform.State — the API and the workers on one database.

Requests arrive, wait and finish, and may overlap. A worker takes up a scan
by the text it was dispatched under, and its commits come one by one, with
requests in between. What `run_scan` commits depends on the row and the
target it loads and on what it meets outside, so the commits of an execution
are known when it takes the scan up. It may end at any moment, and the scan
may be taken up again.

One execution at a time works on a scan; those that overlap are the
subject of `Sentinel.Worker.SharedScan`. The persona columns that logins
write are not rows of a scan and are left out.
-/
import Sentinel.Api.Overlapping
import Sentinel.Worker.Onward

namespace Sentinel.Platform

open Sentinel.Py Sentinel.Core Sentinel.Trace
open Sentinel.Api (Uuid Database)
open Sentinel.Worker (ScanAttempt Onward)

/-! ## The state -/

/-- The columns and rows of a scan that no response shows. -/
structure Unshown where
  pausedFrom : Option ScanState := none
  assets : List Db.Asset := []
  endpoints : List Db.Endpoint := []

/-- The API, the ids handed to the broker, and for each scan the commits that
are still to come of the execution that works on it. -/
structure State extends Api.Serving where
  unshown : Uuid → Unshown := fun _ => {}
  dispatched : List Str := []
  working : Uuid → Option (List Db.Snapshot) := fun _ => none

/-- What a commit assigns to the row of the scan. -/
def writeScan (scan : Db.Scan) (row : Api.Scan) : Api.Scan :=
  { row with state := scan.state, isDegraded := scan.isDegraded,
             degradedReasons := scan.degradedReasons, finishedAt := scan.finishedAt }

namespace State

/-- The row of a scan with its phases, as a worker loads it. -/
def scanRow (st : State) (row : Api.Scan) : Db.Scan where
  state := row.state
  pausedFrom := (st.unshown row.id).pausedFrom
  isDegraded := row.isDegraded
  degradedReasons := row.degradedReasons
  finishedAt := row.finishedAt
  phases := (st.db.withPhases row).2

/-- What the session of a worker finds of a scan. -/
def snapshot (st : State) (row : Api.Scan) : Db.Snapshot where
  scan := st.scanRow row
  assets := (st.unshown row.id).assets
  endpoints := (st.unshown row.id).endpoints

/-- What a response shows of a scan. -/
def shown (st : State) (row : Api.Scan) : Api.ScanOut := .of row (st.db.withPhases row).2

def setWorking (st : State) (id : Uuid) (commits : Option (List Db.Snapshot)) : State :=
  { st with working := fun i => if i = id then commits else st.working i }

/-- A commit of the execution that works on the scan. -/
def write (st : State) (id : Uuid) (s : Db.Snapshot) : State :=
  { st with
    db := { st.db with
      scans := st.db.scans.map fun row => if row.id = id then writeScan s.scan row else row
      phases := st.db.phases.filter (·.scanId ≠ id) ++ s.scan.phases.map fun p => ⟨id, p⟩ }
    unshown := fun i => if i = id then ⟨s.scan.pausedFrom, s.assets, s.endpoints⟩
      else st.unshown i }

/-- The target that is loaded for a scan. -/
def targetOf (st : State) (row : Api.Scan) : Option Api.Target :=
  Api.rowById row.targetId st.db.targets

/-- The attempt, with the rows it loads. -/
def load (st : State) (row : Api.Scan) (attempt : ScanAttempt) : ScanAttempt :=
  { attempt with env := { attempt.env with
      scanFound := true
      target := (st.targetOf row).map Api.Target.read } }

end State

/-! ## Events -/

inductive Event where
  | api (moment : Api.Moment)
  | takeUp (scanId : Str) (attempt : ScanAttempt)
  | commit (scan : Uuid)
  | leave (scan : Uuid)

namespace State

variable [PyRuntime]

/-- A worker takes up a scan that was dispatched. -/
def takeUp (st : State) (scanId : Str) (attempt : ScanAttempt) : State :=
  match (Api.uuidOfText scanId).bind (Api.rowById · st.db.scans) with
  | some row =>
      if scanId ∈ st.dispatched ∧ (st.working row.id).isNone then
        st.setWorking row.id (some ((st.load row attempt).report (st.snapshot row)).committed)
      else st
  | none => st

/-- The next commit of the execution that works on the scan. -/
def commitNext (st : State) (id : Uuid) : State :=
  match st.working id with
  | some (s :: rest) => (st.write id s).setWorking id (some rest)
  | some [] | none => st

def act (st : State) : Event → Option Api.Answered × State
  | .api moment =>
      let served := st.toServing.act moment
      (served.1,
        { st with toServing := served.2,
                  dispatched := st.dispatched ++ (served.1.map (·.exchange.dispatched)).getD [] })
  | .takeUp scanId attempt => (none, st.takeUp scanId attempt)
  | .commit id => (none, st.commitNext id)
  | .leave id => (none, st.setWorking id none)

end State

/-- An event that has happened. -/
abbrev Happened := Entry State Event (Option Api.Answered)

/-- The ids that an event draws are not taken. -/
def State.Admits (st : State) : Event → Prop
  | .api moment => st.toServing.Admits moment
  | .takeUp .. | .commit .. | .leave .. => True

def Happened.Fresh (e : Happened) : Prop := e.before.Admits e.call

instance (st : State) (e : Event) : Decidable (st.Admits e) :=
  match e with
  | .api moment => inferInstanceAs (Decidable (st.toServing.Admits moment))
  | .takeUp .. | .commit .. | .leave .. => isTrue trivial

instance (e : Happened) : Decidable e.Fresh := inferInstanceAs (Decidable (e.before.Admits e.call))

/-! ## Rows -/

variable {st : State} {id : Uuid} {row : Api.Scan} {s : Db.Snapshot}

@[simp] theorem scanRow_setWorking (commits : Option (List Db.Snapshot)) :
    (st.setWorking id commits).scanRow row = st.scanRow row := rfl

/-- The rows of other scans stay as they are. -/
theorem withPhases_write_other (h : row.id ≠ id) :
    (st.write id s).db.withPhases row = st.db.withPhases row := by
  have hold : (st.db.phases.filter (·.scanId ≠ id)).filter (·.scanId == row.id) =
      st.db.phases.filter (·.scanId == row.id) := by
    rw [List.filter_filter]
    refine List.filter_congr fun p _ => ?_
    by_cases hp : p.scanId = row.id
    · simp [hp, h]
    · simp [hp]
  have hnew : (s.scan.phases.map fun p => (⟨id, p⟩ : Api.ScanPhase)).filter
      (·.scanId == row.id) = [] := by
    rw [List.filter_eq_nil_iff]
    intro p hp
    obtain ⟨q, -, rfl⟩ := List.mem_map.mp hp
    simpa using fun heq => h heq.symm
  show (row, ((_ ++ _ : List Api.ScanPhase).filter _).map _) = _
  rw [List.filter_append, hold, hnew, List.append_nil]
  rfl

theorem scanRow_write_other (h : row.id ≠ id) : (st.write id s).scanRow row = st.scanRow row := by
  have hphases : ((st.write id s).db.withPhases row).2 = (st.db.withPhases row).2 :=
    congrArg Prod.snd (withPhases_write_other h)
  have hunshown : (st.write id s).unshown row.id = st.unshown row.id := if_neg h
  unfold State.scanRow
  rw [hphases, hunshown]

theorem shown_write_other (h : row.id ≠ id) : (st.write id s).shown row = st.shown row := by
  unfold State.shown
  rw [withPhases_write_other h]

/-- The scan that was worked on has the phases of the commit. -/
theorem withPhases_write_same (row : Api.Scan) (h : row.id = id) :
    ((st.write id s).db.withPhases row).2 = s.scan.phases := by
  subst h
  have hold : (st.db.phases.filter (·.scanId ≠ row.id)).filter (·.scanId == row.id) = [] := by
    rw [List.filter_filter, List.filter_eq_nil_iff]
    intro p _
    simp
  have hnew : (s.scan.phases.map fun p => (⟨row.id, p⟩ : Api.ScanPhase)).filter
      (·.scanId == row.id) = s.scan.phases.map fun p => ⟨row.id, p⟩ := by
    rw [List.filter_eq_self]
    intro p hp
    obtain ⟨q, -, rfl⟩ := List.mem_map.mp hp
    simp
  show ((_ ++ _ : List Api.ScanPhase).filter _).map _ = _
  rw [List.filter_append, hold, hnew, List.nil_append, List.map_map]
  exact List.map_id _

/-- The scan that was worked on is what was committed. -/
theorem scanRow_write_same (h : row.id = id) :
    (st.write id s).scanRow (writeScan s.scan row) = s.scan := by
  have hphases : ((st.write id s).db.withPhases (writeScan s.scan row)).2 = s.scan.phases :=
    withPhases_write_same (writeScan s.scan row) h
  have hunshown : (st.write id s).unshown row.id = ⟨s.scan.pausedFrom, s.assets, s.endpoints⟩ :=
    if_pos h
  unfold State.scanRow
  rw [hphases]
  simp only [writeScan]
  rw [hunshown]

/-- A commit makes no scan and removes none. -/
theorem scan_ids_write :
    (st.write id s).db.scans.map (·.id) = st.db.scans.map (·.id) := by
  show (st.db.scans.map _).map _ = _
  rw [List.map_map]
  refine List.map_congr_left fun row _ => ?_
  show (if row.id = id then writeScan s.scan row else row).id = row.id
  split <;> rfl

/-- A commit keeps the keys in order. -/
theorem consistent_write (h : st.db.Consistent) (hid : id ∈ st.db.scans.map (·.id)) :
    (st.write id s).db.Consistent := by
  have hids : (st.write id s).db.scans.map (·.id) = st.db.scans.map (·.id) := scan_ids_write
  refine { h with scans_nodup := hids ▸ h.scans_nodup, scan_target := ?_, phase_scan := ?_,
                  finding_scan := fun f hf => hids ▸ h.finding_scan f hf }
  · intro row' hrow'
    obtain ⟨row, hrow, rfl⟩ := List.mem_map.mp hrow'
    have htarget := h.scan_target row hrow
    split <;> exact htarget
  · intro p hp
    rw [hids]
    rcases List.mem_append.mp hp with hp | hp
    · exact h.phase_scan p (List.mem_filter.mp hp).1
    · obtain ⟨q, -, rfl⟩ := List.mem_map.mp hp
      exact hid

end Sentinel.Platform
