/-
Sentinel.Db.Finding — `sentinel_db.models.finding` under a session.

Findings and verifications are mapped objects (`Orm.Instance`), known by
their position in the session. `Finding.verification` and
`Verification.finding` are two ends of one relationship: setting one sets
the other, as SQLAlchemy's back references do, and a verification that
lost its finding is deleted with the next flush (`delete-orphan`). The
before-flush hook looks at the new and the dirty findings only.
-/
import Sentinel.Orm.UnitOfWork
import Sentinel.Trace.Run
import Sentinel.Py.Text

namespace Sentinel.Db

open Sentinel.Py Sentinel.Orm

inductive FindingConfidence where
  | confirmed
  | probable
  | informational
  deriving DecidableEq, Repr

/-- `MIN_REPRODUCTIONS_FOR_CONFIRMED`. -/
def minReproductionsForConfirmed : Int := 2

/-- A `Finding` in memory. The columns that the hook does not read are
left out; setting one of them only marks the object. -/
structure Finding where
  id : Str
  ruleId : Str
  confidence : FindingConfidence := .probable
  verification : Option Nat := none
  deriving DecidableEq, Repr

structure FindingRow where
  id : Str
  ruleId : Str
  confidence : FindingConfidence
  deriving DecidableEq, Repr

/-- A `Verification` in memory. -/
structure Verification where
  passed : Bool := false
  reproducedCount : Int := 0
  finding : Option Nat := none
  deriving DecidableEq, Repr

/-- A row of `verifications`; `finding_id` may not be null and is unique. -/
structure VerificationRow where
  findingId : Option Nat
  passed : Bool
  reproducedCount : Int
  deriving DecidableEq, Repr

/-- `Verification.satisfies_confirmed`. -/
def Verification.satisfiesConfirmed (v : Verification) : Bool :=
  v.passed && minReproductionsForConfirmed ≤ v.reproducedCount

def Finding.toRow (f : Finding) : FindingRow := ⟨f.id, f.ruleId, f.confidence⟩

def Verification.toRow (v : Verification) : VerificationRow :=
  ⟨v.finding, v.passed, v.reproducedCount⟩

/-- `delete-orphan`: a verification without a finding goes. -/
def Verification.isOrphan (v : Verification) : Bool := v.finding.isNone

/-- A finding loaded from its row. -/
def FindingRow.load (verification : Option Nat) (r : FindingRow) (_ : Finding) : Finding :=
  ⟨r.id, r.ruleId, r.confidence, verification⟩

def VerificationRow.load (r : VerificationRow) (_ : Verification) : Verification :=
  ⟨r.passed, r.reproducedCount, r.findingId⟩

/-- A session with its objects and, in them, the rows they have. -/
structure Session where
  findings : List (Instance Finding FindingRow) := []
  verifications : List (Instance Verification VerificationRow) := []
  deriving DecidableEq, Repr

/-! ## The hook -/

/-- `finding.verification`. -/
def Session.verificationOf (s : Session) (f : Finding) : Option Verification :=
  f.verification.bind fun v => s.verifications[v]?.map Instance.attrs

/-- The CONFIRMED findings among `session.new` and `session.dirty`. -/
def Session.candidates (s : Session) : List Finding :=
  ((s.findings.filter Instance.isNew ++ s.findings.filter Instance.isDirty).map
    Instance.attrs).filter fun f => f.confidence == .confirmed

/-- The candidate the hook stops at. -/
def Session.offender (s : Session) : Option Finding :=
  s.candidates.find? fun f => !(s.verificationOf f).any Verification.satisfiesConfirmed

/-- `_enforce_confirmed_requires_verification`. -/
def Session.enforceConfirmedRequiresVerification [PyRuntime] (s : Session) : Except PyError Unit :=
  match s.offender with
  | none => .ok ()
  | some f =>
      .error (.valueError ("Finding ".toList ++ f.id ++ " (rule=".toList ++ Py.reprStr f.ruleId ++
        ") cannot be persisted with confidence=CONFIRMED without a linked Verification where passed=True and reproduced_count >= ".toList
        ++ ofInt minReproductionsForConfirmed ++
        ". See docs/adr/0001-engine-split-ai-vs-deterministic.md — the LLM never has the last word.".toList))

/-- The hook lets a session through exactly when it has no offender. -/
theorem enforceConfirmedRequiresVerification_ok_iff [PyRuntime] (s : Session) :
    s.enforceConfirmedRequiresVerification = .ok () ↔ s.offender = none := by
  unfold Session.enforceConfirmedRequiresVerification
  cases s.offender with
  | none => exact iff_of_true rfl rfl
  | some f => exact iff_of_false nofun nofun

/-! ## Working in memory -/

def Session.onFinding (s : Session) (i : Nat)
    (g : Instance Finding FindingRow → Instance Finding FindingRow) : Session :=
  { s with findings := s.findings.modify i g }

def Session.onVerification (s : Session) (i : Nat)
    (g : Instance Verification VerificationRow → Instance Verification VerificationRow) : Session :=
  { s with verifications := s.verifications.modify i g }

/-- The object is there and was not deleted. -/
def Session.hasVerification (s : Session) (v : Nat) : Bool :=
  s.verifications[v]?.any fun o => o.state != .gone

def Session.hasFinding (s : Session) (f : Nat) : Bool := s.findings[f]?.any Instance.isLive

/-- What a finding's verification is, by position. -/
def Session.verificationAt (s : Session) (f : Nat) : Option Nat :=
  s.findings[f]?.bind fun o => o.attrs.verification

def Session.findingAt (s : Session) (v : Nat) : Option Nat :=
  s.verifications[v]?.bind fun o => o.attrs.finding

/-- A verification loses the finding `f`, if that is the one it has; a
pending one leaves the session with it. -/
def Session.unlinkVerification (s : Session) (v : Option Nat) (f : Nat) : Session :=
  match v with
  | none => s
  | some v => s.onVerification v fun o =>
      if o.attrs.finding = some f then (o.set fun a => { a with finding := none }).expunge else o

/-- A finding loses the verification `v`, if that is the one it has. -/
def Session.unlinkFinding (s : Session) (f : Option Nat) (v : Nat) : Session :=
  match f with
  | none => s
  | some f => s.onFinding f fun o =>
      if o.attrs.verification = some v then o.set fun a => { a with verification := none } else o

/-- `finding.verification = v`: the finding's former verification is
unlinked, the new one is linked and cascades into the session. The new
one's former finding keeps its reference. -/
def Session.setVerification (s : Session) (f : Nat) (v : Option Nat) : Session :=
  if s.hasFinding f && v.all s.hasVerification then
    let old := s.verificationAt f
    let marked := s.onFinding f fun o => o.set fun a => { a with verification := v }
    if old = v then marked
    else
      let unlinked := marked.unlinkVerification old f
      match v with
      | none => unlinked
      | some v =>
          unlinked.onVerification v fun o => (o.set fun a => { a with finding := some f }).add
  else s

/-- `verification.finding = f`: the former finding and the new finding's
former verification, if it is another one, are unlinked. The verification is
not added to the session by this; a pending one that had a finding leaves
it. -/
def Session.setFinding (s : Session) (v : Nat) (f : Option Nat) : Session :=
  if s.hasVerification v && f.all s.hasFinding then
    let old := s.findingAt v
    let marked := s.onVerification v fun o => o.set fun a => { a with finding := f }
    if old = f then marked
    else
      let moved := if old.isSome then marked.onVerification v Instance.expunge else marked
      let unlinked := moved.unlinkFinding old v
      match f with
      | none => unlinked
      | some f =>
          -- a finding that another one has taken the verification from may refer to it still
          let former := (s.verificationAt f).filter (· ≠ v)
          (unlinked.unlinkVerification former f).onFinding f fun o =>
            o.set fun a => { a with verification := some v }
  else s

/-! ## Flush, commit, rollback -/

/-- The flush statements carried out. -/
def Session.written (s : Session) : Session where
  findings := s.findings.map (Instance.flush Finding.toRow fun _ => false)
  verifications := s.verifications.map (Instance.flush Verification.toRow Verification.isOrphan)

/-- `finding_id` is never null and never taken twice. Deletes come last in
a flush, so a row on its way out still counts. -/
def Session.constraintsHold (s : Session) : Bool :=
  let findingIds := (s.verifications.filterMap
    (Instance.rowBeforeDeletes Verification.toRow Verification.isOrphan)).map
      VerificationRow.findingId
  none ∉ findingIds && findingIds.Nodup

/-- The verification that was committed for a finding. -/
def Session.savedVerification (s : Session) (f : Nat) : Option Nat :=
  s.verifications.findIdx? fun o => o.saved.any fun r => r.findingId = some f

/-- `session.rollback()`: everything is loaded again. -/
def Session.rollback (s : Session) : Session where
  findings := s.findings.mapIdx fun i o =>
    o.rollback (FindingRow.load (s.savedVerification i))
  verifications := s.verifications.map (Instance.rollback VerificationRow.load)

/-- `session.flush()`: the hook may raise, and then nothing is written;
the database may refuse the statements, and then the transaction is
rolled back. -/
def Session.flush [PyRuntime] (s : Session) (dbAccepts : Bool) : Session :=
  match s.enforceConfirmedRequiresVerification with
  | .error _ => s
  | .ok () => if s.constraintsHold && dbAccepts then s.written else s.rollback

/-- `session.commit()`: a flush, and `COMMIT` if it did not raise. -/
def Session.commit [PyRuntime] (s : Session) (dbAccepts : Bool) : Session :=
  match s.enforceConfirmedRequiresVerification with
  | .error _ => s
  | .ok () =>
      let flushed := s.flush dbAccepts
      { findings := flushed.findings.map Instance.commit
        verifications := flushed.verifications.map Instance.commit }

/-! ## Runs -/

/-- The ORM steps of a run. `setColumn` sets a column of a finding that
the hook does not read. -/
inductive OrmStep where
  | createFinding (f : Finding)
  | createVerification (passed : Bool) (reproducedCount : Int)
  | setConfidence (f : Nat) (confidence : FindingConfidence)
  | setColumn (f : Nat)
  | setPassed (v : Nat) (passed : Bool)
  | setReproducedCount (v : Nat) (reproducedCount : Int)
  | addVerification (v : Nat)
  | deleteVerification (v : Nat)
  | setVerification (f : Nat) (v : Option Nat)
  | setFinding (v : Nat) (f : Option Nat)
  | flush (dbAccepts : Bool)
  | commit (dbAccepts : Bool)
  | rollback
  deriving DecidableEq, Repr

/-- One step. A created finding is added to the session, a created
verification is not until it is attached or added. -/
def Session.step [PyRuntime] (s : Session) : OrmStep → Session
  | .createFinding f =>
      { s with findings := s.findings ++ [{ attrs := { f with verification := none }, state := .pending }] }
  | .createVerification passed count =>
      { s with verifications := s.verifications ++ [{ attrs := ⟨passed, count, none⟩ }] }
  | .setConfidence f confidence => s.onFinding f (.set fun a => { a with confidence := confidence })
  | .setColumn f => s.onFinding f (.set fun a => a)
  | .setPassed v passed => s.onVerification v (.set fun a => { a with passed := passed })
  | .setReproducedCount v count =>
      s.onVerification v (.set fun a => { a with reproducedCount := count })
  | .addVerification v => s.onVerification v .add
  | .deleteVerification v => s.onVerification v .delete
  | .setVerification f v => s.setVerification f v
  | .setFinding v f => s.setFinding v f
  | .flush dbAccepts => s.flush dbAccepts
  | .commit dbAccepts => s.commit dbAccepts
  | .rollback => s.rollback

/-! ## The database -/

/-- Every CONFIRMED finding row has a verification row that passed and was
reproduced often enough. -/
def ConfirmedBacked (findings : List (Option FindingRow))
    (verifications : List (Option VerificationRow)) : Prop :=
  ∀ f row, findings[f]? = some (some row) → row.confidence = .confirmed →
    ∃ vrow, some vrow ∈ verifications ∧ vrow.findingId = some f ∧ vrow.passed = true ∧
      minReproductionsForConfirmed ≤ vrow.reproducedCount

/-- The database as the open transaction sees it, and as committed. -/
def Session.DatabaseBacked (s : Session) : Prop :=
  ConfirmedBacked (s.findings.map Instance.row) (s.verifications.map Instance.row) ∧
    ConfirmedBacked (s.findings.map Instance.saved) (s.verifications.map Instance.saved)

end Sentinel.Db
