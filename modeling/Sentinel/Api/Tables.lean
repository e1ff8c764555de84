/-
Sentinel.Api.Tables — the rows the control plane reads and writes, and the
statements it runs on them.

A table is the list of its rows, in the order a `SELECT` returns them.
An `INSERT` is refused if the primary key is taken or a value does not fit
its column. Columns the API neither reads nor writes are left out, and so
are the time stamps of the rows.
-/
import Sentinel.Db.Finding
import Sentinel.Db.Scan
import Sentinel.Worker.AuthAdapter

namespace Sentinel.Api

open Sentinel.Py Sentinel.Core

/-- `uuid.UUID`. -/
abbrev Uuid := BitVec 128

/-- `str(u)`. -/
def Uuid.text (u : Uuid) : Str :=
  let hex := hexPad 32 u.toNat
  join "-".toList [hex.take 8, (hex.drop 8).take 4, (hex.drop 12).take 4, (hex.drop 16).take 4,
    hex.drop 20]

/-- A JSON column that is only passed on, as its text. -/
abbrev Json := Str

inductive OwnershipVerificationMethod where
  | dnsTxt
  | wellKnownFile
  | metaTag
  deriving DecidableEq, Repr

inductive LoginStrategy where
  | form
  | oauthRedirect
  | saml
  | apiToken
  | harReplay
  | manualSession
  deriving DecidableEq, Repr

inductive CredentialKind where
  | password
  | totpSecret
  | apiToken
  | sessionImport
  deriving DecidableEq, Repr

inductive FindingSeverity where
  | critical
  | high
  | medium
  | low
  | info
  deriving DecidableEq, Repr

inductive FindingStatus where
  | isOpen
  | fixed
  | regressed
  | acceptedRisk
  | falsePositive
  deriving DecidableEq, Repr

/-! ## Rows -/

structure Organization where
  id : Uuid
  wrappedDataKey : Str
  deriving DecidableEq, Repr

structure Target where
  id : Uuid
  organizationId : Uuid
  rootDomain : Str
  displayName : Str
  isProduction : Bool := true
  ownershipVerified : Bool := false
  ownershipVerificationMethod : Option OwnershipVerificationMethod := none
  ownershipVerificationToken : Option Str := none
  ownershipVerifiedAt : Option Db.Instant := none
  authorizationAccepted : Bool := false
  authorizationAcceptedAt : Option Db.Instant := none
  deriving DecidableEq, Repr

/-- `Target.is_scannable`. -/
def Target.isScannable (t : Target) : Bool := t.ownershipVerified && t.authorizationAccepted

/-- A `scope_rules` row; `kind` and `effect` are text columns. -/
structure ScopeRule where
  id : Uuid
  targetId : Uuid
  kind : Str
  pattern : Str
  effect : Str
  label : Str := []
  deriving DecidableEq, Repr

structure Credential where
  id : Uuid
  kind : CredentialKind
  ciphertext : Str
  deriving DecidableEq, Repr

structure Persona where
  id : Uuid
  targetId : Uuid
  label : Str
  roleName : Str
  trustRank : Int := 0
  tenantKey : Option Str := none
  credentialId : Option Uuid := none
  loginStrategy : Option LoginStrategy := none
  loginRecipe : Option Worker.RawRecipe := none
  expectedDenied : List Str := []
  isAvailable : Bool := true
  unavailableReason : Option Str := none
  deriving DecidableEq, Repr

structure Scan where
  id : Uuid
  targetId : Uuid
  triggeredBy : Str := "manual".toList
  state : ScanState := .queued
  failReason : Option Str := none
  isDegraded : Bool := false
  degradedReasons : List Str := []
  startedAt : Option Db.Instant := none
  finishedAt : Option Db.Instant := none
  llmTokenBudget : Int := 200000
  llmTokensUsed : Int := 0
  deriving DecidableEq, Repr

/-- A `scan_phases` row: what the worker writes, and its scan. -/
structure ScanPhase where
  scanId : Uuid
  progress : Db.ScanPhase
  deriving DecidableEq, Repr

structure Finding where
  id : Uuid
  scanId : Uuid
  fingerprint : Str
  ruleId : Str
  title : Str
  cwe : List Int
  owaspTop10 : Option Str
  cvssVector : Option Str
  severity : FindingSeverity
  confidence : Db.FindingConfidence
  status : FindingStatus
  narrative : Str
  remediation : Json
  reproduction : Json
  deriving DecidableEq, Repr

structure Evidence where
  findingId : Uuid
  transcriptId : Str
  role : Str
  note : Str
  deriving DecidableEq, Repr

structure Verification where
  findingId : Uuid
  reproducedCount : Int
  attemptedCount : Int
  passed : Bool
  deriving DecidableEq, Repr

/-! ## Column types -/

/-- What a `VARCHAR(n)` column keeps of a text: PostgreSQL has no NUL in
text, and of what is too long it cuts off blanks only. -/
def storeVarchar (n : Nat) (s : Str) : Option Str :=
  if s.contains '\x00' || !(s.drop n).all (· == ' ') then none else some (s.take n)

/-- A value in an `INTEGER` column. -/
def fitsInteger (n : Int) : Bool := -2 ^ 31 ≤ n && n < 2 ^ 31

/-- The texts in a stored recipe. -/
def recipeTexts (r : Worker.RawRecipe) : List Str :=
  r.startUrl.toList ++ r.strategy.toList ++
    (r.successAssertion.toList.flatMap fun a => a.kind.toList ++ a.value.toList) ++
    ((r.steps.getD []).flatMap fun step =>
      step.action.toList ++ step.selector.toList ++ step.value.toList ++ step.credentialRef.toList)

/-- Rows of a table with a primary key, and what the columns keep of one. -/
class Row (α : Type) where
  id : α → Uuid
  store : α → Option α
  store_id : ∀ {row kept : α}, store row = some kept → id kept = id row

def Target.store (t : Target) : Option Target := do
  let rootDomain ← storeVarchar 255 t.rootDomain
  let displayName ← storeVarchar 200 t.displayName
  return { t with rootDomain, displayName }

def ScopeRule.store (r : ScopeRule) : Option ScopeRule := do
  let kind ← storeVarchar 20 r.kind
  let pattern ← storeVarchar 500 r.pattern
  let effect ← storeVarchar 10 r.effect
  let label ← storeVarchar 200 r.label
  return { r with kind, pattern, effect, label }

def Persona.store (p : Persona) : Option Persona := do
  let label ← storeVarchar 200 p.label
  let roleName ← storeVarchar 100 p.roleName
  let tenantKey ← p.tenantKey.mapM (storeVarchar 200)
  let texts := p.expectedDenied ++ p.loginRecipe.toList.flatMap recipeTexts
  if fitsInteger p.trustRank && texts.all (!·.contains '\x00') then
    return { p with label, roleName, tenantKey }
  else none

def Scan.store (s : Scan) : Option Scan := do
  let triggeredBy ← storeVarchar 50 s.triggeredBy
  return { s with triggeredBy }

theorem Target.store_keeps {t kept : Target} (h : t.store = some kept) :
    kept.id = t.id ∧ kept.organizationId = t.organizationId := by
  simp only [Target.store, Option.bind_eq_bind, Option.bind_eq_some_iff, Option.pure_def,
    Option.some.injEq] at h
  obtain ⟨_, _, _, _, rfl⟩ := h
  exact ⟨rfl, rfl⟩

theorem ScopeRule.store_keeps {r kept : ScopeRule} (h : r.store = some kept) :
    kept.id = r.id ∧ kept.targetId = r.targetId := by
  simp only [ScopeRule.store, Option.bind_eq_bind, Option.bind_eq_some_iff, Option.pure_def,
    Option.some.injEq] at h
  obtain ⟨_, _, _, _, _, _, _, _, rfl⟩ := h
  exact ⟨rfl, rfl⟩

theorem Persona.store_keeps {p kept : Persona} (h : p.store = some kept) :
    kept.id = p.id ∧ kept.targetId = p.targetId ∧ kept.credentialId = p.credentialId := by
  simp only [Persona.store, Option.bind_eq_bind, Option.bind_eq_some_iff, Option.pure_def] at h
  obtain ⟨_, _, _, _, _, _, h⟩ := h
  split at h
  · obtain rfl := Option.some.inj h
    exact ⟨rfl, rfl, rfl⟩
  · exact nomatch h

theorem Scan.store_keeps {s kept : Scan} (h : s.store = some kept) :
    kept.id = s.id ∧ kept.targetId = s.targetId := by
  simp only [Scan.store, Option.bind_eq_bind, Option.bind_eq_some_iff, Option.pure_def,
    Option.some.injEq] at h
  obtain ⟨_, _, rfl⟩ := h
  exact ⟨rfl, rfl⟩

instance : Row Target := ⟨Target.id, Target.store, fun h => (Target.store_keeps h).1⟩

instance : Row ScopeRule := ⟨ScopeRule.id, ScopeRule.store, fun h => (ScopeRule.store_keeps h).1⟩

instance : Row Credential := ⟨Credential.id, some, fun h => by rw [Option.some.inj h]⟩

instance : Row Persona := ⟨Persona.id, Persona.store, fun h => (Persona.store_keeps h).1⟩

instance : Row Scan := ⟨Scan.id, Scan.store, fun h => (Scan.store_keeps h).1⟩

/-! ## The database -/

structure Database where
  organizations : List Organization := []
  targets : List Target := []
  scopeRules : List ScopeRule := []
  credentials : List Credential := []
  personas : List Persona := []
  scans : List Scan := []
  phases : List ScanPhase := []
  findings : List Finding := []
  evidence : List Evidence := []
  verifications : List Verification := []
  deriving DecidableEq, Repr

/-- `INSERT`; `none` for an integrity or a data error. -/
def insertRow {α : Type} [Row α] (row : α) (rows : List α) : Option (List α) :=
  if rows.any fun r => Row.id r == Row.id row then none
  else (Row.store row).map fun kept => rows ++ [kept]

/-- `session.get` and `session.refresh`: the row of a primary key. -/
def rowById {α : Type} [Row α] (id : Uuid) (rows : List α) : Option α :=
  rows.find? fun r => Row.id r == id

namespace Database

/-- `session.get(Organization, id)`. -/
def organization (db : Database) (id : Uuid) : Option Organization :=
  db.organizations.find? (·.id == id)

/-- `select(Target).where(Target.organization_id == org)`. -/
def targetsOf (db : Database) (org : Uuid) : List Target :=
  db.targets.filter (·.organizationId == org)

def scopeRulesOf (db : Database) (target : Uuid) : List ScopeRule :=
  db.scopeRules.filter (·.targetId == target)

def personasOf (db : Database) (target : Uuid) : List Persona :=
  db.personas.filter (·.targetId == target)

/-- `selectinload(Scan.phases)`. -/
def withPhases (db : Database) (scan : Scan) : Scan × List Db.ScanPhase :=
  (scan, (db.phases.filter (·.scanId == scan.id)).map (·.progress))

def scansOf (db : Database) (target : Uuid) : List (Scan × List Db.ScanPhase) :=
  (db.scans.filter (·.targetId == target)).map db.withPhases

/-- `select(Scan).where(Scan.id == id)`. -/
def scansById (db : Database) (id : Uuid) : List (Scan × List Db.ScanPhase) :=
  (db.scans.filter (·.id == id)).map db.withPhases

/-- `select(Scan).join(Target, Scan.target_id == Target.id)` with
`Scan.id == id` and `Target.organization_id == org`. -/
def scansJoinedTo (db : Database) (org id : Uuid) : List Scan :=
  (db.scans.filter (·.id == id)).flatMap fun scan =>
    (db.targets.filter fun t => t.id == scan.targetId && t.organizationId == org).map fun _ => scan

/-- `selectinload(Finding.evidence)` and `selectinload(Finding.verification)`. -/
def withEvidence (db : Database) (finding : Finding) :
    Finding × List Evidence × Option Verification :=
  (finding, db.evidence.filter (·.findingId == finding.id),
    db.verifications.find? (·.findingId == finding.id))

def findingsOf (db : Database) (scan : Uuid) :
    List (Finding × List Evidence × Option Verification) :=
  (db.findings.filter (·.scanId == scan)).map db.withEvidence

def insertTarget (t : Target) (db : Database) : Option Database :=
  (insertRow t db.targets).map fun rows => { db with targets := rows }

def insertScopeRule (r : ScopeRule) (db : Database) : Option Database :=
  (insertRow r db.scopeRules).map fun rows => { db with scopeRules := rows }

def insertCredential (c : Credential) (db : Database) : Option Database :=
  (insertRow c db.credentials).map fun rows => { db with credentials := rows }

def insertPersona (p : Persona) (db : Database) : Option Database :=
  (insertRow p db.personas).map fun rows => { db with personas := rows }

def insertScan (s : Scan) (db : Database) : Option Database :=
  (insertRow s db.scans).map fun rows => { db with scans := rows }

/-- `UPDATE targets SET ... WHERE targets.id = id`. -/
def updateTarget (id : Uuid) (change : Target → Target) (db : Database) : Database :=
  { db with targets := db.targets.map fun t => if t.id = id then change t else t }

end Database

example : Uuid.text 0x0123456789abcdef0123456789abcdef#128 =
    "01234567-89ab-cdef-0123-456789abcdef".toList := by decide +kernel

end Sentinel.Api
