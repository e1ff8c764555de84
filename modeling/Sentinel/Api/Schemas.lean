/-
Sentinel.Api.Schemas — `schemas`: what the routes take and what they give
back.

A payload is what pydantic lets through, so the field constraints are part
of its type. A response schema is built from the attributes of a row; what
it does not list does not leave the API.
-/
import Sentinel.Api.Tables

namespace Sentinel.Api

open Sentinel.Py Sentinel.Core

/-! ## Payloads -/

/-- A text with `min_length=1` and `max_length=n`. -/
abbrev BoundedText (n : Nat) := { s : Str // 1 ≤ s.length ∧ s.length ≤ n }

/-- A text with `min_length=1`. -/
abbrev NonEmptyText := { s : Str // 1 ≤ s.length }

structure TargetCreate where
  rootDomain : BoundedText 255
  displayName : BoundedText 200
  isProduction : Bool := true

structure OwnershipChallengeRequest where
  method : OwnershipVerificationMethod

structure AuthorizationAccept where
  accepted : Bool

/-- The values of `pattern=r"^(host|path_prefix|path_regex|method)$"`. -/
def ruleKinds : List Str := ["host", "path_prefix", "path_regex", "method"].map String.toList

/-- The values of `pattern=r"^(include|exclude)$"`. -/
def ruleEffects : List Str := ["include", "exclude"].map String.toList

structure ScopeRuleCreate where
  kind : { s : Str // s ∈ ruleKinds }
  pattern : BoundedText 500
  effect : { s : Str // s ∈ ruleEffects }
  label : Str := []

structure CredentialCreate where
  kind : CredentialKind
  secret : NonEmptyText

inductive LoginAction where
  | goto
  | fill
  | fillSecret
  | click
  | waitForSelector
  | waitForUrl
  deriving DecidableEq, Repr

def LoginAction.text : LoginAction → Str
  | .goto => "goto".toList
  | .fill => "fill".toList
  | .fillSecret => "fill_secret".toList
  | .click => "click".toList
  | .waitForSelector => "wait_for_selector".toList
  | .waitForUrl => "wait_for_url".toList

inductive AssertionKind where
  | urlContains
  | selectorVisible
  | selectorHidden
  deriving DecidableEq, Repr

def AssertionKind.text : AssertionKind → Str
  | .urlContains => "url_contains".toList
  | .selectorVisible => "selector_visible".toList
  | .selectorHidden => "selector_hidden".toList

/-- A duration with `gt=0`. -/
abbrev Duration := { t : Rat // 0 < t }

structure LoginStepIn where
  action : LoginAction
  selector : Option Str := none
  value : Option Str := none
  credentialRef : Option Str := none
  timeoutS : Duration := ⟨10, by decide⟩

structure SuccessAssertionIn where
  kind : AssertionKind
  value : NonEmptyText
  timeoutS : Duration := ⟨10, by decide⟩

/-- `strategy` is `"form"`, the one value it can have. -/
structure LoginRecipeIn where
  startUrl : NonEmptyText
  steps : List LoginStepIn
  steps_length : 1 ≤ steps.length
  successAssertion : SuccessAssertionIn
  maxDurationS : Duration := ⟨30, by decide⟩

def LoginStepIn.modelDump (s : LoginStepIn) : Worker.RawStep :=
  ⟨some s.action.text, s.selector, s.value, s.credentialRef, some s.timeoutS⟩

def SuccessAssertionIn.modelDump (a : SuccessAssertionIn) : Worker.RawAssertion :=
  ⟨some a.kind.text, some a.value, some a.timeoutS⟩

/-- `login_recipe.model_dump()`. -/
def LoginRecipeIn.modelDump (r : LoginRecipeIn) : Worker.RawRecipe :=
  ⟨some r.startUrl, some (r.steps.map LoginStepIn.modelDump), some r.successAssertion.modelDump,
    some "form".toList, some r.maxDurationS⟩

def LoginStepIn.step (s : LoginStepIn) : Auth.LoginStep :=
  ⟨s.action.text, s.selector, s.value, s.credentialRef, s.timeoutS⟩

/-- The recipe the payload stands for. -/
def LoginRecipeIn.recipe (r : LoginRecipeIn) : Auth.LoginRecipe :=
  ⟨r.startUrl, r.steps.map LoginStepIn.step,
    ⟨r.successAssertion.kind.text, r.successAssertion.value, r.successAssertion.timeoutS⟩,
    "form".toList, r.maxDurationS⟩

/-- **Recipes arrive.** The worker builds from the stored dictionary the
recipe that the API was given. -/
theorem buildLoginRecipe_modelDump (r : LoginRecipeIn) :
    Worker.buildLoginRecipe r.modelDump = .ok r.recipe := by
  have hsteps : ∀ steps : List LoginStepIn,
      (steps.map LoginStepIn.modelDump).mapM Worker.buildLoginStep =
        .ok (steps.map LoginStepIn.step) := by
    intro steps
    refine mapM_eq_ok.mpr ?_
    induction steps with
    | nil => exact .nil
    | cons s rest ih => exact .cons rfl ih
  unfold Worker.buildLoginRecipe LoginRecipeIn.modelDump
  simp only [Worker.rawKey, bind, Except.bind, hsteps]
  rfl

structure PersonaCreate where
  label : BoundedText 200
  roleName : BoundedText 100
  trustRank : { n : Int // 0 ≤ n } := ⟨0, by decide⟩
  tenantKey : Option { s : Str // s.length ≤ 200 } := none
  loginStrategy : Option LoginStrategy := none
  credential : Option CredentialCreate := none
  loginRecipe : Option LoginRecipeIn := none
  expectedDenied : List Str := []

structure ScanCreate where
  triggeredBy : Str := "manual".toList

/-! ## Responses -/

structure TargetOut where
  id : Uuid
  rootDomain : Str
  displayName : Str
  isProduction : Bool
  ownershipVerified : Bool
  ownershipVerificationMethod : Option OwnershipVerificationMethod
  ownershipVerifiedAt : Option Db.Instant
  authorizationAccepted : Bool
  isScannable : Bool
  deriving DecidableEq, Repr

def TargetOut.of (t : Target) : TargetOut :=
  ⟨t.id, t.rootDomain, t.displayName, t.isProduction, t.ownershipVerified,
    t.ownershipVerificationMethod, t.ownershipVerifiedAt, t.authorizationAccepted, t.isScannable⟩

structure OwnershipChallengeOut where
  method : OwnershipVerificationMethod
  token : Str
  instructions : Str
  deriving DecidableEq, Repr

structure OwnershipVerifyResult where
  verified : Bool
  detail : Str
  deriving DecidableEq, Repr

structure ScopeRuleOut where
  id : Uuid
  kind : Str
  pattern : Str
  effect : Str
  label : Str
  deriving DecidableEq, Repr

def ScopeRuleOut.of (r : ScopeRule) : ScopeRuleOut := ⟨r.id, r.kind, r.pattern, r.effect, r.label⟩

structure PersonaOut where
  id : Uuid
  label : Str
  roleName : Str
  trustRank : Int
  tenantKey : Option Str
  loginStrategy : Option LoginStrategy
  isAvailable : Bool
  unavailableReason : Option Str
  expectedDenied : List Str
  hasLoginRecipe : Bool
  deriving DecidableEq, Repr

def PersonaOut.of (p : Persona) : PersonaOut :=
  ⟨p.id, p.label, p.roleName, p.trustRank, p.tenantKey, p.loginStrategy, p.isAvailable,
    p.unavailableReason, p.expectedDenied, p.loginRecipe.isSome⟩

/-- `ScanOut`; `ScanPhaseOut` has all that `Db.ScanPhase` has. -/
structure ScanOut where
  id : Uuid
  targetId : Uuid
  state : ScanState
  triggeredBy : Str
  isDegraded : Bool
  degradedReasons : List Str
  failReason : Option Str
  startedAt : Option Db.Instant
  finishedAt : Option Db.Instant
  llmTokensUsed : Int
  llmTokenBudget : Int
  phases : List Db.ScanPhase
  deriving DecidableEq, Repr

def ScanOut.of (s : Scan) (phases : List Db.ScanPhase) : ScanOut :=
  ⟨s.id, s.targetId, s.state, s.triggeredBy, s.isDegraded, s.degradedReasons, s.failReason,
    s.startedAt, s.finishedAt, s.llmTokensUsed, s.llmTokenBudget, phases⟩

structure EvidenceOut where
  transcriptId : Str
  role : Str
  note : Str
  deriving DecidableEq, Repr

structure VerificationOut where
  reproducedCount : Int
  attemptedCount : Int
  passed : Bool
  deriving DecidableEq, Repr

structure FindingOut where
  id : Uuid
  scanId : Uuid
  fingerprint : Str
  ruleId : Str
  title : Str
  cwe : List Int
  owaspTop10 : Option Str
  cvssVector : Option Str
  severity : FindingSeverity
  confidence : Db.FindingConfidence
  status : FindingStatus
  narrative : Str
  remediation : Json
  reproduction : Json
  evidence : List EvidenceOut
  verification : Option VerificationOut
  deriving DecidableEq, Repr

def FindingOut.of (f : Finding) (evidence : List Evidence) (verification : Option Verification) :
    FindingOut :=
  ⟨f.id, f.scanId, f.fingerprint, f.ruleId, f.title, f.cwe, f.owaspTop10, f.cvssVector,
    f.severity, f.confidence, f.status, f.narrative, f.remediation, f.reproduction,
    evidence.map fun e => ⟨e.transcriptId, e.role, e.note⟩,
    verification.map fun v => ⟨v.reproducedCount, v.attemptedCount, v.passed⟩⟩

end Sentinel.Api
