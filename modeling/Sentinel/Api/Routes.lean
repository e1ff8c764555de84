/-
Sentinel.Api.Routes — `deps`, `services.ownership` and `routers`: one
request to the control plane.

A handler is an action on the database that may fail with an exception and
may hand scans to the broker. FastAPI solves the dependencies of a route
in order and reports the parameters that did not validate after that; a
body that is no JSON it reports before anything else. The outcome of an
ownership check, fresh ids, random texts, the clock and whether the broker
takes a task are the environment's, and so is what pydantic makes of a
parameter.
-/
import Sentinel.Api.Schemas
import Sentinel.Orm.Rows
import Sentinel.Py.Replace
import Sentinel.Tenancy.Isolation

namespace Sentinel.Api

open Sentinel.Py Sentinel.Core Sentinel.Orm Sentinel.Tenancy Sentinel.Tenancy.Action

/-! ## Requests, responses, the environment -/

/-- What pydantic found wrong with the parameters, item by item. -/
abbrev ValidationErrors := List Str

/-- What ends a request early: an `HTTPException`, parameters that did not
validate, a `RuntimeError`, which has a handler, or any other exception. -/
inductive Failure where
  | http (status : Nat) (detail : Str)
  | validation (errors : ValidationErrors)
  | runtimeError (detail : Str)
  | uncaught
  deriving DecidableEq, Repr

/-- A path parameter of type `UUID`, validated. -/
abbrev PathId := Except ValidationErrors Uuid

/-- Why a request body cannot be read: it is no JSON, or reading it raised
something else, as when it is no UTF-8. -/
inductive Unreadable where
  | noJson (errors : ValidationErrors)
  | unparsed

def Unreadable.failure : Unreadable → Failure
  | .noJson errors => .validation errors
  | .unparsed => .http 400 "There was an error parsing the body".toList

/-- A request body: one that cannot be read, JSON that did not validate, or
a payload. -/
inductive Body (α : Type) where
  | unreadable (why : Unreadable)
  | invalid (errors : ValidationErrors)
  | valid (payload : α)

inductive Route where
  | createTarget (payload : Body TargetCreate)
  | listTargets
  | getTarget (targetId : PathId)
  | createOwnershipChallenge (targetId : PathId) (payload : Body OwnershipChallengeRequest)
  | runOwnershipVerification (targetId : PathId)
  | acceptAuthorization (targetId : PathId) (payload : Body AuthorizationAccept)
  | createScopeRule (targetId : PathId) (payload : Body ScopeRuleCreate)
  | listScopeRules (targetId : PathId)
  | createPersona (targetId : PathId) (payload : Body PersonaCreate)
  | listPersonas (targetId : PathId)
  | createScan (targetId : PathId) (payload : Body ScanCreate)
  | listScans (targetId : PathId)
  | getScan (scanId : Str)
  | listFindings (scanId : Str)

/-- A request; `xOrgId` is the header, whose text is Latin-1. -/
structure Request where
  xOrgId : Option Str
  route : Route

inductive ResponseBody where
  | target (body : TargetOut)
  | targets (body : List TargetOut)
  | ownershipChallenge (body : OwnershipChallengeOut)
  | ownershipVerify (body : OwnershipVerifyResult)
  | scopeRule (body : ScopeRuleOut)
  | scopeRules (body : List ScopeRuleOut)
  | persona (body : PersonaOut)
  | personas (body : List PersonaOut)
  | scan (body : ScanOut)
  | scans (body : List ScanOut)
  | findings (body : List FindingOut)
  deriving DecidableEq, Repr

structure Reply where
  status : Nat := 200
  body : ResponseBody
  deriving DecidableEq, Repr

inductive Response where
  | reply (reply : Reply)
  | detail (status : Nat) (text : Str)
  | unprocessable (errors : ValidationErrors)
  | internalServerError
  deriving DecidableEq, Repr

/-- The exception handlers of the application. -/
def respond : Except Failure Reply → Response
  | .ok reply => .reply reply
  | .error (.http status text) => .detail status text
  | .error (.validation errors) => .unprocessable errors
  | .error (.runtimeError text) => .detail 503 text
  | .error .uncaught => .internalServerError

/-- `VerificationResult`. -/
structure VerificationResult where
  verified : Bool
  detail : Str
  deriving DecidableEq, Repr

/-- The ids `uuid4()` gives the rows that a request creates. -/
structure FreshIds where
  target : Uuid
  scopeRule : Uuid
  credential : Uuid
  persona : Uuid
  scan : Uuid

/-- What a request meets outside the database. `tokenBytes` are the bytes
of `secrets.token_hex(16)`, `bindUuid` is what the database driver makes of
a text it compares a UUID column with, and `brokerTakes` is false if
`send_task` raises. -/
structure Environment where
  kmsMasterKey : Str
  fernet : Fernet
  nonce : Str
  ids : FreshIds
  tokenBytes : BitVec 128
  now : Db.Instant
  verifyOwnership : OwnershipVerificationMethod → (domain expectedToken : Str) →
    Except PyError VerificationResult
  bindUuid : Str → Option Uuid
  brokerTakes : Bool := true

/-- A handler; it sends the ids of the scans it dispatches. -/
abbrev Handler := Action Database Str Failure

/-- An error of the database, or a row that is not there: no handler
knows the exception. -/
def orUncaught {α : Type} : Option α → Except Failure α
  | some a => .ok a
  | none => .error .uncaught

def commitRows (w : Database → Option Database) : Handler Unit := commit fun db => orUncaught (w db)

/-! ## `UUID(text)` -/

def hexValue (c : Char) : Option Nat :=
  let i := "0123456789abcdef".toList.idxOf c.toLower
  if i < 16 then some i else none

/-- The digits of `int(text, 16)` behind the first; an underscore may stand
between two. -/
def hexTail (acc : Nat) : Str → Option Nat
  | [] => some acc
  | '_' :: c :: rest => do hexTail (16 * acc + (← hexValue c)) rest
  | c :: rest => do hexTail (16 * acc + (← hexValue c)) rest

/-- `int(text, 16)` of an unsigned text, perhaps with `0x` in front. -/
def hexNumber : Str → Option Nat
  | '0' :: x :: rest =>
      if x = 'x' ∨ x = 'X' then
        match rest with
        | '_' :: c :: rest => do hexTail (← hexValue c) rest
        | c :: rest => do hexTail (← hexValue c) rest
        | [] => none
      else hexTail 0 (x :: rest)
  | c :: rest => do hexTail (← hexValue c) rest
  | [] => none

/-- `int(text, 16)` of a text without a minus sign. -/
def hexNat (text : Str) : Option Nat :=
  match strip text with
  | '+' :: digits => hexNumber digits
  | digits => hexNumber digits

/-- `UUID(text)`; `none` for `ValueError`. -/
def uuidOfText (text : Str) : Option Uuid :=
  let text := replace (replace text "urn:".toList []) "uuid:".toList []
  let braced := fun c => c = '{' ∨ c = '}'
  let hex := replace ((text.dropWhile braced).rdropWhile braced) "-".toList []
  if hex.length = 32 then (hexNat hex).map (BitVec.ofNat 128) else none

/-! ## `deps` -/

/-- `get_current_org`. -/
def getCurrentOrg (xOrgId : Option Str) : Handler Organization := query fun db =>
  match xOrgId.filter (· ≠ []) with
  | none =>
      .error (.http 401
        "Missing X-Org-Id header (dev auth stand-in for Clerk — see app.deps).".toList)
  | some text =>
      match uuidOfText text with
      | none => .error (.http 400 "X-Org-Id is not a valid UUID.".toList)
      | some id =>
          match db.organization id with
          | some org => .ok org
          | none => .error (.http 404 "Organization not found.".toList)

/-- `target is None or target.organization_id != org.id`. -/
def ownedOrNotFound (org : Organization) : Option Target → Except Failure Target
  | some target =>
      if target.organizationId = org.id then .ok target
      else .error (.http 404 "Target not found.".toList)
  | none => .error (.http 404 "Target not found.".toList)

/-- `get_owned_target`, behind `get_current_org`. -/
def getOwnedTarget (org : Organization) (targetId : Uuid) : Handler Target :=
  query fun db => ownedOrNotFound org (rowById targetId db.targets)

/-- `get_crypto`: the master keys. -/
def getCrypto (env : Environment) : Except Failure (List Bytes) :=
  if env.kmsMasterKey = [] then
    .error (.runtimeError ("KMS_MASTER_KEY is not configured. Generate one with ".toList ++
      "`python -c \"from cryptography.fernet import Fernet; ".toList ++
      "print(Fernet.generate_key().decode())\"` and set it in .env.".toList))
  else if env.fernet.isKey (encodeStrict env.kmsMasterKey) then
    .ok [encodeStrict env.kmsMasterKey]
  else .error .uncaught

/-- A body that cannot be read fails before the dependencies are solved. -/
def Body.readable {α : Type} : Body α → Except Failure Unit
  | .unreadable why => .error why.failure
  | .invalid _ | .valid _ => .ok ()

/-- A dependency whose own parameter did not validate is not called. -/
def solveTarget (org : Organization) : PathId → Handler (Except ValidationErrors Target)
  | .error errors => pure (.error errors)
  | .ok targetId => do return .ok (← getOwnedTarget org targetId)

/-- All parameters together, when the dependencies are solved. -/
def validated {α β : Type} : Except ValidationErrors α → Body β → Except Failure (α × β)
  | .ok a, .valid b => .ok (a, b)
  | .ok _, .invalid errors => .error (.validation errors)
  | .error errors, .valid _ => .error (.validation errors)
  | .error errors, .invalid more => .error (.validation (errors ++ more))
  | _, .unreadable why => .error why.failure

/-- A route of an organisation. -/
def orgRoute {α ρ : Type} (xOrgId : Option Str) (payload : Body α)
    (endpoint : Organization → α → Handler ρ) : Handler ρ := do
  ofExcept payload.readable
  let org ← getCurrentOrg xOrgId
  let (_, payload) ← ofExcept (validated (.ok ()) payload)
  endpoint org payload

/-- A route of a target; `extra` is a dependency solved after it. -/
def targetRoute {α γ ρ : Type} (xOrgId : Option Str) (targetId : PathId)
    (extra : Except Failure γ) (payload : Body α)
    (endpoint : Organization → Target → γ → α → Handler ρ) : Handler ρ := do
  ofExcept payload.readable
  let org ← getCurrentOrg xOrgId
  let target ← solveTarget org targetId
  let extra ← ofExcept extra
  let (target, payload) ← ofExcept (validated target payload)
  endpoint org target extra payload

/-! ## `routers.targets` -/

/-- `generate_verification_token`. -/
def generateVerificationToken (tokenBytes : BitVec 128) : Str :=
  "sentinel-verify=".toList ++ hexPad 32 tokenBytes.toNat

/-- `_INSTRUCTIONS`, formatted. -/
def instructions (domain : Str) : OwnershipVerificationMethod → Str
  | .dnsTxt => "Create a TXT record at _sentinel-verify.".toList ++ domain ++
      " with the exact value shown.".toList
  | .wellKnownFile => "Serve a file at https://".toList ++ domain ++
      "/.well-known/sentinel-verify.txt whose entire body is the exact value shown.".toList
  | .metaTag => "Add <meta name=\"sentinel-verify\" content=\"TOKEN\"> to the <head> of ".toList ++
      "https://".toList ++ domain ++ "/, replacing TOKEN with the exact value shown.".toList

def createTarget (env : Environment) (org : Organization) (payload : TargetCreate) :
    Handler Reply := do
  let target : Target :=
    { id := env.ids.target, organizationId := org.id, rootDomain := payload.rootDomain,
      displayName := payload.displayName, isProduction := payload.isProduction }
  commitRows fun db => db.insertTarget target
  let stored ← query fun db => orUncaught (rowById target.id db.targets)
  return { status := 201, body := .target (.of stored) }

def listTargets (org : Organization) : Handler Reply := do
  let targets ← query fun db => .ok (db.targetsOf org.id)
  return { body := .targets (targets.map .of) }

def getTarget (target : Target) : Handler Reply := return { body := .target (.of target) }

/-- The assignments of `create_ownership_challenge`. -/
def issueChallenge (method : OwnershipVerificationMethod) (token : Str) (t : Target) : Target :=
  { t with ownershipVerificationMethod := some method,
           ownershipVerificationToken := some token,
           ownershipVerified := false, ownershipVerifiedAt := none }

/-- The assignments of `run_ownership_verification`. -/
def recordVerification (verified : Bool) (now : Db.Instant) (t : Target) : Target :=
  { t with ownershipVerified := verified,
           ownershipVerifiedAt := if verified then some now else none }

/-- The assignments of `accept_authorization`. -/
def recordAuthorization (now : Db.Instant) (t : Target) : Target :=
  { t with authorizationAccepted := true, authorizationAcceptedAt := some now }

/-- The UPDATE of a request that loaded `loaded` and changed it to `changed`. -/
def updateChanged (loaded changed stored : Target) : Target :=
  { stored with
    ownershipVerified :=
      column loaded.ownershipVerified changed.ownershipVerified stored.ownershipVerified
    ownershipVerificationMethod := column loaded.ownershipVerificationMethod
      changed.ownershipVerificationMethod stored.ownershipVerificationMethod
    ownershipVerificationToken := column loaded.ownershipVerificationToken
      changed.ownershipVerificationToken stored.ownershipVerificationToken
    ownershipVerifiedAt :=
      column loaded.ownershipVerifiedAt changed.ownershipVerifiedAt stored.ownershipVerifiedAt
    authorizationAccepted := column loaded.authorizationAccepted changed.authorizationAccepted
      stored.authorizationAccepted
    authorizationAcceptedAt := column loaded.authorizationAcceptedAt
      changed.authorizationAcceptedAt stored.authorizationAcceptedAt }

/-- The commit of a request that has changed the target it loaded. -/
def commitTarget (target changed : Target) : Handler Unit :=
  commitRows fun db => some (db.updateTarget target.id (updateChanged target changed))

def createOwnershipChallenge (env : Environment) (target : Target)
    (payload : OwnershipChallengeRequest) : Handler Reply := do
  let token := generateVerificationToken env.tokenBytes
  commitTarget target (issueChallenge payload.method token target)
  let challenge : OwnershipChallengeOut :=
    ⟨payload.method, token, instructions target.rootDomain payload.method⟩
  return { body := .ownershipChallenge challenge }

def runOwnershipVerification (env : Environment) (target : Target) : Handler Reply :=
  match target.ownershipVerificationMethod, target.ownershipVerificationToken.filter (· ≠ []) with
  | some method, some token => do
      let result ← ofExcept
        ((env.verifyOwnership method target.rootDomain token).mapError fun _ => .uncaught)
      commitTarget target (recordVerification result.verified env.now target)
      return { body := .ownershipVerify ⟨result.verified, result.detail⟩ }
  | _, _ =>
      ofExcept (.error (.http 400
        ("No ownership challenge has been issued for this target yet — ".toList ++
          "call POST /targets/{id}/ownership-challenge first.".toList)))

def acceptAuthorization (env : Environment) (target : Target) (payload : AuthorizationAccept) :
    Handler Reply := do
  if payload.accepted then
    commitTarget target (recordAuthorization env.now target)
    let stored ← query fun db => orUncaught (rowById target.id db.targets)
    return { body := .target (.of stored) }
  else ofExcept (.error (.http 400 "Authorization must be explicitly accepted.".toList))

def createScopeRule (env : Environment) (target : Target) (payload : ScopeRuleCreate) :
    Handler Reply := do
  let rule : ScopeRule :=
    { id := env.ids.scopeRule, targetId := target.id, kind := payload.kind,
      pattern := payload.pattern, effect := payload.effect, label := payload.label }
  commitRows fun db => db.insertScopeRule rule
  let stored ← query fun db => orUncaught (rowById rule.id db.scopeRules)
  return { status := 201, body := .scopeRule (.of stored) }

def listScopeRules (target : Target) : Handler Reply := do
  let rules ← query fun db => .ok (db.scopeRulesOf target.id)
  return { body := .scopeRules (rules.map .of) }

/-! ## `routers.personas` -/

/-- The secret, encrypted with the organisation's data key. -/
def sealCredential (env : Environment) (org : Organization) (masterKeys : List Bytes)
    (payload : CredentialCreate) : Except Failure Credential := do
  let dataKey ← (env.fernet.unwrap masterKeys org.wrappedDataKey).mapError fun _ => .uncaught
  let ciphertext ← (env.fernet.encryptWith dataKey env.nonce
    (encodeStrict payload.secret)).mapError fun _ => .uncaught
  return ⟨env.ids.credential, payload.kind, ciphertext⟩

def createPersona (env : Environment) (org : Organization) (target : Target)
    (masterKeys : List Bytes) (payload : PersonaCreate) : Handler Reply := do
  let credential ← ofExcept (payload.credential.mapM (sealCredential env org masterKeys))
  let persona : Persona :=
    { id := env.ids.persona, targetId := target.id, label := payload.label,
      roleName := payload.roleName, trustRank := payload.trustRank,
      tenantKey := payload.tenantKey.map (·.val), loginStrategy := payload.loginStrategy,
      credentialId := credential.map (·.id),
      loginRecipe := payload.loginRecipe.map LoginRecipeIn.modelDump,
      expectedDenied := payload.expectedDenied }
  -- the credential is flushed before the persona, both are committed together
  commitRows fun db => do
    let db ← match credential with
      | some c => db.insertCredential c
      | none => some db
    db.insertPersona persona
  let stored ← query fun db => orUncaught (rowById persona.id db.personas)
  return { status := 201, body := .persona (.of stored) }

def listPersonas (target : Target) : Handler Reply := do
  let personas ← query fun db => .ok (db.personasOf target.id)
  return { body := .personas (personas.map .of) }

/-! ## `routers.scans` and `routers.findings` -/

/-- `scalar_one()`. -/
def scalarOne {α : Type} : List α → Except Failure α
  | [row] => .ok row
  | _ => .error .uncaught

/-- `scalar_one_or_none()`. -/
def scalarOneOrNone {α : Type} : List α → Except Failure (Option α)
  | [] => .ok none
  | [row] => .ok (some row)
  | _ => .error .uncaught

/-- `dispatch_scan`; a broker that is down only makes it answer false. -/
def dispatchScan (env : Environment) (scanId : Str) : Handler Bool :=
  if env.brokerTakes then do
    send scanId
    return true
  else return false

def createScan (env : Environment) (target : Target) (payload : ScanCreate) : Handler Reply := do
  if target.isScannable then
    let scan : Scan :=
      { id := env.ids.scan, targetId := target.id, triggeredBy := payload.triggeredBy }
    commitRows fun db => db.insertScan scan
    -- the object keeps its attributes, only the phases are loaded into it
    let found ← query fun db => scalarOne (db.scansById scan.id)
    let _ ← dispatchScan env scan.id.text
    return { status := 201, body := .scan (.of scan found.2) }
  else
    ofExcept (.error (.http 403
      ("Target is not scannable yet — ownership must be verified and authorization ".toList ++
        "accepted first (see docs/06-safety-legal-abuse.md §1).".toList)))

def listScans (target : Target) : Handler Reply := do
  let scans ← query fun db => .ok (db.scansOf target.id)
  return { body := .scans (scans.map fun s => .of s.1 s.2) }

/-- The scan with an id, if its target is the organisation's. -/
def ownedScan (env : Environment) (org : Organization) (scanId : Str) : Handler Scan :=
  query fun db => do
    let id ← orUncaught (env.bindUuid scanId)
    match ← scalarOneOrNone (db.scansJoinedTo org.id id) with
    | some scan => .ok scan
    | none => .error (.http 404 "Scan not found.".toList)

def getScan (env : Environment) (org : Organization) (scanId : Str) : Handler Reply := do
  let scan ← ownedScan env org scanId
  let found ← query fun db => .ok (db.withPhases scan)
  return { body := .scan (.of found.1 found.2) }

def listFindings (env : Environment) (org : Organization) (scanId : Str) : Handler Reply := do
  let scan ← ownedScan env org scanId
  let findings ← query fun db => .ok (db.findingsOf scan.id)
  return { body := .findings (findings.map fun f => .of f.1 f.2.1 f.2.2) }

/-! ## The application -/

/-- A route without a body. -/
def noBody : Body Unit := .valid ()

/-- The route's endpoint, with what the dependencies have come to: who calls,
and the target that was loaded. -/
def Request.routed {ρ : Type} (env : Environment) (request : Request)
    (run : Organization → Option Target → Handler Reply → Handler ρ) : Handler ρ :=
  let xOrgId := request.xOrgId
  match request.route with
  | .createTarget payload => orgRoute xOrgId payload fun org payload =>
      run org none (createTarget env org payload)
  | .listTargets => orgRoute xOrgId noBody fun org _ => run org none (listTargets org)
  | .getTarget targetId => targetRoute xOrgId targetId (.ok ()) noBody fun org target _ _ =>
      run org (some target) (getTarget target)
  | .createOwnershipChallenge targetId payload =>
      targetRoute xOrgId targetId (.ok ()) payload fun org target _ payload =>
        run org (some target) (createOwnershipChallenge env target payload)
  | .runOwnershipVerification targetId =>
      targetRoute xOrgId targetId (.ok ()) noBody fun org target _ _ =>
        run org (some target) (runOwnershipVerification env target)
  | .acceptAuthorization targetId payload =>
      targetRoute xOrgId targetId (.ok ()) payload fun org target _ payload =>
        run org (some target) (acceptAuthorization env target payload)
  | .createScopeRule targetId payload =>
      targetRoute xOrgId targetId (.ok ()) payload fun org target _ payload =>
        run org (some target) (createScopeRule env target payload)
  | .listScopeRules targetId => targetRoute xOrgId targetId (.ok ()) noBody fun org target _ _ =>
      run org (some target) (listScopeRules target)
  | .createPersona targetId payload =>
      targetRoute xOrgId targetId (getCrypto env) payload fun org target masterKeys payload =>
        run org (some target) (createPersona env org target masterKeys payload)
  | .listPersonas targetId => targetRoute xOrgId targetId (.ok ()) noBody fun org target _ _ =>
      run org (some target) (listPersonas target)
  | .createScan targetId payload =>
      targetRoute xOrgId targetId (.ok ()) payload fun org target _ payload =>
        run org (some target) (createScan env target payload)
  | .listScans targetId => targetRoute xOrgId targetId (.ok ()) noBody fun org target _ _ =>
      run org (some target) (listScans target)
  | .getScan scanId => orgRoute xOrgId noBody fun org _ => run org none (getScan env org scanId)
  | .listFindings scanId => orgRoute xOrgId noBody fun org _ =>
      run org none (listFindings env org scanId)

/-- The route's handler. -/
def Request.handler (env : Environment) (request : Request) : Handler Reply :=
  request.routed env fun _ _ endpoint => endpoint

/-- A request whose dependencies are solved. -/
structure Solved where
  caller : Organization
  target : Option Target
  endpoint : Handler Reply

/-- The handler up to its endpoint. -/
def Request.solve (env : Environment) (request : Request) : Handler Solved :=
  request.routed env fun caller target endpoint => pure ⟨caller, target, endpoint⟩

theorem orgRoute_bind {α ρ τ : Type} (xOrgId : Option Str) (payload : Body α)
    (endpoint : Organization → α → Handler ρ) (f : ρ → Handler τ) :
    orgRoute xOrgId payload endpoint >>= f =
      orgRoute xOrgId payload fun org a => endpoint org a >>= f := by
  simp only [orgRoute, bind_assoc]

theorem targetRoute_bind {α γ ρ τ : Type} (xOrgId : Option Str) (targetId : PathId)
    (extra : Except Failure γ) (payload : Body α)
    (endpoint : Organization → Target → γ → α → Handler ρ) (f : ρ → Handler τ) :
    targetRoute xOrgId targetId extra payload endpoint >>= f =
      targetRoute xOrgId targetId extra payload fun org t c a => endpoint org t c a >>= f := by
  simp only [targetRoute, bind_assoc]

/-- The dependencies are solved first, then the endpoint runs. -/
theorem Request.handler_eq_solve (env : Environment) (request : Request) :
    request.handler env = request.solve env >>= Solved.endpoint := by
  obtain ⟨xOrgId, route⟩ := request
  unfold Request.handler Request.solve Request.routed
  cases route <;> simp only [orgRoute_bind, targetRoute_bind, pure_bind]

/-- The response, the database after the request, and the scans that were
dispatched. -/
structure Exchange where
  response : Response
  db : Database
  dispatched : List Str

/-- The application on one request. -/
def serve (env : Environment) (request : Request) (db : Database) : Exchange :=
  let outcome := request.handler env db
  ⟨respond outcome.value, outcome.state, outcome.sent⟩

end Sentinel.Api
