/-
Sentinel.Auth.LoginReplay — `sentinel_auth.models`, `replay` and
`persona_session`: a recorded login, its replay in a browser, and the
session made of it.

What the browser does during one login is a `BrowserRun`: how it answers
each page operation, given all operations so far. A dataclass field with
a `Literal` type is a text here, as Python does not check it.
-/
import Sentinel.Core.HttpEngine

namespace Sentinel.Auth

open Sentinel.Py Sentinel.Core

/-! ## Models -/

structure LoginStep where
  action : Str
  selector : Option Str := none
  value : Option Str := none
  credentialRef : Option Str := none
  timeoutS : Rat := 10
  deriving DecidableEq, Repr

structure SuccessAssertion where
  kind : Str
  value : Str
  timeoutS : Rat := 10
  deriving DecidableEq, Repr

structure LoginRecipe where
  startUrl : Str
  steps : List LoginStep
  successAssertion : SuccessAssertion
  strategy : Str := "form".toList
  maxDurationS : Rat := 30
  deriving DecidableEq, Repr

structure Credential where
  ref : Str
  secret : Str
  deriving DecidableEq, Repr

/-- A cookie of a Playwright storage state; no domain is the empty one. -/
structure StorageCookie where
  name : Str
  value : Str
  domain : Str
  deriving DecidableEq, Repr

/-- A Playwright storage state: its cookies, and all of it as `json.dumps`
writes it. -/
structure StorageState where
  cookies : List StorageCookie
  json : Str
  deriving DecidableEq, Repr

/-- `LoginReplayResult`, with what goes with each value of `success`. -/
inductive LoginReplayResult where
  | failure (error : Str)
  | success (storageState : StorageState)
  deriving DecidableEq, Repr

/-! ## The browser -/

/-- A Playwright exception: `TimeoutError`, or any other. -/
inductive PlaywrightError where
  | timeout (msg : Str)
  | other (msg : Str)
  deriving DecidableEq, Repr

/-- An operation on a page, with its timeout in milliseconds. -/
inductive PageOp where
  | goto (url : Str) (timeout : Rat)
  | fill (selector value : Str) (timeout : Rat)
  | click (selector : Str) (timeout : Rat)
  | waitForSelector (selector : Str) (state : Option Str) (timeout : Rat)
  | waitForUrl (url : Str) (timeout : Rat)
  deriving DecidableEq, Repr

/-- What the browser does during one login. `perform ops` is how the last
of the operations ends, after the others. -/
structure BrowserRun where
  newContext : Except PlaywrightError Unit
  newPage : Except PlaywrightError Unit
  perform : List PageOp → Except PlaywrightError Unit
  storageState : List PageOp → Except PlaywrightError StorageState
  close : Except PlaywrightError Unit

/-- What `replay` raises inside. -/
inductive ReplayError where
  | playwright (e : PlaywrightError)
  | keyError (key : Str)
  | assertionError
  | valueError (msg : Str)
  deriving DecidableEq, Repr

/-- The exceptions `replay` turns into a failed login. -/
def ReplayError.isCaught : ReplayError → Bool
  | .playwright (.timeout _) | .keyError _ => true
  | _ => false

/-- The next operation on the page, and all operations behind it. -/
def BrowserRun.act (b : BrowserRun) (done : List PageOp) (op : PageOp) :
    Except ReplayError (List PageOp) :=
  ((b.perform (done ++ [op])).mapError .playwright).map fun _ => done ++ [op]

/-! ## The replay -/

/-- An argument that the step's `assert` wants. -/
def required : Option Str → Except ReplayError Str
  | some v => .ok v
  | none => .error .assertionError

/-- The operation `_run_step` performs, or what it raises before. -/
def LoginStep.op (s : LoginStep) (credentials : List (Str × Credential)) :
    Except ReplayError PageOp := do
  let timeout := s.timeoutS * 1000
  if s.action = "goto".toList then
    return .goto (← required s.value) timeout
  else if s.action = "fill".toList then
    return .fill (← required s.selector) (← required s.value) timeout
  else if s.action = "fill_secret".toList then
    let selector ← required s.selector
    let ref ← required s.credentialRef
    match credentials.lookup ref with
    | none => .error (.keyError ref)
    | some credential => return .fill selector credential.secret timeout
  else if s.action = "click".toList then
    return .click (← required s.selector) timeout
  else if s.action = "wait_for_selector".toList then
    return .waitForSelector (← required s.selector) none timeout
  else if s.action = "wait_for_url".toList then
    return .waitForUrl (← required s.value) timeout
  else
    .error (.valueError ("Unknown login step action: ".toList ++ s.action))

/-- `_run_step`. -/
def BrowserRun.runStep (b : BrowserRun) (credentials : List (Str × Credential))
    (done : List PageOp) (s : LoginStep) : Except ReplayError (List PageOp) := do
  b.act done (← s.op credentials)

/-- The operation `_check_assertion` waits for, if it knows the kind. -/
def SuccessAssertion.op (a : SuccessAssertion) : Option PageOp :=
  let timeout := a.timeoutS * 1000
  if a.kind = "url_contains".toList then
    some (.waitForUrl ("**".toList ++ a.value ++ "**".toList) timeout)
  else if a.kind = "selector_visible".toList then
    some (.waitForSelector a.value (some "visible".toList) timeout)
  else if a.kind = "selector_hidden".toList then
    some (.waitForSelector a.value (some "hidden".toList) timeout)
  else none

/-- `_check_assertion`: the operations behind it, or `none` for `False`. -/
def BrowserRun.checkAssertion (b : BrowserRun) (done : List PageOp) (a : SuccessAssertion) :
    Except ReplayError (Option (List PageOp)) :=
  match a.op with
  | none => .ok none
  | some op =>
      match b.act done op with
      | .ok done => .ok (some done)
      | .error (.playwright (.timeout _)) => .ok none
      | .error e => .error e

/-- The first operation of a replay. -/
def LoginRecipe.opening (recipe : LoginRecipe) : PageOp :=
  .goto recipe.startUrl (recipe.maxDurationS * 1000)

variable [PyRuntime]

/-- The body of the `try` in `replay` behind the steps. -/
def BrowserRun.finish (b : BrowserRun) (recipe : LoginRecipe) (done : List PageOp) :
    Except ReplayError LoginReplayResult := do
  match ← b.checkAssertion done recipe.successAssertion with
  | none =>
      return .failure ("Success assertion failed: ".toList ++ recipe.successAssertion.kind ++
        '=' :: Py.reprStr recipe.successAssertion.value)
  | some done => return .success (← (b.storageState done).mapError .playwright)

/-- The body of the `try` in `replay`. -/
def BrowserRun.attempt (b : BrowserRun) (recipe : LoginRecipe)
    (credentials : List (Str × Credential)) : Except ReplayError LoginReplayResult := do
  let opened ← b.act [] recipe.opening
  let done ← recipe.steps.foldlM (b.runStep credentials) opened
  b.finish recipe done

/-- The `except` clauses of `replay`. -/
def handleReplay : Except ReplayError LoginReplayResult → Except ReplayError LoginReplayResult
  | .error (.playwright (.timeout msg)) => .ok (.failure ("timeout: ".toList ++ msg))
  | .error (.keyError key) => .ok (.failure ("missing credential for ref ".toList ++ Py.reprStr key))
  | outcome => outcome

/-- `LoginReplayer.replay`. An exception of `context.close()` takes the
place of whatever was returned or raised. -/
def BrowserRun.replay (b : BrowserRun) (recipe : LoginRecipe)
    (credentials : List (Str × Credential)) : Except ReplayError LoginReplayResult := do
  b.newContext.mapError .playwright
  b.newPage.mapError .playwright
  let outcome := handleReplay (b.attempt recipe credentials)
  b.close.mapError .playwright
  outcome

/-! ## `PersonaSession` -/

omit [PyRuntime] in
/-- `_domain_matches`. -/
def domainMatches (targetHost cookieDomain : Str) : Bool :=
  targetHost == cookieDomain || endswith targetHost ('.' :: cookieDomain)

/-- `PersonaSession.cookies`. -/
def sessionCookies (state : StorageState) (targetHost : Option Str) : Dict :=
  state.cookies.foldl (fun result cookie =>
    let domain := lstripChar '.' cookie.domain
    let host := targetHost.getD []
    if host ≠ [] ∧ domain ≠ [] ∧ domainMatches host domain = false then result
    else result.set cookie.name cookie.value) []

/-- `PersonaSession(persona_id, storage_state, target_host=...)`. -/
def personaSession (personaId : Str) (state : StorageState) (targetHost : Option Str) :
    SessionState :=
  ⟨some personaId, sessionCookies state targetHost, []⟩

end Sentinel.Auth
