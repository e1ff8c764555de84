/-
Sentinel.Core.HttpEngine — `sentinel_core.http_engine`: the outbound
choke point.

`HttpEngine.request` is a function of the call, of what the network and
the recorder answer during it, and of the client's cookie jar. Its result
is the list of effects it had on its collaborators in order (limiter,
client, recorder), the jar it leaves, and what it returned or raised. The
retry loop runs on the attempts that are left; its accumulator is the
source's local variables.
-/
import Sentinel.Core.HttpClient
import Sentinel.Core.ScopeGuard
import Sentinel.Core.Destructive
import Sentinel.Py.Utf8

namespace Sentinel.Core

open Sentinel.Py

/-! ## Sessions, requests, responses -/

/-- The `SessionState` protocol, as the values its methods return. -/
structure SessionState where
  personaId : Option Str
  cookies : Dict
  extraHeaders : Dict
  deriving DecidableEq, Repr

/-- `AnonymousSession()`. -/
def anonymousSession : SessionState := ⟨some "anonymous".toList, [], []⟩

structure RecordedRequest where
  method : Str
  url : Str
  headers : Dict
  body : Option Bytes
  deriving DecidableEq, Repr

structure RecordedResponse where
  statusCode : Int
  headers : Dict
  body : Option Bytes
  elapsedMs : Rat
  deriving DecidableEq, Repr

/-- The arguments of `TranscriptRecorder.record`. -/
structure TranscriptArgs where
  scanId : Str
  personaId : Option Str
  request : RecordedRequest
  response : Option RecordedResponse
  error : Option Str
  deriving DecidableEq, Repr

structure EngineResponse where
  statusCode : Int
  headers : Dict
  body : Bytes
  elapsedMs : Rat
  transcriptId : Str
  url : Str
  deriving DecidableEq, Repr

/-- `EngineResponse.text`. -/
def EngineResponse.text (r : EngineResponse) : Str := decodeUtf8 r.body

/-- What a call of `request` raises. -/
inductive RequestError where
  | scopeViolation (decision : ScopeDecision)
  | python (e : PyError)
  | connectionError (msg : Str)
  | clientError (msg : Str)
  deriving DecidableEq, Repr

/-- An effect on a collaborator: a completed `acquire` of some tokens, a
call of the client with the requests it put on the wire, a report to the
limiter, a transcript written. -/
inductive Event where
  | acquire (targetId : Str) (cost : Rat)
  | send (req : WireRequest) (wire : List WireRequest)
  | reportBackpressure (targetId reason : Str)
  | reportSuccess (targetId : Str)
  | record (args : TranscriptArgs)
  deriving DecidableEq, Repr

/-- A configured engine. A negative `max_retries` is not modelled. -/
structure HttpEngine where
  scopeGuard : ScopeGuard
  destructiveGuard : DestructiveActionGuard
  targetId : Str
  scanId : Str
  maxRetries : Nat
  userAgent : Str
  client : AsyncClient

/-- The keyword arguments of one `request` call. -/
structure RequestCall where
  method : Str
  url : Str
  persona : Option SessionState := none
  headers : Option Dict := none
  body : Option Bytes := none
  linkText : Str := []
  skipDestructiveGuard : Bool := false
  deriving DecidableEq, Repr

/-- What the outside does during one call: the network's answers hop by
hop for every attempt, how long each attempt took, and the id the
recorder returns. Attempts count from 1. -/
structure CallEnv where
  answers : Nat → Nat → WireAnswer
  elapsedMs : Nat → Rat
  transcriptId : Str

/-- One call of `request` as it went. -/
structure RequestRun where
  events : List Event
  jar : CookieJar
  result : Except RequestError EngineResponse

variable [PyRuntime]

/-- `HttpEngine.__init__` with its defaults. -/
def HttpEngine.init (scopeGuard : ScopeGuard) (targetId scanId : Str)
    (destructiveGuard : DestructiveActionGuard := .default) (maxRetries : Nat := 2)
    (userAgent : Str := "SentinelScanner/0.1 (+https://example.invalid/about-our-scanner)".toList)
    (client : Option AsyncClient := none) : HttpEngine where
  scopeGuard := scopeGuard
  destructiveGuard := destructiveGuard
  targetId := targetId
  scanId := scanId
  maxRetries := maxRetries
  userAgent := userAgent
  client := client.getD .plain

/-- `_IDEMPOTENT_METHODS`. -/
def idempotentMethods : List Str := ["GET", "HEAD", "OPTIONS"].map String.toList

/-- `_RATE_LIMITED_STATUS_CODES`. -/
def rateLimitedStatusCodes : List Int := [429, 503]

/-! ## `request` -/

/-- The headers of a call: the user agent, the persona's extra headers,
the caller's, and the persona's cookies unless a `Cookie` key is there. -/
def HttpEngine.requestHeaders (e : HttpEngine) (persona : SessionState) (headers : Option Dict) :
    Dict :=
  let base := (Dict.merge [("User-Agent".toList, e.userAgent)] persona.extraHeaders).merge
    (headers.getD [])
  if persona.cookies = [] then base
  else
    base.setdefault "Cookie".toList
      (join "; ".toList (persona.cookies.map fun kv => kv.1 ++ '=' :: kv.2))

/-- The local variables of the retry loop. `escaped` is a client
exception the loop does not catch. -/
structure LoopState where
  attempt : Nat
  response : Option RecordedResponse
  error : Option Str
  escaped : Option Str
  jar : CookieJar
  events : List Event

/-- What the loop body does with the outcome of an attempt, and whether
the loop goes on: it does after a rate-limited response and after a
caught failure. -/
def HttpEngine.absorb (e : HttpEngine) (env : CallEnv) (st : LoopState) :
    WireAnswer → LoopState × Bool
  | .response r =>
      let got := { st with
        response := some ⟨r.statusCode, r.headers, some r.content, env.elapsedMs st.attempt⟩ }
      if r.statusCode ∈ rateLimitedStatusCodes then
        ({ got with events := got.events ++
            [.reportBackpressure e.targetId ("HTTP ".toList ++ ofInt r.statusCode)] }, true)
      else ({ got with events := got.events ++ [.reportSuccess e.targetId] }, false)
  | .timeout msg => ({ st with error := some ("timeout: ".toList ++ msg) }, true)
  | .transportError msg => ({ st with error := some ("transport_error: ".toList ++ msg) }, true)
  | .otherError msg => ({ st with escaped := some msg }, false)

/-- The body of the retry loop: the next attempt, and what becomes of it. -/
def HttpEngine.attemptOnce (e : HttpEngine) (req : WireRequest) (env : CallEnv) (st : LoopState) :
    LoopState × Bool :=
  let ex := e.client.request (env.answers (st.attempt + 1)) st.jar req
  e.absorb env { st with
    attempt := st.attempt + 1, jar := ex.jar, events := st.events ++ [.send req ex.wire] } ex.answer

/-- `while attempt < max_attempts`, by the number of attempts left. -/
def HttpEngine.retryLoop (e : HttpEngine) (req : WireRequest) (env : CallEnv) :
    Nat → LoopState → LoopState
  | 0, st => st
  | left + 1, st =>
      match e.attemptOnce req env st with
      | (st', true) => e.retryLoop req env left st'
      | (st', false) => st'

/-- `1 + (self._max_retries if method in _IDEMPOTENT_METHODS else 0)`. -/
def HttpEngine.maxAttempts (e : HttpEngine) (method : Str) : Nat :=
  1 + if method ∈ idempotentMethods then e.maxRetries else 0

/-- The request a call hands to the client. -/
def HttpEngine.wireRequest (e : HttpEngine) (call : RequestCall) : WireRequest :=
  ⟨upper call.method, call.url,
    e.requestHeaders (call.persona.getD anonymousSession) call.headers, call.body⟩

/-- The part of `request` behind the loop: record, then answer or raise. -/
def HttpEngine.conclude (e : HttpEngine) (call : RequestCall) (env : CallEnv) (st : LoopState) :
    RequestRun :=
  let req := e.wireRequest call
  match st.escaped with
  | some msg => ⟨st.events, st.jar, .error (.clientError msg)⟩
  | none =>
      let args : TranscriptArgs :=
        ⟨e.scanId, (call.persona.getD anonymousSession).personaId,
          ⟨req.method, req.url, req.headers, req.body⟩, st.response,
          if st.response.isNone then st.error else none⟩
      let result := match st.response with
        | none => .error (.connectionError ("Request to ".toList ++ call.url ++
            " failed after ".toList ++ ofInt st.attempt ++ " attempt(s): ".toList ++
            st.error.getD "None".toList))
        | some r => .ok ⟨r.statusCode, r.headers, r.body.getD [], r.elapsedMs, env.transcriptId,
            call.url⟩
      ⟨st.events ++ [.record args], st.jar, result⟩

/-- The loop's variables before the first attempt, behind the acquire. -/
def HttpEngine.loopStart (e : HttpEngine) (jar : CookieJar) : LoopState where
  attempt := 0
  response := none
  error := none
  escaped := none
  jar := jar
  events := [.acquire e.targetId 1]

/-- The part of `request` behind the guards: acquire, then send with
retries, record and answer. -/
def HttpEngine.dispatch (e : HttpEngine) (call : RequestCall) (env : CallEnv) (jar : CookieJar) :
    RequestRun :=
  e.conclude call env
    (e.retryLoop (e.wireRequest call) env (e.maxAttempts (upper call.method)) (e.loopStart jar))

/-- What the two guards say to a call before anything happens: an
exception to raise, or nothing. -/
def HttpEngine.guardCall (e : HttpEngine) (call : RequestCall) (method : Str) :
    Option RequestError :=
  match e.scopeGuard.evaluate method call.url with
  | .error err => some (.python err)
  | .ok decision =>
      if !decision.allowed then some (.scopeViolation decision)
      else if call.skipDestructiveGuard then none
      else
        match e.destructiveGuard.check method call.url call.linkText with
        | .error err => some (.python err)
        | .ok check =>
            if check.isSuspect then
              some (.scopeViolation
                ⟨.blockedMethod, "Destructive-action guard: ".toList ++ check.reason, none⟩)
            else none

/-- `HttpEngine.request`: the method is upper-cased before anything else,
and a call without a persona is anonymous. -/
def HttpEngine.request (e : HttpEngine) (call : RequestCall) (env : CallEnv) (jar : CookieJar) :
    RequestRun :=
  match e.guardCall call (upper call.method) with
  | some err => ⟨[], jar, .error err⟩
  | none => e.dispatch call env jar

/-! ## Sequences of calls -/

/-- One call of a sequence, with the jar it found. -/
structure Step where
  jarBefore : CookieJar
  call : RequestCall
  env : CallEnv
  run : RequestRun

/-- The calls of a sequence one after another, through one client. -/
def HttpEngine.steps (e : HttpEngine) : List (RequestCall × CallEnv) → CookieJar → List Step
  | [], _ => []
  | (call, env) :: rest, jar =>
      let run := e.request call env jar
      ⟨jar, call, env, run⟩ :: e.steps rest run.jar

/-- The jar a sequence of calls leaves. -/
def HttpEngine.jarAfter (e : HttpEngine) : List (RequestCall × CallEnv) → CookieJar → CookieJar
  | [], jar => jar
  | (call, env) :: rest, jar => e.jarAfter rest (e.request call env jar).jar

/-- Everything the collaborators saw of a sequence of calls. -/
def HttpEngine.history (e : HttpEngine) (calls : List (RequestCall × CallEnv)) (jar : CookieJar) :
    List Event :=
  (e.steps calls jar).flatMap fun s => s.run.events

/-- The headers of every request a run put on the wire. -/
def RequestRun.wireHeaders (r : RequestRun) : List Dict :=
  r.events.flatMap fun ev =>
    match ev with
    | .send _ wire => wire.map WireRequest.headers
    | _ => []

end Sentinel.Core
