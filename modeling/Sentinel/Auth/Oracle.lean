/-
Sentinel.Auth.Oracle — `sentinel_auth.oracle`: telling an authenticated
response from an anonymous one.

`establishSessionOracle` sends two probes through the engine and hands
the responses to `compareProbes`, the part of the source's function
behind its two awaits.
-/
import Sentinel.Core.HttpEngine

namespace Sentinel.Auth

open Sentinel.Py Sentinel.Core

inductive OracleSignal where
  | statusCode
  | bodyContains
  deriving DecidableEq, Repr

structure SessionOracle where
  probeMethod : Str
  probeUrl : Str
  signal : OracleSignal
  authenticatedValue : Str
  deriving DecidableEq, Repr

structure OracleEstablishmentResult where
  oracle : Option SessionOracle
  detail : Str
  deriving DecidableEq, Repr

/-- `SessionOracle._matches`. -/
def SessionOracle.matches (o : SessionOracle) (response : EngineResponse) : Bool :=
  match o.signal with
  | .statusCode => ofInt response.statusCode == o.authenticatedValue
  | .bodyContains => contains o.authenticatedValue response.text

/-- The test `_find_unique_line` puts to a stripped line. -/
def isUniqueLine (anonymousText : Str) (minLength : Nat) (stripped : Str) : Bool :=
  minLength ≤ stripped.length && stripped ∉ splitlines anonymousText

/-- `_find_unique_line`: the first line that passes, stripped. -/
def findUniqueLine (authenticatedText anonymousText : Str) (minLength : Nat := 6) : Option Str :=
  ((splitlines authenticatedText).map strip).find? (isUniqueLine anonymousText minLength)

/-- `establish_session_oracle` behind its two probes. -/
def compareProbes (probeMethod probeUrl : Str) (auth anon : EngineResponse) :
    OracleEstablishmentResult :=
  if auth.statusCode ≠ anon.statusCode then
    ⟨some ⟨probeMethod, probeUrl, .statusCode, ofInt auth.statusCode⟩,
      "Status code differs: authenticated=".toList ++ ofInt auth.statusCode ++
        ", anonymous=".toList ++ ofInt anon.statusCode ++ ['.']⟩
  else
    let uniqueLine :=
      if auth.text ≠ anon.text then findUniqueLine auth.text anon.text else none
    match uniqueLine.filter (fun line => line ≠ []) with
    | some line =>
        ⟨some ⟨probeMethod, probeUrl, .bodyContains, line⟩,
          "Same status code, but response body differs in an identifiable way.".toList⟩
    | none =>
        ⟨none, "No reliable differential found between authenticated and anonymous responses at ".toList
          ++ probeMethod ++ ' ' :: probeUrl ++ " (both returned ".toList ++ ofInt auth.statusCode ++
          " with indistinguishable bodies). Access-control findings on this target are capped at 'probable' confidence — see docs/04-edge-cases.md §B3.".toList⟩

variable [PyRuntime]

/-- One `check`: the probe is sent as the persona and its response matched. -/
def SessionOracle.check (o : SessionOracle) (e : HttpEngine) (persona : SessionState)
    (env : CallEnv) (jar : CookieJar) : Except RequestError Bool :=
  (e.request { method := o.probeMethod, url := o.probeUrl, persona := some persona } env jar).result.map
    o.matches

/-- `establish_session_oracle`: the same request as the persona and then
as anonymous. An exception of a probe passes through. -/
def establishSessionOracle (e : HttpEngine) (persona : SessionState) (probeUrl : Str)
    (probeMethod : Str := "GET".toList) (authEnv anonEnv : CallEnv) (jar : CookieJar) :
    Except RequestError OracleEstablishmentResult := do
  let authRun := e.request { method := probeMethod, url := probeUrl, persona := some persona }
    authEnv jar
  let auth ← authRun.result
  let anonRun := e.request
    { method := probeMethod, url := probeUrl, persona := some anonymousSession } anonEnv authRun.jar
  let anon ← anonRun.result
  return compareProbes probeMethod probeUrl auth anon

end Sentinel.Auth
