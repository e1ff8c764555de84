/-
Sentinel.Worker.AuthAdapter — `auth_adapter`: one persona's login, from
the stored recipe and credential to a session and its oracle.

`establishPersona` has two halves. `logInPersona` does not touch the engine; the
probes of the oracle go through it, and what they do to its collaborators
and its jar stays when they raise.
-/
import Sentinel.Auth.LoginReplayTheorems
import Sentinel.Auth.OracleTheorems
import Sentinel.Core.Crypto
import Sentinel.Core.RequestOutcome
import Sentinel.Py.Codec
import Sentinel.Worker.ScanRunner

namespace Sentinel.Worker

open Sentinel.Py Sentinel.Core Sentinel.Auth Sentinel.Db

/-! ## Stored recipes -/

/-- A step of a stored recipe. The values have the types the API gives
them; a key may be missing. -/
structure RawStep where
  action : Option Str := none
  selector : Option Str := none
  value : Option Str := none
  credentialRef : Option Str := none
  timeoutS : Option Rat := none
  deriving DecidableEq, Repr

structure RawAssertion where
  kind : Option Str := none
  value : Option Str := none
  timeoutS : Option Rat := none
  deriving DecidableEq, Repr

/-- The dictionary of `login_recipe`. -/
structure RawRecipe where
  startUrl : Option Str := none
  steps : Option (List RawStep) := none
  successAssertion : Option RawAssertion := none
  strategy : Option Str := none
  maxDurationS : Option Rat := none
  deriving DecidableEq, Repr

/-- A persona with its recipe and the ciphertext of its credential. -/
structure ConfiguredPersona where
  row : Persona
  loginRecipe : Option RawRecipe
  credential : Option Str
  deriving DecidableEq, Repr

/-- What `establish_persona` raises: `KeyError` of a recipe key, an
exception of the crypto, `UnicodeDecodeError`, what the replay lets
through, `ValueError` of `urlsplit`, and what a probe raises. -/
inductive EstablishError where
  | keyError (key : Str)
  | crypto (e : CryptoError)
  | unicodeDecodeError
  | replay (e : ReplayError)
  | python (e : PyError)
  | request (e : Core.RequestError)
  deriving DecidableEq, Repr

/-- `raw[key]`. -/
def rawKey {α : Type} (key : String) : Option α → Except EstablishError α
  | some v => .ok v
  | none => .error (.keyError key.toList)

/-- One step of `build_login_recipe`. -/
def buildLoginStep (s : RawStep) : Except EstablishError LoginStep := do
  return ⟨← rawKey "action" s.action, s.selector, s.value, s.credentialRef, s.timeoutS.getD 10⟩

/-- `build_login_recipe`. -/
def buildLoginRecipe (raw : RawRecipe) : Except EstablishError LoginRecipe := do
  let steps ← (← rawKey "steps" raw.steps).mapM buildLoginStep
  let assertion ← rawKey "success_assertion" raw.successAssertion
  let kind ← rawKey "kind" assertion.kind
  let value ← rawKey "value" assertion.value
  let startUrl ← rawKey "start_url" raw.startUrl
  return ⟨startUrl, steps, ⟨kind, value, assertion.timeoutS.getD 10⟩,
    raw.strategy.getD "form".toList, raw.maxDurationS.getD 30⟩

/-- `secret_ref`: the reference of the first step that fills in a secret. -/
def secretRef (recipe : LoginRecipe) : Option Str :=
  recipe.steps.findSome? fun s =>
    if s.action = "fill_secret".toList then s.credentialRef.filter (· ≠ []) else none

/-- What one persona's login meets outside: the browser, the network
during the two probes, the nonce of the encrypted session and the clock. -/
structure PersonaEnv where
  browser : BrowserRun
  authEnv : CallEnv
  anonEnv : CallEnv
  nonce : Str
  now : Instant

/-- The crypto of a scan run and the data key of its organisation. -/
structure Vault where
  fernet : Fernet
  dataKey : Bytes

/-- `crypto.decrypt(org_data_key, ciphertext).decode()`. -/
def Vault.reveal (v : Vault) (ciphertext : Str) : Except EstablishError Str := do
  let plaintext ← (v.fernet.decryptWith v.dataKey ciphertext).mapError .crypto
  match decodeStrict plaintext with
  | some secret => return secret
  | none => .error .unicodeDecodeError

/-! ## `establish_persona` -/

/-- How a login ends that raises nothing. -/
inductive Login where
  | refused (reason : Str)
  | accepted (state : StorageState) (session : SessionState)
  deriving DecidableEq, Repr

variable [PyRuntime]

/-- `establish_persona` behind the decryption and before the oracle. -/
def replayLogin (persona : ConfiguredPersona) (browser : BrowserRun) (recipe : LoginRecipe)
    (ref plaintext : Str) : Except EstablishError Login := do
  match ← (browser.replay recipe [(ref, ⟨ref, plaintext⟩)]).mapError .replay with
  | .failure error => return .refused ("Login replay failed: ".toList ++ error)
  | .success state =>
      let parts ← (urlsplit recipe.startUrl).mapError .python
      return .accepted state (personaSession persona.row.id state parts.hostname)

/-- `establish_persona` before the oracle. -/
def logInPersona (v : Vault) (persona : ConfiguredPersona) (browser : BrowserRun) :
    Except EstablishError Login :=
  match persona.loginRecipe.filter (· ≠ {}), persona.credential with
  | none, _ => .ok (.refused "No login recipe configured for this persona.".toList)
  | some _, none => .ok (.refused "No credential configured for this persona.".toList)
  | some raw, some ciphertext => do
      let recipe ← buildLoginRecipe raw
      match secretRef recipe with
      | none =>
          return .refused
            "Login recipe has no fill_secret step to attach the credential to.".toList
      | some ref => replayLogin persona browser recipe ref (← v.reveal ciphertext)

/-- Work that went through the engine. -/
structure EngineRun (ε α : Type) where
  events : List Core.Event
  jar : CookieJar
  result : Except ε α

/-- `establish_session_oracle`, with what its probes did. -/
def oracleRun (e : HttpEngine) (persona : SessionState) (probeUrl : Str) (env : PersonaEnv)
    (jar : CookieJar) : EngineRun Core.RequestError OracleEstablishmentResult :=
  let auth := e.request { method := "GET".toList, url := probeUrl, persona := some persona }
    env.authEnv jar
  match auth.result with
  | .error err => ⟨auth.events, auth.jar, .error err⟩
  | .ok authResponse =>
      let anon := e.request
        { method := "GET".toList, url := probeUrl, persona := some anonymousSession } env.anonEnv
        auth.jar
      ⟨auth.events ++ anon.events, anon.jar,
        anon.result.map (compareProbes "GET".toList probeUrl authResponse)⟩

/-- `_unavailable`. -/
def unavailable (reason : Str) : PersonaAuthResult := ⟨false, some reason, none, none, none⟩

/-- `establish_persona`. -/
def establishPersona (v : Vault) (e : HttpEngine) (probeUrl : Str) (persona : ConfiguredPersona)
    (env : PersonaEnv) (jar : CookieJar) : EngineRun EstablishError PersonaAuthResult :=
  match logInPersona v persona env.browser with
  | .error err => ⟨[], jar, .error err⟩
  | .ok (.refused reason) => ⟨[], jar, .ok (unavailable reason)⟩
  | .ok (.accepted state session) =>
      let run := oracleRun e session probeUrl env jar
      ⟨run.events, run.jar,
        (run.result.map fun oracle =>
          ⟨true, none, some state.json, oracle.oracle, some oracle.detail⟩).mapError .request⟩

/-- `oracleRun` returns what `establish_session_oracle` does. -/
theorem oracleRun_result (e : HttpEngine) (persona : SessionState) (probeUrl : Str)
    (env : PersonaEnv) (jar : CookieJar) :
    (oracleRun e persona probeUrl env jar).result =
      establishSessionOracle e persona probeUrl "GET".toList env.authEnv env.anonEnv jar := by
  unfold oracleRun establishSessionOracle
  dsimp only [bind, Except.bind]
  cases (e.request _ env.authEnv jar).result with
  | error err => rfl
  | ok auth => cases (e.request _ env.anonEnv _).result <;> rfl

end Sentinel.Worker
