/-
Sentinel.Worker.AuthAdapterTheorems — when establishing a persona comes
back, layer by layer: the recipe, the credential, the replay, the start
URL and the two probes.
-/
import Sentinel.Worker.AuthAdapter
import Sentinel.Py.Except

namespace Sentinel.Worker

open Sentinel.Py Sentinel.Core Sentinel.Auth Sentinel.Db

/-! ## Recipes -/

/-- Every key that is read with `[...]` is there. -/
structure RawRecipe.Complete (raw : RawRecipe) : Prop where
  steps : ∃ steps, raw.steps = some steps ∧ ∀ s ∈ steps, s.action.isSome = true
  successAssertion : ∃ assertion, raw.successAssertion = some assertion ∧
    assertion.kind.isSome = true ∧ assertion.value.isSome = true
  startUrl : raw.startUrl.isSome = true

theorem rawKey_eq_ok {α : Type} {key : String} {value : Option α} {v : α} :
    rawKey key value = .ok v ↔ value = some v := by
  cases value with
  | none => exact ⟨fun h => (nomatch h), fun h => (nomatch h)⟩
  | some v' =>
    exact ⟨fun h => congrArg some (Except.ok.inj h), fun h => congrArg _ (Option.some.inj h)⟩

theorem buildLoginStep_returns_iff {s : RawStep} :
    (∃ step, buildLoginStep s = .ok step) ↔ s.action.isSome = true := by
  simp only [buildLoginStep, bind_eq_ok, rawKey_eq_ok, Option.isSome_iff_exists]
  constructor
  · rintro ⟨_, action, haction, -⟩
    exact ⟨action, haction⟩
  · rintro ⟨action, haction⟩
    exact ⟨_, action, haction, rfl⟩

/-- **A recipe is built** exactly if its keys are there. -/
theorem buildLoginRecipe_returns_iff {raw : RawRecipe} :
    (∃ recipe, buildLoginRecipe raw = .ok recipe) ↔ raw.Complete := by
  have hsteps : ∀ steps : List RawStep, (∃ built, steps.mapM buildLoginStep = .ok built) ↔
      ∀ s ∈ steps, s.action.isSome = true := fun steps =>
    mapM_returns_iff.trans (forall₂_congr fun s _ => buildLoginStep_returns_iff)
  simp only [buildLoginRecipe, bind_eq_ok, rawKey_eq_ok]
  constructor
  · rintro ⟨_, steps, hraw, built, hbuilt, assertion, hassertion, kind, hkind, value, hvalue,
      startUrl, hstartUrl, -⟩
    exact ⟨⟨steps, hraw, (hsteps steps).mp ⟨built, hbuilt⟩⟩,
      ⟨assertion, hassertion, by rw [hkind]; rfl, by rw [hvalue]; rfl⟩, by rw [hstartUrl]; rfl⟩
  · rintro ⟨⟨steps, hraw, hactions⟩, ⟨assertion, hassertion, hkind, hvalue⟩, hstartUrl⟩
    obtain ⟨built, hbuilt⟩ := (hsteps steps).mpr hactions
    obtain ⟨kind, hkind⟩ := Option.isSome_iff_exists.mp hkind
    obtain ⟨value, hvalue⟩ := Option.isSome_iff_exists.mp hvalue
    obtain ⟨startUrl, hstartUrl⟩ := Option.isSome_iff_exists.mp hstartUrl
    exact ⟨_, steps, hraw, built, hbuilt, assertion, hassertion, kind, hkind, value, hvalue,
      startUrl, hstartUrl, rfl⟩

variable [PyRuntime]

/-! ## Logging in -/

/-- The login comes back behind the decryption: the replay meets nothing it
does not handle, and a start URL that was logged in at parses. -/
structure ReplaysQuietly (browser : BrowserRun) (recipe : LoginRecipe) (ref plaintext : Str) :
    Prop where
  replay : ReplayQuiet browser recipe [(ref, ⟨ref, plaintext⟩)]
  startUrl : ∀ state, browser.replay recipe [(ref, ⟨ref, plaintext⟩)] = .ok (.success state) →
    Parses recipe.startUrl

theorem replayLogin_returns_iff {persona : ConfiguredPersona} {browser : BrowserRun}
    {recipe : LoginRecipe} {ref plaintext : Str} :
    (∃ login, replayLogin persona browser recipe ref plaintext = .ok login) ↔
      ReplaysQuietly browser recipe ref plaintext := by
  simp only [replayLogin, bind_eq_ok, mapError_eq_ok]
  constructor
  · rintro ⟨login, result, hresult, hlogin⟩
    refine ⟨replay_returns_iff.mp ⟨result, hresult⟩, fun state hstate => ?_⟩
    obtain rfl := Except.ok.inj (hresult.symm.trans hstate)
    obtain ⟨parts, hparts, -⟩ := bind_eq_ok.mp hlogin
    exact ⟨parts, mapError_eq_ok.mp hparts⟩
  · intro h
    obtain ⟨result, hresult⟩ := replay_returns_iff.mpr h.replay
    cases result with
    | failure error => exact ⟨_, _, hresult, rfl⟩
    | success state =>
      obtain ⟨parts, hparts⟩ := h.startUrl state hresult
      exact ⟨_, _, hresult, bind_eq_ok.mpr ⟨parts, mapError_eq_ok.mpr hparts, rfl⟩⟩

/-- The login comes back: with a recipe and a credential, the recipe is
complete, and if it asks for the secret then the credential decrypts to a
text and the replay behind it comes back. -/
def LogsInQuietly (v : Vault) (persona : ConfiguredPersona) (browser : BrowserRun) : Prop :=
  ∀ raw ciphertext, persona.loginRecipe.filter (· ≠ {}) = some raw →
    persona.credential = some ciphertext → raw.Complete ∧
      ∀ recipe ref, buildLoginRecipe raw = .ok recipe → secretRef recipe = some ref →
        ∃ plaintext, v.reveal ciphertext = .ok plaintext ∧
          ReplaysQuietly browser recipe ref plaintext

theorem logInPersona_returns_iff {v : Vault} {persona : ConfiguredPersona} {browser : BrowserRun} :
    (∃ login, logInPersona v persona browser = .ok login) ↔ LogsInQuietly v persona browser := by
  unfold logInPersona LogsInQuietly
  cases persona.loginRecipe.filter (· ≠ {}) with
  | none => exact ⟨fun _ _ _ h => (nomatch h), fun _ => ⟨_, rfl⟩⟩
  | some raw =>
    cases persona.credential with
    | none => exact ⟨fun _ _ _ _ h => (nomatch h), fun _ => ⟨_, rfl⟩⟩
    | some ciphertext =>
      dsimp only
      constructor
      · rintro ⟨login, hlogin⟩ _ _ ⟨⟩ ⟨⟩
        obtain ⟨recipe, hrecipe, hlogin⟩ := bind_eq_ok.mp hlogin
        refine ⟨buildLoginRecipe_returns_iff.mp ⟨recipe, hrecipe⟩,
          fun recipe' ref hrecipe' href => ?_⟩
        obtain rfl := Except.ok.inj (hrecipe.symm.trans hrecipe')
        rw [href] at hlogin
        obtain ⟨plaintext, hplaintext, hlogin⟩ := bind_eq_ok.mp hlogin
        exact ⟨plaintext, hplaintext, replayLogin_returns_iff.mp ⟨login, hlogin⟩⟩
      · intro h
        obtain ⟨hcomplete, hsecret⟩ := h raw ciphertext rfl rfl
        obtain ⟨recipe, hrecipe⟩ := buildLoginRecipe_returns_iff.mpr hcomplete
        cases href : secretRef recipe with
        | none => exact ⟨_, bind_eq_ok.mpr ⟨recipe, hrecipe, by rw [href]; rfl⟩⟩
        | some ref =>
          obtain ⟨plaintext, hplaintext, hquiet⟩ := hsecret recipe ref hrecipe href
          obtain ⟨login, hlogin⟩ := replayLogin_returns_iff.mpr hquiet
          refine ⟨login, bind_eq_ok.mpr ⟨recipe, hrecipe, ?_⟩⟩
          rw [href]
          exact bind_eq_ok.mpr ⟨plaintext, hplaintext, hlogin⟩

/-! ## The probes -/

/-- Both probes of the oracle are answered. -/
structure ProbesAnswered (e : HttpEngine) (session : SessionState) (probeUrl : Str)
    (env : PersonaEnv) : Prop where
  auth : e.Answers { method := "GET".toList, url := probeUrl, persona := some session } env.authEnv
  anon : e.Answers { method := "GET".toList, url := probeUrl, persona := some anonymousSession }
    env.anonEnv

theorem oracleRun_returns_iff {e : HttpEngine} {session : SessionState} {probeUrl : Str}
    {env : PersonaEnv} {jar : CookieJar} :
    (∃ oracle, (oracleRun e session probeUrl env jar).result = .ok oracle) ↔
      ProbesAnswered e session probeUrl env := by
  simp only [oracleRun_result, establishSessionOracle, bind_eq_ok]
  constructor
  · rintro ⟨_, auth, hauth, anon, hanon, -⟩
    exact ⟨(request_returns_iff ..).mp ⟨auth, hauth⟩, (request_returns_iff ..).mp ⟨anon, hanon⟩⟩
  · intro h
    obtain ⟨auth, hauth⟩ := (request_returns_iff _ _ _ jar).mpr h.auth
    obtain ⟨anon, hanon⟩ := (request_returns_iff _ _ _ _).mpr h.anon
    exact ⟨_, auth, hauth, anon, hanon, rfl⟩

/-- The jar has no part in the oracle. -/
theorem oracleRun_result_jar (e : HttpEngine) (session : SessionState) (probeUrl : Str)
    (env : PersonaEnv) (jar jar' : CookieJar) :
    (oracleRun e session probeUrl env jar).result =
      (oracleRun e session probeUrl env jar').result := by
  rw [oracleRun_result, oracleRun_result]
  unfold establishSessionOracle
  dsimp only
  rw [request_result_jar e _ env.authEnv jar jar', request_result_jar e _ env.anonEnv _
    (e.request { method := "GET".toList, url := probeUrl, persona := some session }
      env.authEnv jar').jar]

/-! ## Establishing -/

/-- **Nothing goes wrong in a way `establish_persona` does not handle**: the
login comes back, and if it succeeds both probes are answered. -/
structure EstablishesQuietly (v : Vault) (e : HttpEngine) (probeUrl : Str)
    (persona : ConfiguredPersona) (env : PersonaEnv) : Prop where
  login : LogsInQuietly v persona env.browser
  probes : ∀ state session, logInPersona v persona env.browser = .ok (.accepted state session) →
    ProbesAnswered e session probeUrl env

theorem establishPersona_returns_iff {v : Vault} {e : HttpEngine} {probeUrl : Str}
    {persona : ConfiguredPersona} {env : PersonaEnv} {jar : CookieJar} :
    (∃ result, (establishPersona v e probeUrl persona env jar).result = .ok result) ↔
      EstablishesQuietly v e probeUrl persona env := by
  unfold establishPersona
  constructor
  · rintro ⟨result, hresult⟩
    cases hlogin : logInPersona v persona env.browser with
    | error err =>
      rw [hlogin] at hresult
      exact nomatch hresult
    | ok login =>
      refine ⟨logInPersona_returns_iff.mp ⟨login, hlogin⟩, fun state session haccepted => ?_⟩
      obtain rfl := Except.ok.inj (hlogin.symm.trans haccepted)
      rw [hlogin] at hresult
      obtain ⟨oracle, horacle, -⟩ := map_eq_ok.mp (mapError_eq_ok.mp hresult)
      exact oracleRun_returns_iff.mp ⟨oracle, horacle⟩
  · intro h
    obtain ⟨login, hlogin⟩ := logInPersona_returns_iff.mpr h.login
    rw [hlogin]
    cases login with
    | refused reason => exact ⟨_, rfl⟩
    | accepted state session =>
      obtain ⟨oracle, horacle⟩ := oracleRun_returns_iff.mpr (h.probes state session hlogin)
      exact ⟨_, mapError_eq_ok.mpr (map_eq_ok.mpr ⟨oracle, horacle, rfl⟩)⟩

/-- The jar has no part in what `establish_persona` returns. -/
theorem establishPersona_result_jar (v : Vault) (e : HttpEngine) (probeUrl : Str)
    (persona : ConfiguredPersona) (env : PersonaEnv) (jar jar' : CookieJar) :
    (establishPersona v e probeUrl persona env jar).result =
      (establishPersona v e probeUrl persona env jar').result := by
  unfold establishPersona
  split
  · rfl
  · rfl
  · dsimp only
    rw [oracleRun_result_jar e _ probeUrl env jar jar']

/-! ## What a login comes to -/

/-- Everything a login replays with is there. -/
structure ReplaysWith (v : Vault) (persona : ConfiguredPersona) (raw : RawRecipe)
    (ciphertext : Str) (recipe : LoginRecipe) (ref plaintext : Str) : Prop where
  stored : persona.loginRecipe.filter (· ≠ {}) = some raw
  credential : persona.credential = some ciphertext
  built : buildLoginRecipe raw = .ok recipe
  secret : secretRef recipe = some ref
  plaintext : v.reveal ciphertext = .ok plaintext

/-- The reasons for which a login does not come to its replay. -/
inductive Unconfigured : Str → Prop where
  | recipe : Unconfigured "No login recipe configured for this persona.".toList
  | credential : Unconfigured "No credential configured for this persona.".toList
  | secret : Unconfigured
      "Login recipe has no fill_secret step to attach the credential to.".toList

/-- Then a login is its replay, in every browser. -/
theorem logInPersona_eq {v : Vault} {persona : ConfiguredPersona} {raw : RawRecipe}
    {recipe : LoginRecipe} {ciphertext ref plaintext : Str}
    (h : ReplaysWith v persona raw ciphertext recipe ref plaintext) (browser : BrowserRun) :
    logInPersona v persona browser = replayLogin persona browser recipe ref plaintext := by
  unfold logInPersona
  rw [h.stored, h.credential]
  dsimp only
  rw [h.built]
  dsimp only [bind, Except.bind]
  rw [h.secret]
  dsimp only
  rw [h.plaintext]

/-- **A login that comes back** was refused because something is not
configured, or it is its replay. -/
theorem logInPersona_cases {v : Vault} {persona : ConfiguredPersona} {browser : BrowserRun}
    {login : Login} (h : logInPersona v persona browser = .ok login) :
    (∃ reason, Unconfigured reason ∧ login = .refused reason ∧
      ∀ raw ciphertext recipe ref plaintext,
        ¬ ReplaysWith v persona raw ciphertext recipe ref plaintext) ∨
    ∃ raw ciphertext recipe ref plaintext,
      ReplaysWith v persona raw ciphertext recipe ref plaintext ∧
        replayLogin persona browser recipe ref plaintext = .ok login := by
  unfold logInPersona at h
  cases hstored : persona.loginRecipe.filter (· ≠ {}) with
  | none =>
    rw [hstored] at h
    obtain rfl := Except.ok.inj h
    exact .inl ⟨_, .recipe, rfl, fun _ _ _ _ _ hw => nomatch hstored.symm.trans hw.stored⟩
  | some raw =>
    cases hcredential : persona.credential with
    | none =>
      rw [hstored, hcredential] at h
      obtain rfl := Except.ok.inj h
      exact .inl ⟨_, .credential, rfl,
        fun _ _ _ _ _ hw => nomatch hcredential.symm.trans hw.credential⟩
    | some ciphertext =>
      rw [hstored, hcredential] at h
      obtain ⟨recipe, hbuilt, h⟩ := bind_eq_ok.mp h
      cases hsecret : secretRef recipe with
      | none =>
        rw [hsecret] at h
        obtain rfl := Except.ok.inj h
        refine .inl ⟨_, .secret, rfl, fun raw' _ recipe' _ _ hw => ?_⟩
        obtain rfl := Option.some.inj (hstored.symm.trans hw.stored)
        obtain rfl := Except.ok.inj (hbuilt.symm.trans hw.built)
        exact nomatch hsecret.symm.trans hw.secret
      | some ref =>
        rw [hsecret] at h
        obtain ⟨plaintext, hplaintext, h⟩ := bind_eq_ok.mp h
        exact .inr ⟨raw, ciphertext, recipe, ref, plaintext,
          ⟨hstored, hcredential, hbuilt, hsecret, hplaintext⟩, h⟩

/-- Who is logged in had what it takes. -/
theorem replaysWith_of_accepted {v : Vault} {persona : ConfiguredPersona} {browser : BrowserRun}
    {state : StorageState} {session : SessionState}
    (h : logInPersona v persona browser = .ok (.accepted state session)) :
    ∃ raw ciphertext recipe ref plaintext,
      ReplaysWith v persona raw ciphertext recipe ref plaintext := by
  rcases logInPersona_cases h with ⟨_, _, heq, _⟩ | ⟨raw, ciphertext, recipe, ref, plaintext, hw, -⟩
  · cases heq
  · exact ⟨raw, ciphertext, recipe, ref, plaintext, hw⟩

/-! ## What establishing comes to -/

/-- **What `establish_persona` returns**: a refusal with its reason, which
left the engine alone, or a session of somebody who was logged in. -/
theorem establishPersona_cases {v : Vault} {e : HttpEngine} {probeUrl : Str}
    {persona : ConfiguredPersona} {env : PersonaEnv} {jar : CookieJar} {result : PersonaAuthResult}
    (h : (establishPersona v e probeUrl persona env jar).result = .ok result) :
    (∃ reason, result = unavailable reason ∧
      (establishPersona v e probeUrl persona env jar).events = [] ∧
      (establishPersona v e probeUrl persona env jar).jar = jar) ∨
    result.available = true ∧
      ∃ state session, logInPersona v persona env.browser = .ok (.accepted state session) := by
  unfold establishPersona at h ⊢
  cases hlogin : logInPersona v persona env.browser with
  | error err =>
    rw [hlogin] at h
    exact nomatch h
  | ok login =>
    rw [hlogin] at h
    cases login with
    | refused reason => exact .inl ⟨reason, (Except.ok.inj h).symm, rfl, rfl⟩
    | accepted state session =>
      obtain ⟨oracle, -, rfl⟩ := map_eq_ok.mp (mapError_eq_ok.mp h)
      exact .inr ⟨rfl, state, session, rfl⟩

/-- A session can be encrypted: its persona's credential was decrypted with
the same key. -/
theorem encryptWith_of_accepted {v : Vault} {persona : ConfiguredPersona} {browser : BrowserRun}
    {state : StorageState} {session : SessionState}
    (h : logInPersona v persona browser = .ok (.accepted state session)) (nonce : Str)
    (plaintext : Bytes) :
    v.fernet.encryptWith v.dataKey nonce plaintext =
      .ok (v.fernet.encrypt v.dataKey nonce plaintext) := by
  obtain ⟨raw, ciphertext, recipe, ref, secret, hw⟩ := replaysWith_of_accepted h
  obtain ⟨bytes, hbytes, -⟩ := bind_eq_ok.mp hw.plaintext
  exact Fernet.encryptWith_of_decryptWith (mapError_eq_ok.mp hbytes) nonce plaintext

end Sentinel.Worker
