/-
Sentinel.Worker.CredentialEcho — what the transcripts of
`_run_auth_establishing` show of the credentials it decrypted.

The recorder of `build_http_engine` is told of no secret, so of a body it
redacts only what looks like a token. The probes send no body; hence a
plaintext reaches a stored body exactly if the target echoes it.
-/
import Sentinel.Core.TranscriptTheorems
import Sentinel.Worker.AuthEstablishing

namespace Sentinel.Worker

open Sentinel.Py Sentinel.Core Sentinel.Auth Sentinel.Db Sentinel.Loop

/-- The plaintext `establish_persona` decrypts, if it gets that far. -/
def Vault.decrypts (v : Vault) (persona : ConfiguredPersona) : Option Str :=
  match persona.loginRecipe.filter (· ≠ {}), persona.credential with
  | some raw, some ciphertext =>
      match buildLoginRecipe raw with
      | .error _ => none
      | .ok recipe => if (secretRef recipe).isSome then (v.reveal ciphertext).toOption else none
  | _, _ => none

variable [PyRuntime]

/-- The personas a run comes to: those whose rows it writes, and the one at
which it ends early. -/
def AuthSetup.reached (s : AuthSetup) (items : List AuthItem) : List AuthItem :=
  items.take ((s.runAuthEstablishing items).1.personas.length + 1)

/-- The plaintexts a run decrypts. -/
def AuthSetup.decrypted (s : AuthSetup) (items : List AuthItem) : List Str :=
  match s.vault with
  | .error _ => []
  | .ok v => (s.reached items).filterMap fun item => v.decrypts item.1

/-- The run hands this to its recorder. -/
def AuthSetup.Records (s : AuthSetup) (items : List AuthItem) (args : TranscriptArgs) : Prop :=
  .record args ∈ (s.runAuthEstablishing items).1.events

/-- No transcript body of the run has a plaintext in it that the run
decrypted. -/
def AuthSetup.KeepsSecrets (s : AuthSetup) (items : List AuthItem) : Prop :=
  ∀ secret ∈ s.decrypted items, Scrubbable secret → ∀ args, s.Records items args → ∀ now,
    ¬ bodyContains (s.substrate.2.record args now).request.body secret ∧
      ∀ r, (s.substrate.2.record args now).response = some r → ¬ bodyContains r.body secret

/-- The body has the secret outside what looks like a token; if it is no
text, anywhere. -/
def Echoes (body : Bytes) (secret : Str) : Prop :=
  (∃ text, decodeStrict body = some text ∧ secret <:+: scrubText [] text) ∨
    OpaqueContains body secret

/-- The probe of the oracle with a session. -/
def AuthSetup.probe (s : AuthSetup) (session : SessionState) : RequestCall :=
  { method := "GET".toList, url := s.probeUrl, persona := some session }

/-- One of the two probes of a session ends with this response of the
target; the anonymous one comes only if the first returned. -/
def AuthSetup.Probes (s : AuthSetup) (session : SessionState) (env : PersonaEnv)
    (answer : HttpxResponse) : Prop :=
  s.substrate.1.EndsWith (s.probe session) env.authEnv answer ∨
    s.substrate.1.Answers (s.probe session) env.authEnv ∧
      s.substrate.1.EndsWith (s.probe anonymousSession) env.anonEnv answer

/-- The run comes to a persona whose login is accepted, and the target
answers one of its probes so. -/
def AuthSetup.Receives (s : AuthSetup) (items : List AuthItem) (answer : HttpxResponse) : Prop :=
  ∃ v, s.vault = .ok v ∧ ∃ item, ComesTo (s.QuietAt v) items item ∧
    ∃ state session, logInPersona v item.1 item.2.browser = .ok (.accepted state session) ∧
      s.Probes session item.2 answer

/-! ## What the run records -/

/-- A transcript among the effects has this response body. -/
def RecordsBody (events : List Core.Event) (body : Bytes) : Prop :=
  ∃ args r, .record args ∈ events ∧ args.response = some r ∧ r.body = some body

omit [PyRuntime] in
theorem not_recordsBody_nil {body : Bytes} : ¬ RecordsBody [] body := by
  rintro ⟨_, _, hmem, -⟩
  exact absurd hmem List.not_mem_nil

omit [PyRuntime] in
theorem recordsBody_append {xs ys : List Core.Event} {body : Bytes} :
    RecordsBody (xs ++ ys) body ↔ RecordsBody xs body ∨ RecordsBody ys body := by
  constructor
  · rintro ⟨args, r, hmem, hr⟩
    rcases List.mem_append.mp hmem with hmem | hmem
    · exact .inl ⟨args, r, hmem, hr⟩
    · exact .inr ⟨args, r, hmem, hr⟩
  · rintro (⟨args, r, hmem, hr⟩ | ⟨args, r, hmem, hr⟩)
    · exact ⟨args, r, List.mem_append_left _ hmem, hr⟩
    · exact ⟨args, r, List.mem_append_right _ hmem, hr⟩

/-- The probes of a session record the responses they end with. -/
theorem oracleRun_recordsBody_iff {s : AuthSetup} {session : SessionState} {env : PersonaEnv}
    {jar : CookieJar} {body : Bytes} :
    RecordsBody (oracleRun s.substrate.1 session s.probeUrl env jar).events body ↔
      ∃ answer, s.Probes session env answer ∧ answer.content = body := by
  have hauth : RecordsBody (s.substrate.1.request (s.probe session) env.authEnv jar).events body ↔
      ∃ answer, s.substrate.1.EndsWith (s.probe session) env.authEnv answer ∧
        answer.content = body := records_response_iff
  have hreturns := request_returns_iff s.substrate.1 (s.probe session) env.authEnv jar
  unfold AuthSetup.Probes
  cases hresult : (s.substrate.1.request (s.probe session) env.authEnv jar).result with
  | error err =>
    have hevents : (oracleRun s.substrate.1 session s.probeUrl env jar).events =
        (s.substrate.1.request (s.probe session) env.authEnv jar).events := by
      unfold AuthSetup.probe at hresult
      unfold oracleRun
      dsimp only
      rw [hresult]
      rfl
    have hunanswered : ¬ s.substrate.1.Answers (s.probe session) env.authEnv := by
      intro hanswers
      obtain ⟨r, hr⟩ := hreturns.mpr hanswers
      exact nomatch hresult.symm.trans hr
    simp only [hunanswered, false_and, or_false]
    rw [hevents]
    exact hauth
  | ok authResponse =>
    have hevents : (oracleRun s.substrate.1 session s.probeUrl env jar).events =
        (s.substrate.1.request (s.probe session) env.authEnv jar).events ++
        (s.substrate.1.request (s.probe anonymousSession) env.anonEnv
          (s.substrate.1.request (s.probe session) env.authEnv jar).jar).events := by
      unfold AuthSetup.probe at hresult
      unfold oracleRun
      dsimp only
      rw [hresult]
      rfl
    have hanswered := hreturns.mp ⟨authResponse, hresult⟩
    simp only [hanswered, true_and, or_and_right, exists_or]
    rw [hevents, recordsBody_append]
    exact or_congr hauth records_response_iff

theorem establishPersona_recordsBody_iff {s : AuthSetup} {v : Vault} {item : AuthItem}
    {jar : CookieJar} {body : Bytes} :
    RecordsBody (establishPersona v s.substrate.1 s.probeUrl item.1 item.2 jar).events body ↔
      ∃ state session, logInPersona v item.1 item.2.browser = .ok (.accepted state session) ∧
        ∃ answer, s.Probes session item.2 answer ∧ answer.content = body := by
  unfold establishPersona
  cases hlogin : logInPersona v item.1 item.2.browser with
  | error err =>
    refine ⟨fun h => absurd h not_recordsBody_nil, ?_⟩
    rintro ⟨_, _, haccepted, -⟩
    cases haccepted
  | ok login =>
    cases login with
    | refused reason =>
      refine ⟨fun h => absurd h not_recordsBody_nil, ?_⟩
      rintro ⟨_, _, haccepted, -⟩
      cases haccepted
    | accepted state session =>
      refine oracleRun_recordsBody_iff.trans ⟨fun h => ⟨state, session, rfl, h⟩, ?_⟩
      rintro ⟨_, _, haccepted, h⟩
      cases haccepted
      exact h

omit [PyRuntime] in
theorem recordResult_events (v : Vault) (item : AuthItem) (result : PersonaAuthResult)
    (st : AuthRun) : (recordResult v item result st).1.events = st.events := by
  unfold recordResult
  cases result.available with
  | false => rfl
  | true =>
    dsimp only
    cases v.fernet.encryptWith v.dataKey item.2.nonce
      (encodeStrict (result.storageState.getD "null".toList)) <;> rfl

theorem establishStep_events (s : AuthSetup) (v : Vault) (st : AuthRun) (item : AuthItem) :
    (s.establishStep v st item).1.events = st.events ++
      (establishPersona v s.substrate.1 s.probeUrl item.1 item.2 st.jar).events := by
  unfold AuthSetup.establishStep
  dsimp only
  cases (establishPersona v s.substrate.1 s.probeUrl item.1 item.2 st.jar).result with
  | error e => rfl
  | ok result => exact recordResult_events v item result _

/-- **The responses in the transcripts are those the probes end with**, also
in a run that ends early. -/
theorem runAuthEstablishing_recordsBody_iff (s : AuthSetup) (items : List AuthItem)
    (body : Bytes) : RecordsBody (s.runAuthEstablishing items).1.events body ↔
      ∃ answer, s.Receives items answer ∧ answer.content = body := by
  cases hv : s.vault with
  | error e =>
    have hevents : (s.runAuthEstablishing items).1.events = [] := by
      unfold AuthSetup.runAuthEstablishing
      rw [hv]
      split <;> rfl
    rw [hevents]
    refine ⟨fun h => absurd h not_recordsBody_nil, ?_⟩
    rintro ⟨answer, ⟨v, hv', -⟩, -⟩
    exact nomatch hv.symm.trans hv'
  | ok v =>
    have hround (st : AuthRun) (item : AuthItem) :
        RecordsBody (s.establishStep v st item).1.events body ↔ RecordsBody st.events body ∨
          ∃ state session, logInPersona v item.1 item.2.browser = .ok (.accepted state session) ∧
            ∃ answer, s.Probes session item.2 answer ∧ answer.content = body := by
      rw [establishStep_events, recordsBody_append, establishPersona_recordsBody_iff]
    rw [runAuthEstablishing_of_vault hv]
    refine (runUntil_shows_iff (establishStep_returns_iff s v)
      (fun st => RecordsBody st.events body) hround).trans ?_
    constructor
    · rintro (h | ⟨item, hcomes, state, session, hlogin, answer, hprobes, rfl⟩)
      · exact absurd h not_recordsBody_nil
      · exact ⟨answer, ⟨v, hv, item, hcomes, state, session, hlogin, hprobes⟩, rfl⟩
    · rintro ⟨answer, ⟨v', hv', item, hcomes, state, session, hlogin, hprobes⟩, rfl⟩
      obtain rfl := Except.ok.inj (hv.symm.trans hv')
      exact .inr ⟨item, hcomes, state, session, hlogin, answer, hprobes, rfl⟩

/-- The transcripts among the effects have no request body. -/
def SendsNoBody (events : List Core.Event) : Prop :=
  ∀ args, .record args ∈ events → args.request.body = none

omit [PyRuntime] in
theorem sendsNoBody_nil : SendsNoBody [] := fun _ hmem => absurd hmem List.not_mem_nil

omit [PyRuntime] in
theorem sendsNoBody_append {xs ys : List Core.Event} (hxs : SendsNoBody xs)
    (hys : SendsNoBody ys) : SendsNoBody (xs ++ ys) :=
  fun args hmem => (List.mem_append.mp hmem).elim (hxs args) (hys args)

theorem request_sendsNoBody {s : AuthSetup} {session : SessionState} {env : CallEnv}
    {jar : CookieJar} : SendsNoBody (s.substrate.1.request (s.probe session) env jar).events := by
  intro args hmem
  obtain ⟨-, -, rfl⟩ := record_mem_request_iff.mp hmem
  rfl

theorem establishPersona_sendsNoBody {s : AuthSetup} {v : Vault} {item : AuthItem}
    {jar : CookieJar} :
    SendsNoBody (establishPersona v s.substrate.1 s.probeUrl item.1 item.2 jar).events := by
  unfold establishPersona
  split
  · exact sendsNoBody_nil
  · exact sendsNoBody_nil
  · unfold oracleRun
    dsimp only
    split
    · exact request_sendsNoBody
    · exact sendsNoBody_append request_sendsNoBody request_sendsNoBody

/-- The run sends no body, also if it ends early. -/
theorem runAuthEstablishing_sendsNoBody (s : AuthSetup) (items : List AuthItem) :
    SendsNoBody (s.runAuthEstablishing items).1.events := by
  unfold AuthSetup.runAuthEstablishing
  split
  · exact sendsNoBody_nil
  · split
    · exact sendsNoBody_nil
    · refine runUntil_keeps (P := fun st : AuthRun => SendsNoBody st.events) ?_ sendsNoBody_nil
      intro st item _ hkept
      rw [establishStep_events]
      exact sendsNoBody_append hkept establishPersona_sendsNoBody

/-! ## Echoes -/

/-- What the recorder stores of a response body has the secret in it
exactly if the body echoes it. -/
theorem bodyContains_record_iff {secret : Str} {body : Bytes} :
    bodyContains ((scrubBody (some body) []).map bodyField) secret ↔ Echoes body secret := by
  unfold Echoes bodyContains
  cases htext : decodeStrict body with
  | some text =>
    rw [bodyField_scrub_text htext]
    constructor
    · rintro ⟨_, hfield, hin⟩
      obtain rfl := Option.some.inj hfield
      exact .inl ⟨text, rfl, contains_text.mp hin⟩
    · rintro (⟨_, htext', hin⟩ | ⟨hnone, -⟩)
      · obtain rfl := Option.some.inj htext'
        exact ⟨_, rfl, contains_text.mpr hin⟩
      · exact absurd (htext.symm.trans hnone) (Option.some_ne_none text)
  | none =>
    rw [bodyField_scrub_base64 htext]
    constructor
    · rintro ⟨_, hfield, hin⟩
      obtain rfl := Option.some.inj hfield
      exact .inr ⟨htext, contains_base64.mp hin⟩
    · rintro (⟨_, hsome, -⟩ | ⟨-, hin⟩)
      · exact nomatch hsome
      · exact ⟨_, rfl, contains_base64.mpr hin⟩

/-- One transcript of the run: its bodies are free of the secret exactly if
the response does not echo it. -/
theorem record_bodies_iff {s : AuthSetup} {items : List AuthItem} {args : TranscriptArgs}
    (hargs : s.Records items args) (now secret : Str) :
    (¬ bodyContains (s.substrate.2.record args now).request.body secret ∧
        ∀ r, (s.substrate.2.record args now).response = some r → ¬ bodyContains r.body secret) ↔
      ∀ r, args.response = some r → ∀ body, r.body = some body → ¬ Echoes body secret := by
  have hnobody := runAuthEstablishing_sendsNoBody s items args hargs
  constructor
  · rintro ⟨-, h⟩ r hresponse body hbody hecho
    refine h _ (congrArg (Option.map _) (congrArg (Option.map _) hresponse)) ?_
    dsimp only
    rw [hbody]
    exact bodyContains_record_iff.mpr hecho
  · intro h
    constructor
    · have hrequest : (s.substrate.2.record args now).request.body =
          (scrubBody args.request.body []).map bodyField := rfl
      rw [hrequest, hnobody]
      exact fun ⟨_, hfield, _⟩ => (nomatch hfield)
    · intro r hr
      obtain ⟨scrubbed, hscrubbed, rfl⟩ := Option.map_eq_some_iff.mp hr
      obtain ⟨response, hresponse, rfl⟩ := Option.map_eq_some_iff.mp hscrubbed
      cases hbody : response.body with
      | none => exact fun ⟨_, hfield, _⟩ => (nomatch hfield)
      | some body =>
        exact fun hin => h response hresponse body hbody (bodyContains_record_iff.mp hin)

/-- **No plaintext in a transcript body**, exactly if no response that a
probe ends with echoes a plaintext. -/
theorem keepsSecrets_iff (s : AuthSetup) (items : List AuthItem) :
    s.KeepsSecrets items ↔
      ∀ secret ∈ s.decrypted items, Scrubbable secret → ∀ answer, s.Receives items answer →
        ¬ Echoes answer.content secret := by
  constructor
  · intro h secret hsecret hscrubbable answer hreceives
    obtain ⟨args, r, hargs, hresponse, hbody⟩ :=
      (runAuthEstablishing_recordsBody_iff s items _).mpr ⟨answer, hreceives, rfl⟩
    have hclean := h secret hsecret hscrubbable args hargs []
    exact (record_bodies_iff hargs [] secret).mp hclean r hresponse _ hbody
  · intro h secret hsecret hscrubbable args hargs now
    refine (record_bodies_iff hargs now secret).mpr fun r hresponse body hbody => ?_
    obtain ⟨answer, hreceives, rfl⟩ := (runAuthEstablishing_recordsBody_iff s items body).mp
      ⟨args, r, hargs, hresponse, hbody⟩
    exact h secret hsecret hscrubbable answer hreceives

/-- A page that shows Bob his password. -/
def passwordPage : Bytes := encodeStrict "Password: hunter2".toList

/-- Bob, and a server that answers with that page. -/
def echoingItems : List AuthItem := [(acmePersona "bob" "k:hunter2", smoothEnv passwordPage)]

/-- What the first probe hands to the recorder. -/
def passwordTranscript : TranscriptArgs where
  scanId := "scan-1".toList
  personaId := some "bob".toList
  request := ⟨"GET".toList, "https://app.acme.test/".toList,
    [("User-Agent".toList,
      "SentinelScanner/0.1 (+https://example.invalid/about-our-scanner)".toList)], none⟩
  response := some ⟨200, [], some passwordPage, 1⟩
  error := none

omit [PyRuntime] in
/-- The password is stored with the transcript of the first probe. -/
theorem echoingItems_leak :
    let _ := PyRuntime.ascii
    "hunter2".toList ∈ acmeSetup.decrypted echoingItems ∧ ¬ acmeSetup.KeepsSecrets echoingItems := by
  intro runtime
  have hsecret : "hunter2".toList ∈ acmeSetup.decrypted echoingItems := by decide +kernel
  have hscrubbable : Scrubbable "hunter2".toList :=
    ⟨by decide +kernel, by decide +kernel, by decide +kernel⟩
  have hrecorded : acmeSetup.Records echoingItems passwordTranscript := by
    unfold AuthSetup.Records
    decide +kernel
  have hecho : Echoes passwordPage "hunter2".toList :=
    .inl ⟨_, decodeStrict_encodeStrict _, by decide +kernel⟩
  refine ⟨hsecret, fun h => ?_⟩
  have hclean := h _ hsecret hscrubbable _ hrecorded []
  exact (record_bodies_iff hrecorded [] _).mp hclean _ rfl _ rfl hecho

end Sentinel.Worker
