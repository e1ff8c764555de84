/-
Sentinel.Worker.AuthEstablishing — `_run_auth_establishing`: all personas
of a scan one after another, over one engine.

The loop goes on to the next persona after a refused login, but catches
nothing: an exception of `establish_persona` ends it. Two theorems say what
that makes of the isolation of personas. The loop that runs to its end
treats each persona as if the refused ones had not been there
(`runUntil_view`); and it runs to its end exactly if establishing no
persona raises.
-/
import Sentinel.Durable.Returns
import Sentinel.Loop.Stopping
import Sentinel.Worker.AuthAdapterTheorems
import Sentinel.Worker.Substrate

namespace Sentinel.Worker

open Sentinel.Py Sentinel.Core Sentinel.Auth Sentinel.Db Sentinel.Loop

/-- The arguments of `_run_auth_establishing` besides the personas. -/
structure AuthSetup where
  fernet : Fernet
  kmsMasterKey : Str
  wrappedDataKey : Str
  target : Target
  scopeRules : List ScopeRuleRow
  scanId : Str
  scan : Scan := {}
  oracleProbeUrl : Option Str := none

/-- The loop's variables and the rows it writes: the scan, the personas so
far, the statistics, the sessions, and what the engine's collaborators saw. -/
structure AuthRun where
  scan : Scan
  personas : List Persona := []
  available : Nat := 0
  sessions : Dict := []
  jar : CookieJar := []
  events : List Core.Event := []
  deriving DecidableEq

/-- A configured persona with what its login meets. -/
abbrev AuthItem := ConfiguredPersona × PersonaEnv

/-- `oracle_probe_url or f"https://{target.root_domain}/"`. -/
def AuthSetup.probeUrl (s : AuthSetup) : Str :=
  (s.oracleProbeUrl.filter (· ≠ [])).getD ("https://".toList ++ s.target.rootDomain ++ ['/'])

/-- `crypto.unwrap_data_key(org.wrapped_data_key)`. -/
def AuthSetup.vault (s : AuthSetup) : Except EstablishError Vault := do
  let dataKey ← (s.fernet.unwrap [encodeStrict s.kmsMasterKey] s.wrappedDataKey).mapError .crypto
  return ⟨s.fernet, dataKey⟩

/-- A persona's row once its result is known. -/
def loggedRow (v : Vault) (item : AuthItem) (result : PersonaAuthResult) : Persona :=
  let row := { item.1.row with
    isAvailable := result.available
    unavailableReason := result.unavailableReason }
  if result.available then
    { row with
      sessionStateCiphertext := some (v.fernet.encrypt v.dataKey item.2.nonce
        (encodeStrict (result.storageState.getD "null".toList)))
      sessionStateUpdatedAt := some item.2.now
      sessionOracle := result.sessionOracle }
  else row

/-- The loop body behind `establish_persona`. -/
def recordResult (v : Vault) (item : AuthItem) (result : PersonaAuthResult) (st : AuthRun) :
    AuthRun × Option EstablishError :=
  if !result.available then
    ({ st with personas := st.personas ++ [loggedRow v item result] }, none)
  else
    let st := { st with
      available := st.available + 1
      sessions := st.sessions.set item.1.row.id (result.storageState.getD "{}".toList) }
    match v.fernet.encryptWith v.dataKey item.2.nonce
        (encodeStrict (result.storageState.getD "null".toList)) with
    | .error e => (st, some (.crypto e))
    | .ok _ =>
        ({ st with
            personas := st.personas ++ [loggedRow v item result]
            scan :=
              if result.sessionOracle = none then
                { st.scan with
                  isDegraded := true
                  degradedReasons := st.scan.degradedReasons ++ ["Persona '".toList ++
                    item.1.row.label ++ "': ".toList ++ result.oracleDetail.getD "None".toList] }
              else st.scan }, none)

variable [PyRuntime]

/-- The engine of the run, and its recorder. -/
def AuthSetup.substrate (s : AuthSetup) : HttpEngine × TranscriptRecorder :=
  buildHttpEngine (buildScopeGuard s.target s.scopeRules) s.target.id s.scanId

/-- The loop body. -/
def AuthSetup.establishStep (s : AuthSetup) (v : Vault) (st : AuthRun) (item : AuthItem) :
    AuthRun × Option EstablishError :=
  let run := establishPersona v s.substrate.1 s.probeUrl item.1 item.2 st.jar
  let st := { st with jar := run.jar, events := st.events ++ run.events }
  match run.result with
  | .error e => (st, some e)
  | .ok result => recordResult v item result st

/-- `_run_auth_establishing`: the loop's variables when it ended, and the
exception that ended it, if any. -/
def AuthSetup.runAuthEstablishing (s : AuthSetup) (items : List AuthItem) :
    AuthRun × Option EstablishError :=
  if items = [] then ({ scan := s.scan }, none)
  else
    match s.vault with
    | .error e => ({ scan := s.scan }, some e)
    | .ok v => runUntil (s.establishStep v) { scan := s.scan } items

/-! ## One round -/

/-- What `establish_persona` returns for a persona, whatever came before. -/
def AuthSetup.outcome (s : AuthSetup) (v : Vault) (item : AuthItem) :
    Except EstablishError PersonaAuthResult :=
  (establishPersona v s.substrate.1 s.probeUrl item.1 item.2 []).result

/-- Establishing the persona raises nothing. -/
def AuthSetup.QuietAt (s : AuthSetup) (v : Vault) (item : AuthItem) : Prop :=
  EstablishesQuietly v s.substrate.1 s.probeUrl item.1 item.2

theorem outcome_eq (s : AuthSetup) (v : Vault) (item : AuthItem) (jar : CookieJar) :
    (establishPersona v s.substrate.1 s.probeUrl item.1 item.2 jar).result = s.outcome v item :=
  establishPersona_result_jar ..

theorem outcome_returns_iff {s : AuthSetup} {v : Vault} {item : AuthItem} :
    (∃ result, s.outcome v item = .ok result) ↔ s.QuietAt v item :=
  establishPersona_returns_iff

omit [PyRuntime] in
/-- An available persona is taken up where its session can be encrypted. -/
theorem recordResult_available {v : Vault} {item : AuthItem} {result : PersonaAuthResult}
    (havailable : result.available = true)
    (hencrypt : ∀ plaintext, v.fernet.encryptWith v.dataKey item.2.nonce plaintext =
      .ok (v.fernet.encrypt v.dataKey item.2.nonce plaintext)) (st : AuthRun) :
    (recordResult v item result st).2 = none ∧
      (recordResult v item result st).1.personas = st.personas ++ [loggedRow v item result] ∧
      ((recordResult v item result st).1.available, (recordResult v item result st).1.sessions) =
        (st.available + 1,
          st.sessions.set item.1.row.id (result.storageState.getD "{}".toList)) := by
  unfold recordResult
  rw [havailable, hencrypt]
  exact ⟨rfl, rfl, rfl⟩

/-- A round either refuses, which writes the row and nothing else, or takes
the persona up. -/
inductive Round (s : AuthSetup) (v : Vault) (st : AuthRun) (item : AuthItem) :
    AuthRun × Option EstablishError → Prop where
  | raise (e : EstablishError) (st' : AuthRun) : s.outcome v item = .error e →
      Round s v st item (st', some e)
  | refuse (reason : Str) : s.outcome v item = .ok (unavailable reason) →
      Round s v st item
        ({ st with personas := st.personas ++ [loggedRow v item (unavailable reason)] }, none)
  | take (result : PersonaAuthResult) (st' : AuthRun) : s.outcome v item = .ok result →
      result.available = true → st'.personas = st.personas ++ [loggedRow v item result] →
      (st'.available, st'.sessions) = (st.available + 1,
        st.sessions.set item.1.row.id (result.storageState.getD "{}".toList)) →
      Round s v st item (st', none)

theorem establishStep_round (s : AuthSetup) (v : Vault) (st : AuthRun) (item : AuthItem) :
    Round s v st item (s.establishStep v st item) := by
  have houtcome := outcome_eq s v item st.jar
  unfold AuthSetup.establishStep
  dsimp only
  generalize hrun :
    establishPersona v s.substrate.1 s.probeUrl item.1 item.2 st.jar = run at houtcome
  obtain ⟨events, jar, result⟩ := run
  have hresult := congrArg EngineRun.result hrun
  dsimp only at houtcome hresult ⊢
  cases result with
  | error e => exact .raise e _ houtcome.symm
  | ok result =>
    rcases establishPersona_cases hresult with ⟨reason, rfl, hevents, hjar⟩ | ⟨havailable, state,
      session, haccepted⟩
    · rw [hrun] at hevents hjar
      dsimp only at hevents hjar
      rw [hevents, hjar, List.append_nil]
      exact .refuse reason houtcome.symm
    · obtain ⟨hnone, hrow, hcounts⟩ := recordResult_available havailable
        (encryptWith_of_accepted haccepted item.2.nonce)
        { st with jar := jar, events := st.events ++ events }
      have hround : Round s v st item (_, none) :=
        .take result _ houtcome.symm havailable hrow hcounts
      rwa [← hnone] at hround

theorem establishStep_returns_iff (s : AuthSetup) (v : Vault) (st : AuthRun) (item : AuthItem) :
    (s.establishStep v st item).2 = none ↔ s.QuietAt v item := by
  rw [← outcome_returns_iff]
  have hround := establishStep_round s v st item
  generalize s.establishStep v st item = res at hround
  cases hround with
  | raise e st' houtcome =>
    exact ⟨fun h => (nomatch h), fun ⟨_, h⟩ => (nomatch houtcome.symm.trans h)⟩
  | refuse reason houtcome => exact ⟨fun _ => ⟨_, houtcome⟩, fun _ => rfl⟩
  | take result st' houtcome => exact ⟨fun _ => ⟨_, houtcome⟩, fun _ => rfl⟩

/-! ## The rows -/

/-- The row a persona has after its round. -/
def AuthSetup.rowOf (s : AuthSetup) (v : Vault) (item : AuthItem) : Persona :=
  match s.outcome v item with
  | .ok result => loggedRow v item result
  | .error _ => item.1.row

theorem establishStep_row {s : AuthSetup} {v : Vault} (st : AuthRun) (item : AuthItem)
    (hnone : (s.establishStep v st item).2 = none) :
    (s.establishStep v st item).1.personas = st.personas ++ [s.rowOf v item] := by
  have hround := establishStep_round s v st item
  unfold AuthSetup.rowOf
  generalize s.establishStep v st item = res at hround hnone ⊢
  cases hround with
  | raise e st' houtcome => exact nomatch hnone
  | refuse reason houtcome => rw [houtcome]
  | take result st' houtcome havailable hrow hcounts => rw [houtcome]; exact hrow

/-! ## Everything but the rows -/

/-- The run without its rows. -/
def AuthRun.shared (st : AuthRun) : AuthRun := { st with personas := [] }

omit [PyRuntime] in
theorem recordResult_shared (v : Vault) (item : AuthItem) (result : PersonaAuthResult)
    (st : AuthRun) :
    (recordResult v item result st).1.shared = (recordResult v item result st.shared).1.shared := by
  unfold recordResult
  cases result.available with
  | false => rfl
  | true =>
    dsimp only
    cases v.fernet.encryptWith v.dataKey item.2.nonce
      (encodeStrict (result.storageState.getD "null".toList)) <;> rfl

/-- A round reads nothing of the rows. -/
theorem establishStep_shared (s : AuthSetup) (v : Vault) (st : AuthRun) (item : AuthItem) :
    (s.establishStep v st item).1.shared = (s.establishStep v st.shared item).1.shared := by
  unfold AuthSetup.establishStep
  dsimp only [AuthRun.shared]
  cases (establishPersona v s.substrate.1 s.probeUrl item.1 item.2 st.jar).result with
  | error e => rfl
  | ok result => exact recordResult_shared v item result _

/-- The persona gets a session. -/
def AuthSetup.works (s : AuthSetup) (v : Vault) (item : AuthItem) : Bool :=
  match s.outcome v item with
  | .ok result => result.available
  | .error _ => false

/-- A refused persona leaves everything but its row alone. -/
theorem establishStep_refused {s : AuthSetup} {v : Vault} (st : AuthRun) (item : AuthItem)
    (hworks : s.works v item = false) (hnone : (s.establishStep v st item).2 = none) :
    (s.establishStep v st item).1.shared = st.shared := by
  have hround := establishStep_round s v st item
  unfold AuthSetup.works at hworks
  generalize s.establishStep v st item = res at hround hnone ⊢
  cases hround with
  | raise e st' houtcome => exact nomatch hnone
  | refuse reason houtcome => rfl
  | take result st' houtcome havailable hrow hcounts =>
    rw [houtcome] at hworks
    exact absurd (havailable.symm.trans hworks) (by simp)

/-! ## Isolation -/

/-- Establishing the persona goes well: it returns a session. -/
def AuthSetup.goesWell (s : AuthSetup) (item : AuthItem) : Bool :=
  match s.vault with
  | .error _ => false
  | .ok v => s.works v item

/-- One persona's failure affects no other: the run returns, who failed is
marked unavailable with a reason, and rows, sessions and count of the
others are those of a run without the failed. -/
structure AuthSetup.Isolates (s : AuthSetup) (items : List AuthItem) : Prop where
  returns : (s.runAuthEstablishing items).2 = none
  written : (s.runAuthEstablishing items).1.personas.length = items.length
  failed : ∀ x ∈ items.zip (s.runAuthEstablishing items).1.personas, s.goesWell x.1 = false →
    x.2.isAvailable = false ∧ ∃ reason, x.2.unavailableReason = some reason
  rows : ((items.zip (s.runAuthEstablishing items).1.personas).filter fun x =>
      s.goesWell x.1).map Prod.snd =
    (s.runAuthEstablishing (items.filter s.goesWell)).1.personas
  sessions : (s.runAuthEstablishing items).1.sessions =
    (s.runAuthEstablishing (items.filter s.goesWell)).1.sessions
  available : (s.runAuthEstablishing items).1.available =
    (s.runAuthEstablishing (items.filter s.goesWell)).1.available

/-- The organisation's key unwraps, and establishing no persona raises. -/
def AuthSetup.RaisesNothing (s : AuthSetup) (items : List AuthItem) : Prop :=
  items = [] ∨ ∃ v, s.vault = .ok v ∧ ∀ item ∈ items, s.QuietAt v item

theorem runAuthEstablishing_of_vault {s : AuthSetup} {v : Vault} (hv : s.vault = .ok v)
    (items : List AuthItem) :
    s.runAuthEstablishing items = runUntil (s.establishStep v) { scan := s.scan } items := by
  unfold AuthSetup.runAuthEstablishing
  cases items with
  | nil => rfl
  | cons item rest => rw [if_neg (List.cons_ne_nil _ _), hv]

theorem runAuthEstablishing_returns_iff {s : AuthSetup} {items : List AuthItem} :
    (s.runAuthEstablishing items).2 = none ↔ s.RaisesNothing items := by
  cases hv : s.vault with
  | ok v =>
    rw [runAuthEstablishing_of_vault hv, runUntil_returns_iff (establishStep_returns_iff s v)]
    constructor
    · exact fun h => .inr ⟨v, hv, h⟩
    · rintro (rfl | ⟨v', hv', h⟩)
      · exact fun _ h => (nomatch h)
      · obtain rfl := Except.ok.inj (hv.symm.trans hv')
        exact h
  | error e =>
    unfold AuthSetup.runAuthEstablishing AuthSetup.RaisesNothing
    by_cases hnil : items = []
    · rw [if_pos hnil]
      exact ⟨fun _ => .inl hnil, fun _ => rfl⟩
    · rw [if_neg hnil, hv]
      exact ⟨fun h => (nomatch h), fun h => h.elim (absurd · hnil) fun ⟨_, h, _⟩ => (nomatch h)⟩

/-- The rows of a run that returns. -/
theorem runAuthEstablishing_rows {s : AuthSetup} {v : Vault} (hv : s.vault = .ok v)
    {items : List AuthItem} (hend : (s.runAuthEstablishing items).2 = none) :
    (s.runAuthEstablishing items).1.personas = items.map (s.rowOf v) := by
  rw [runAuthEstablishing_of_vault hv] at hend ⊢
  exact (runUntil_collects establishStep_row hend).trans (List.nil_append _)

/-- What a run that returns has besides the rows. -/
theorem runAuthEstablishing_shared {s : AuthSetup} {v : Vault} (hv : s.vault = .ok v)
    {items : List AuthItem} (hend : (s.runAuthEstablishing items).2 = none) :
    (s.runAuthEstablishing items).1.shared = (items.filter (s.works v)).foldl
      (fun st item => (s.establishStep v st item).1.shared) { scan := s.scan } := by
  rw [runAuthEstablishing_of_vault hv] at hend ⊢
  exact runUntil_view (fun st item _ _ => establishStep_shared s v st item)
    establishStep_refused hend

omit [PyRuntime] in
theorem zip_map_eq {α β : Type} (f : α → β) (xs : List α) :
    xs.zip (xs.map f) = xs.map fun x => (x, f x) := by
  induction xs with
  | nil => rfl
  | cons x xs ih => rw [List.map_cons, List.zip_cons_cons, ih, List.map_cons]

/-- A row that is not of a logged-in persona says so, with a reason. -/
theorem rowOf_failed {s : AuthSetup} {v : Vault} {item : AuthItem} (hquiet : s.QuietAt v item)
    (hworks : s.works v item = false) :
    (s.rowOf v item).isAvailable = false ∧
      ∃ reason, (s.rowOf v item).unavailableReason = some reason := by
  obtain ⟨result, hresult⟩ := outcome_returns_iff.mpr hquiet
  unfold AuthSetup.works at hworks
  unfold AuthSetup.rowOf
  rw [hresult] at hworks ⊢
  rcases establishPersona_cases hresult with ⟨reason, rfl, -, -⟩ | ⟨havailable, -⟩
  · exact ⟨rfl, reason, rfl⟩
  · exact absurd (havailable.symm.trans hworks) (by simp)

/-- **One persona's failure affects no other** exactly if none of them
raises. -/
theorem isolates_iff (s : AuthSetup) (items : List AuthItem) :
    s.Isolates items ↔ s.RaisesNothing items := by
  refine ⟨fun h => runAuthEstablishing_returns_iff.mp h.returns, fun h => ?_⟩
  have hend := runAuthEstablishing_returns_iff.mpr h
  rcases h with rfl | ⟨v, hv, hquiet⟩
  · exact ⟨rfl, rfl, fun _ h => (nomatch h), rfl, rfl, rfl⟩
  · have hwell : s.goesWell = s.works v := by
      funext item
      rw [AuthSetup.goesWell, hv]
    have hend' : (s.runAuthEstablishing (items.filter s.goesWell)).2 = none :=
      runAuthEstablishing_returns_iff.mpr (.inr ⟨v, hv, fun item hitem =>
        hquiet item (List.mem_of_mem_filter hitem)⟩)
    have hshared : (s.runAuthEstablishing items).1.shared =
        (s.runAuthEstablishing (items.filter s.goesWell)).1.shared := by
      rw [runAuthEstablishing_shared hv hend, runAuthEstablishing_shared hv hend', hwell,
        List.filter_filter]
      simp only [Bool.and_self]
    have hrows := runAuthEstablishing_rows hv hend
    have hsessions : (s.runAuthEstablishing items).1.shared.sessions = _ :=
      congrArg AuthRun.sessions hshared
    have havailable : (s.runAuthEstablishing items).1.shared.available = _ :=
      congrArg AuthRun.available hshared
    refine ⟨hend, by rw [hrows, List.length_map], ?_, ?_, hsessions, havailable⟩
    · rw [hrows, zip_map_eq]
      intro x hx hfails
      obtain ⟨item, hitem, rfl⟩ := List.mem_map.mp hx
      rw [hwell] at hfails
      exact rowOf_failed (hquiet item hitem) hfails
    · rw [hrows, runAuthEstablishing_rows hv hend', zip_map_eq, List.filter_map, List.map_map]
      rfl

/-! ## The phase that calls it -/

omit [PyRuntime] in
/-- A round of the phase with a given result. -/
theorem establishStep_returns (env : Environment) (acc : Nat × Dict) (persona : Persona)
    (db : Snapshot) : ∃ db', Durable.Program.Returns (Worker.establishStep env acc persona) db
      (if (env.establishPersona persona).available then
        (acc.1 + 1,
          acc.2.set persona.id ((env.establishPersona persona).storageState.getD "{}".toList))
      else acc) db' := by
  unfold Worker.establishStep
  dsimp only
  cases (env.establishPersona persona).available <;> exact ⟨_, rfl⟩

/-- What a round counts and keeps. -/
theorem establishStep_counts {s : AuthSetup} {v : Vault} {item : AuthItem}
    {result : PersonaAuthResult} (hresult : s.outcome v item = .ok result) (st : AuthRun) :
    (s.establishStep v st item).2 = none ∧
      ((s.establishStep v st item).1.available, (s.establishStep v st item).1.sessions) =
        if result.available then
          (st.available + 1,
            st.sessions.set item.1.row.id (result.storageState.getD "{}".toList))
        else (st.available, st.sessions) := by
  have hround := establishStep_round s v st item
  generalize s.establishStep v st item = res at hround
  cases hround with
  | raise e st' houtcome => exact nomatch hresult.symm.trans houtcome
  | refuse reason houtcome =>
    obtain rfl := Except.ok.inj (hresult.symm.trans houtcome)
    exact ⟨rfl, rfl⟩
  | take result' st' houtcome havailable hrow hcounts =>
    obtain rfl := Except.ok.inj (hresult.symm.trans houtcome)
    exact ⟨rfl, by rw [if_pos havailable, hcounts]⟩

/-- **Refinement.** The loop of the phase counts and keeps what this one
does, if its environment answers for each persona as establishing it does. -/
theorem establishLoop_returns {s : AuthSetup} {v : Vault} {env : Environment}
    {items : List AuthItem}
    (hresult : ∀ item ∈ items, s.outcome v item = .ok (env.establishPersona item.1.row))
    (st : AuthRun) (db : Snapshot) :
    ∃ db', Durable.Program.Returns
      ((items.map fun item => item.1.row).foldlM (Worker.establishStep env)
        (st.available, st.sessions)) db
      ((runUntil (s.establishStep v) st items).1.available,
        (runUntil (s.establishStep v) st items).1.sessions) db' := by
  induction items generalizing st db with
  | nil => exact ⟨db, by simp [runUntil]⟩
  | cons item rest ih =>
    obtain ⟨hnone, hcounts⟩ := establishStep_counts (hresult item List.mem_cons_self) st
    obtain ⟨db₁, hround⟩ := establishStep_returns env (st.available, st.sessions) item.1.row db
    obtain ⟨db₂, hrest⟩ := ih (fun i hi => hresult i (List.mem_cons_of_mem item hi))
      (s.establishStep v st item).1 db₁
    rw [List.map_cons, List.foldlM_cons, runUntil_cons_none hnone]
    rw [hcounts] at hrest
    exact ⟨db₂, (Durable.Program.returns_bind ..).mpr ⟨_, db₁, hround, hrest⟩⟩

/-- The phase over a run that raises nothing returns its count and its
sessions. -/
theorem runAuthEstablishing_refines {s : AuthSetup} {v : Vault} (hv : s.vault = .ok v)
    {env : Environment} {items : List AuthItem}
    (hpersonas : env.configuredPersonas = items.map fun item => item.1.row)
    (hresult : ∀ item ∈ items, s.outcome v item = .ok (env.establishPersona item.1.row))
    (db : Snapshot) :
    ∃ db', Durable.Program.Returns (Worker.runAuthEstablishing env) db
      ((s.runAuthEstablishing items).1.available, (s.runAuthEstablishing items).1.sessions)
      db' := by
  obtain ⟨db', hloop⟩ := establishLoop_returns hresult { scan := s.scan } db
  rw [runAuthEstablishing_of_vault hv]
  unfold Worker.runAuthEstablishing
  rw [hpersonas]
  cases items with
  | nil => exact ⟨db, by simp [runUntil]⟩
  | cons item rest => exact ⟨db', by simpa using hloop⟩

/-! ## Two personas -/

/-- A Fernet whose token is the key, a colon and the plaintext. -/
def sealedFernet : Fernet where
  isKey key := key ≠ []
  encrypt key _ plaintext := (key ++ 58 :: plaintext).map fun b => Char.ofNat b.toNat
  decrypt key token :=
    let bytes := token.map fun c => UInt8.ofNat c.toNat
    if (key ++ [58]).isPrefixOf bytes then some (bytes.drop (key.length + 1)) else none

/-- A scan of a verified target, whose organisation's data key is `k`. -/
def acmeSetup : AuthSetup where
  fernet := sealedFernet
  kmsMasterKey := "m".toList
  wrappedDataKey := "m:k".toList
  target := ⟨"target-1".toList, "app.acme.test".toList, true, true⟩
  scopeRules := []
  scanId := "scan-1".toList

/-- A recipe that fills in the password and waits for the dashboard. -/
def passwordRecipe : RawRecipe where
  startUrl := some "https://app.acme.test/login".toList
  steps := some [{ action := some "fill_secret".toList, selector := some "#pw".toList,
                   credentialRef := some "pw".toList }]
  successAssertion := some
    { kind := some "url_contains".toList, value := some "/dashboard".toList }

/-- A persona whose credential is the given token. -/
def acmePersona (id token : String) : ConfiguredPersona where
  row := { id := id.toList, label := id.toList, hasLoginRecipe := true }
  loginRecipe := some passwordRecipe
  credential := some token.toList

/-- A login at which nothing fails, and a server that answers every probe
with the given bytes. -/
def smoothEnv (body : Bytes) : PersonaEnv where
  browser :=
    { newContext := .ok ()
      newPage := .ok ()
      perform := fun _ => .ok ()
      storageState := fun _ => .ok ⟨[], "{}".toList⟩
      close := .ok () }
  authEnv := ⟨fun _ _ => .response { statusCode := 200, content := body }, fun _ => 1, "a".toList⟩
  anonEnv := ⟨fun _ _ => .response { statusCode := 401 }, fun _ => 1, "b".toList⟩
  nonce := []
  now := 0

omit [PyRuntime] in
/-- Alice's credential was encrypted with a key that is no longer the
organisation's, and nobody is logged in any more. -/
theorem invalidToken_isolates_not :
    let _ := PyRuntime.ascii
    (acmeSetup.runAuthEstablishing
        [(acmePersona "alice" "old:hunter2", smoothEnv []),
          (acmePersona "bob" "k:hunter2", smoothEnv [])]).2 =
        some (.crypto .invalidToken) ∧
      ¬ acmeSetup.Isolates
        [(acmePersona "alice" "old:hunter2", smoothEnv []),
          (acmePersona "bob" "k:hunter2", smoothEnv [])] := by
  intro runtime
  have hraised : (acmeSetup.runAuthEstablishing
      [(acmePersona "alice" "old:hunter2", smoothEnv []),
        (acmePersona "bob" "k:hunter2", smoothEnv [])]).2 = some (.crypto .invalidToken) := by
    decide +kernel
  exact ⟨hraised, fun h => nomatch hraised.symm.trans h.returns⟩

end Sentinel.Worker
