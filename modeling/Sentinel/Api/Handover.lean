/-
Sentinel.Api.Handover — what the worker reads of the rows requests wrote.

The API has no route that deletes or edits: over a run rows are added and a
target keeps who it is (`Grows`). So what a request has been told is stored
is what the worker finds, however many requests come between: an exclude
rule stops what it matches from then on (`exclusion_permanent`), and the
secret of a persona is typed in as it was posted (`credential_arrives`).
-/
import Sentinel.Api.KeyRotation
import Sentinel.Api.RecipeAgreement
import Sentinel.Api.RequestRuns

namespace Sentinel.Api

open Sentinel.Py Sentinel.Core Sentinel.Orm Sentinel.Trace Served

/-! ## The rows as the worker reads them -/

def ruleKindOf (text : Str) : Option RuleKind :=
  if text = "host".toList then some .host
  else if text = "path_prefix".toList then some .pathPrefix
  else if text = "path_regex".toList then some .pathRegex
  else if text = "method".toList then some .method
  else none

def ruleEffectOf (text : Str) : Option RuleEffect :=
  if text = "include".toList then some .includes
  else if text = "exclude".toList then some .excludes
  else none

/-- A row as `build_scope_guard` hands it on. Every block of `evaluate` asks
for a kind and an effect, so a row with another one counts for nothing. -/
def ScopeRule.read (r : ScopeRule) : Option Db.ScopeRuleRow := do
  return ⟨← ruleKindOf r.kind, r.pattern, ← ruleEffectOf r.effect, r.label⟩

def Target.read (t : Target) : Db.Target :=
  ⟨t.id.text, t.rootDomain, t.ownershipVerified, t.authorizationAccepted⟩

/-- `build_scope_guard(target, scope_rules)`. -/
def Database.scopeGuard (db : Database) (t : Target) : ScopeGuard :=
  Worker.buildScopeGuard t.read ((db.scopeRulesOf t.id).filterMap ScopeRule.read)

/-- A persona with `selectinload(Persona.credential)`. -/
def Database.configuredPersona (db : Database) (p : Persona) : Worker.ConfiguredPersona where
  row :=
    { id := p.id.text, label := p.label,
      hasLoginRecipe := (p.loginRecipe.filter (· ≠ {})).isSome, isAvailable := p.isAvailable,
      unavailableReason := p.unavailableReason }
  loginRecipe := p.loginRecipe
  credential := (p.credentialId.bind (rowById · db.credentials)).map (·.ciphertext)

/-- The arguments of `_run_auth_establishing` on a target of the organisation. -/
def Database.authSetup (db : Database) (env : Environment) (org : Organization) (t : Target)
    (scanId : Str) : Worker.AuthSetup where
  fernet := env.fernet
  kmsMasterKey := env.kmsMasterKey
  wrappedDataKey := org.wrappedDataKey
  target := t.read
  scopeRules := (db.scopeRulesOf t.id).filterMap ScopeRule.read
  scanId := scanId

/-! ## Growth -/

/-- What no request changes of a target. -/
def Target.identity (t : Target) : Uuid × Uuid × Str × Str × Bool :=
  (t.id, t.organizationId, t.rootDomain, t.displayName, t.isProduction)

/-- Rows are added, none is lost or edited but for the ownership of targets;
an authorization that was accepted stays accepted. -/
structure Database.Grows (db db' : Database) : Prop where
  organizations : db'.organizations = db.organizations
  targets : db.targets.map Target.identity <+: db'.targets.map Target.identity
  authorized : ∀ t ∈ db.targets, t.authorizationAccepted = true →
    ∃ t' ∈ db'.targets, t'.id = t.id ∧ t'.authorizationAccepted = true
  scopeRules : db.scopeRules <+: db'.scopeRules
  credentials : db.credentials <+: db'.credentials
  personas : db.personas <+: db'.personas
  scans : db.scans <+: db'.scans
  findings : db'.phases = db.phases ∧ db'.findings = db.findings ∧ db'.evidence = db.evidence ∧
    db'.verifications = db.verifications

theorem Database.Grows.refl (db : Database) : db.Grows db where
  organizations := rfl
  targets := List.prefix_refl _
  authorized t ht h := ⟨t, ht, rfl, h⟩
  scopeRules := List.prefix_refl _
  credentials := List.prefix_refl _
  personas := List.prefix_refl _
  scans := List.prefix_refl _
  findings := ⟨rfl, rfl, rfl, rfl⟩

theorem Database.Grows.trans {db db' db'' : Database} (h : db.Grows db') (h' : db'.Grows db'') :
    db.Grows db'' where
  organizations := h'.organizations.trans h.organizations
  targets := h.targets.trans h'.targets
  authorized t ht hset := by
    obtain ⟨t', ht', hid', hset'⟩ := h.authorized t ht hset
    obtain ⟨t'', ht'', hid'', hset''⟩ := h'.authorized t' ht' hset'
    exact ⟨t'', ht'', hid''.trans hid', hset''⟩
  scopeRules := h.scopeRules.trans h'.scopeRules
  credentials := h.credentials.trans h'.credentials
  personas := h.personas.trans h'.personas
  scans := h.scans.trans h'.scans
  findings := by
    obtain ⟨hp, hf, he, hv⟩ := h.findings
    obtain ⟨hp', hf', he', hv'⟩ := h'.findings
    exact ⟨hp'.trans hp, hf'.trans hf, he'.trans he, hv'.trans hv⟩

/-- A request that does not touch the authorization leaves the stored one. -/
theorem updateChanged_authorized_of_eq {loaded changed : Target}
    (h : changed.authorizationAccepted = loaded.authorizationAccepted) (stored : Target) :
    (updateChanged loaded changed stored).authorizationAccepted = stored.authorizationAccepted := by
  show column _ _ _ = _
  rw [h, column_unchanged]

/-- An authorization stays, also when it is accepted again. -/
theorem authorization_kept {loaded stored : Target} (now : Db.Instant)
    (h : stored.authorizationAccepted = true) :
    (updateChanged loaded (recordAuthorization now loaded) stored).authorizationAccepted =
      true := by
  show column loaded.authorizationAccepted true stored.authorizationAccepted = true
  unfold column
  split
  · exact h
  · rfl

/-- A change of a target that keeps its identity and its authorization. -/
theorem grows_updateTarget {change : Target → Target} (hsame : ∀ t, (change t).identity = t.identity)
    (hset : ∀ t, t.authorizationAccepted = true → (change t).authorizationAccepted = true)
    (db : Database) (id : Uuid) : db.Grows (db.updateTarget id change) := by
  refine { Database.Grows.refl db with targets := ?_, authorized := ?_ }
  · have hmap : (db.updateTarget id change).targets.map Target.identity =
        db.targets.map Target.identity := by
      rw [Database.updateTarget, List.map_map]
      refine List.map_congr_left fun t _ => ?_
      show Target.identity (if t.id = id then change t else t) = t.identity
      split
      · exact hsame t
      · rfl
    rw [hmap]
  · intro t ht hauthorized
    refine ⟨if t.id = id then change t else t, List.mem_map.mpr ⟨t, ht, rfl⟩, ?_⟩
    split
    · exact ⟨congrArg Prod.fst (hsame t), hset t hauthorized⟩
    · exact ⟨rfl, hauthorized⟩

/-- **Every change lets the database grow.** -/
theorem Change.grows (change : Change) (db : Database) : db.Grows (change.apply db) := by
  cases change with
  | nothing => exact .refl db
  | addTarget row =>
    refine { Database.Grows.refl db with targets := ?_, authorized := ?_ }
    · have hmap : ((addTarget row).apply db).targets.map Target.identity =
          db.targets.map Target.identity ++ [row.identity] := List.map_append
      rw [hmap]
      exact List.prefix_append _ _
    · exact fun t ht hset => ⟨t, List.mem_append_left _ ht, rfl, hset⟩
  | challenge loaded method token =>
    refine grows_updateTarget (fun _ => by rfl) (fun t hset => ?_) db _
    exact (updateChanged_authorized_of_eq rfl t).trans hset
  | verify loaded verified now =>
    refine grows_updateTarget (fun _ => by rfl) (fun t hset => ?_) db _
    exact (updateChanged_authorized_of_eq rfl t).trans hset
  | authorize loaded now =>
    exact grows_updateTarget (fun _ => by rfl) (fun t hset => authorization_kept now hset) db _
  | addScopeRule row =>
    exact { Database.Grows.refl db with scopeRules := List.prefix_append _ _ }
  | addPersona credential row =>
    exact { Database.Grows.refl db with
      credentials := List.prefix_append _ _, personas := List.prefix_append _ _ }
  | addScan row => exact { Database.Grows.refl db with scans := List.prefix_append _ _ }

theorem entry_grows {db : Database} {call : Call} (hfresh : call.env.ids.Fresh db) :
    db.Grows (db.serveCall call).2 := by
  rcases entry_did hfresh with ⟨change, hdid⟩ | ⟨-, hafter, -⟩
  · have hafter : (db.serveCall call).2 = change.apply db := hdid.after
    rw [hafter]
    exact change.grows db
  · have hafter : (db.serveCall call).2 = db := hafter
    rw [hafter]
    exact .refl db

theorem final_grows {db : Database} {calls : List Call} (hfresh : db.FreshFor calls) :
    db.Grows (final Database.serveCall db calls) := by
  let inv : List Served → Database → Prop := fun _ db' => db.Grows db'
  have hinit : inv [] db := .refl db
  exact history_rule_of hinit (fun _ _ _ h hcall => h.trans (entry_grows hcall)) hfresh

/-- What an entry of a run has left is still there at the end. -/
theorem entry_grows_final {db : Database} {calls : List Call} (hfresh : db.FreshFor calls)
    {earlier later : List Served} {e : Served}
    (hrun : history Database.serveCall db calls = earlier ++ e :: later) :
    e.after.Grows (final Database.serveCall db calls) := by
  obtain ⟨xs, call, ys, rfl, -, rfl, hlater⟩ := history_split hrun
  have hrest : ((final Database.serveCall db xs).serveCall call).2.FreshFor ys := by
    intro e' he'
    refine hfresh e' ?_
    rw [hrun]
    exact List.mem_append_right _ (List.mem_cons_of_mem _ (hlater ▸ he'))
  have hfinal : final Database.serveCall db (xs ++ call :: ys) =
      final Database.serveCall ((final Database.serveCall db xs).serveCall call).2 ys := by
    rw [final_append]
    rfl
  rw [hfinal]
  exact final_grows hrest

/-! ## Exclusions -/

/-- A text that is short enough is stored as it is. -/
theorem storeVarchar_of_le {n : ℕ} {s kept : Str} (h : storeVarchar n s = some kept)
    (hn : s.length ≤ n) : kept = s := by
  unfold storeVarchar at h
  split at h
  · cases h
  · rw [List.take_of_length_le hn] at h
    exact (Option.some.inj h).symm

theorem ruleKinds_length : ∀ s ∈ ruleKinds, s.length ≤ 20 := by decide

theorem ruleEffects_length : ∀ s ∈ ruleEffects, s.length ≤ 10 := by decide

/-- A stored rule says what was posted, but for blanks at the end of a label. -/
theorem ScopeRuleCreate.stored {payload : ScopeRuleCreate} {id target : Uuid} {row : ScopeRule}
    (h : (payload.row id target).store = some row) :
    row.targetId = target ∧ row.kind = payload.kind ∧ row.pattern = payload.pattern ∧
      row.effect = payload.effect := by
  have htarget := (ScopeRule.store_keeps h).2
  simp only [ScopeRule.store, Option.bind_eq_bind, Option.bind_eq_some_iff, Option.pure_def,
    Option.some.injEq] at h
  obtain ⟨kind, hkind, pattern, hpattern, effect, heffect, label, -, rfl⟩ := h
  exact ⟨htarget, storeVarchar_of_le hkind (ruleKinds_length _ payload.kind.2),
    storeVarchar_of_le hpattern payload.pattern.2.2,
    storeVarchar_of_le heffect (ruleEffects_length _ payload.effect.2)⟩

/-- A request for a scope rule that was answered has stored its rule. -/
theorem ruleStored {db : Database} {calls : List Call} (hfresh : db.FreshFor calls)
    {earlier later : List Served} {e : Served}
    (hrun : history Database.serveCall db calls = earlier ++ e :: later) {targetId : Uuid}
    {payload : ScopeRuleCreate}
    (hroute : e.call.request.route = .createScopeRule (.ok targetId) (.valid payload))
    (hreplied : Replied e) :
    ∃ row ∈ e.after.scopeRules,
      (payload.row e.call.env.ids.scopeRule targetId).store = some row := by
  obtain ⟨change, hdid⟩ := replied_did hfresh hrun hreplied
  obtain ⟨caller, loaded, -, hpermitted⟩ := hdid.permits
  rw [hdid.after]
  rw [hroute] at hpermitted
  cases hpermitted with
  | read hread => cases hread
  | scopeRule hrow => exact ⟨_, List.mem_append_right _ (List.mem_singleton_self _), hrow⟩

variable [PyRuntime]

/-- **An exclusion is for good.** Once a request has been told that its
exclude rule (of a path or a method) is stored, the guard the worker builds
for the target stops every request the rule matches, whatever requests come
after it. -/
theorem exclusion_permanent {db : Database} {calls : List Call} (hfresh : db.FreshFor calls)
    {earlier later : List Served} {e : Served}
    (hrun : history Database.serveCall db calls = earlier ++ e :: later) {targetId : Uuid}
    {payload : ScopeRuleCreate}
    (hroute : e.call.request.route = .createScopeRule (.ok targetId) (.valid payload))
    (hreplied : Replied e) {kind : RuleKind} (hkind : ruleKindOf payload.kind = some kind)
    (hhost : kind ≠ .host) (heffect : payload.effect.val = "exclude".toList)
    {t : Target} (ht : t.id = targetId) {method url : Str}
    (hmatch : RuleMatches ⟨kind, payload.pattern, .excludes, []⟩ method url) :
    ((final Database.serveCall db calls).scopeGuard t).allows method url = false := by
  obtain ⟨row, hrow, hstored⟩ := ruleStored hfresh hrun hroute hreplied
  have hkept : row ∈ (final Database.serveCall db calls).scopeRules :=
    (entry_grows_final hfresh hrun).scopeRules.subset hrow
  obtain ⟨htarget, hrowKind, hpattern, hrowEffect⟩ := ScopeRuleCreate.stored hstored
  have hread : row.read = some ⟨kind, payload.pattern, .excludes, row.label⟩ := by
    unfold ScopeRule.read
    rw [hrowKind, hkind, hpattern, hrowEffect, heffect]
    rfl
  have hrule : (⟨kind, payload.pattern, .excludes, row.label⟩ : Core.ScopeRule) ∈
      ((final Database.serveCall db calls).scopeGuard t).rules := by
    refine List.mem_map.mpr ⟨⟨kind, payload.pattern, .excludes, row.label⟩, ?_, rfl⟩
    refine List.mem_filterMap.mpr ⟨row, List.mem_filter.mpr ⟨hkept, ?_⟩, hread⟩
    exact beq_iff_eq.mpr (htarget.trans ht.symm)
  refine allows_eq_false_of_exclude hrule rfl hhost ?_
  -- whether a rule matches does not depend on its label
  cases kind with
  | host => exact absurd rfl hhost
  | pathPrefix | pathRegex | method => exact hmatch

/-- The same with other ids. -/
def laterEnvironment : Environment := { provingEnvironment with ids := ⟨21, 22, 23, 24, 25⟩ }

omit [PyRuntime] in
/-- `/billing` of a verified target is excluded, then the rules are listed. -/
theorem billing_excluded :
    let _ := PyRuntime.ascii
    let verified : Target := { acmeTarget with ownershipVerified := true }
    let rule : ScopeRuleCreate :=
      { kind := ⟨"path_prefix".toList, by decide⟩, pattern := ⟨"/billing".toList, by decide⟩,
        effect := ⟨"exclude".toList, by decide⟩ }
    let calls : List Call :=
      [⟨provingEnvironment, some acmeHeader, .createScopeRule acmeId (.valid rule)⟩,
        ⟨laterEnvironment, some acmeHeader, .listScopeRules acmeId⟩]
    let guard := (final Database.serveCall challengedDb calls).scopeGuard verified
    guard.allows "GET".toList "https://acme.test/bill".toList = true ∧
      guard.allows "GET".toList "https://acme.test/billing/1".toList = false := by
  intro runtime verified rule calls guard
  have hfresh : challengedDb.FreshFor calls := by
    unfold Database.FreshFor Fresh
    decide +kernel
  let first := entry Database.serveCall challengedDb
    ⟨provingEnvironment, some acmeHeader, .createScopeRule acmeId (.valid rule)⟩
  have hrun : history Database.serveCall challengedDb calls =
      [] ++ first :: history Database.serveCall first.after (calls.drop 1) := rfl
  have hreplied : Replied first :=
    ⟨⟨201, .scopeRule ⟨12, rule.kind, rule.pattern, rule.effect, []⟩⟩, by decide +kernel⟩
  have hkind : ruleKindOf rule.kind = some .pathPrefix := by decide
  refine ⟨by decide +kernel,
    exclusion_permanent hfresh hrun rfl hreplied hkind (by decide) rfl rfl ?_⟩
  exact ⟨⟨"https".toList, "acme.test".toList, "/billing/1".toList, [], []⟩, by decide +kernel,
    by decide +kernel⟩

/-! ## Credentials -/

omit [PyRuntime] in
/-- A request for a persona that was answered has stored the persona and its
credential, sealed with the data key of its organisation. -/
theorem personaStored {db : Database} {calls : List Call} (hfresh : db.FreshFor calls)
    {earlier later : List Served} {e : Served}
    (hrun : history Database.serveCall db calls = earlier ++ e :: later) {targetId : Uuid}
    {payload : PersonaCreate}
    (hroute : e.call.request.route = .createPersona (.ok targetId) (.valid payload))
    (hreplied : Replied e) :
    ∃ caller ∈ e.after.organizations, e.call.request.ClaimsOrg caller.id ∧
      ∃ masterKeys credential, ∃ row ∈ e.after.personas,
        getCrypto e.call.env = .ok masterKeys ∧
        payload.credential.mapM (sealCredential e.call.env caller masterKeys) = .ok credential ∧
        (payload.row e.call.env.ids.persona targetId (credential.map (·.id))).store = some row ∧
        ∀ c ∈ credential, c ∈ e.after.credentials := by
  obtain ⟨change, hdid⟩ := replied_did hfresh hrun hreplied
  obtain ⟨caller, loaded, ⟨hcaller, hclaims, -⟩, hpermitted⟩ := hdid.permits
  rw [hdid.after]
  rw [hroute] at hpermitted
  cases hpermitted with
  | read hread => cases hread
  | @persona target payload masterKeys credential row hkeys hsealed hrow =>
    refine ⟨caller, hcaller, hclaims, masterKeys, credential, row, ?_, hkeys, hsealed, hrow, ?_⟩
    · exact List.mem_append_right _ (List.mem_singleton_self _)
    · exact fun c hc => List.mem_append_right _ (Option.mem_toList.mpr hc)

omit [PyRuntime] in
theorem getCrypto_ok {env : Environment} {masterKeys : List Bytes}
    (h : getCrypto env = .ok masterKeys) : masterKeys = [encodeStrict env.kmsMasterKey] := by
  unfold getCrypto at h
  split at h
  · cases h
  · split at h
    · exact (Except.ok.inj h).symm
    · cases h

omit [PyRuntime] in
/-- **What the API sealed the worker reveals.** -/
theorem sealCredential_reveal {env : Environment} (hideal : IdealFernet env.fernet)
    {org : Organization} {masterKeys : List Bytes} (hkeys : getCrypto env = .ok masterKeys)
    {payload : CredentialCreate} {c : Credential}
    (hsealed : sealCredential env org masterKeys payload = .ok c) :
    ∃ dataKey, (env.fernet.unwrap [encodeStrict env.kmsMasterKey] org.wrappedDataKey) = .ok dataKey ∧
      Worker.Vault.reveal ⟨env.fernet, dataKey⟩ c.ciphertext = .ok payload.secret := by
  obtain ⟨dataKey, hdataKey, hrest⟩ := bind_eq_ok.mp hsealed
  obtain ⟨ciphertext, hciphertext, hcredential⟩ := bind_eq_ok.mp hrest
  obtain rfl := Except.ok.inj hcredential
  rw [getCrypto_ok hkeys] at hdataKey
  refine ⟨dataKey, mapError_eq_ok.mp hdataKey, ?_⟩
  have hencrypted := mapError_eq_ok.mp hciphertext
  unfold Fernet.encryptWith at hencrypted
  split at hencrypted
  · cases hencrypted
  · next hkey =>
    have hkey : env.fernet.isKey dataKey = true := by simpa using hkey
    obtain rfl := Except.ok.inj hencrypted
    have hdecrypt : env.fernet.decryptWith dataKey
        (env.fernet.encrypt dataKey env.nonce (encodeStrict payload.secret)) =
          .ok (encodeStrict payload.secret) := by
      rw [Fernet.decryptWith, hkey, hideal.decrypt_encrypt _ _ _ _ hkey hkey, if_pos rfl]
      rfl
    unfold Worker.Vault.reveal
    rw [hdecrypt]
    dsimp only [Except.mapError, bind, Except.bind]
    rw [decodeStrict_encodeStrict]
    rfl

omit [PyRuntime] in
theorem PersonaCreate.stored {payload : PersonaCreate} {id target : Uuid}
    {credential : Option Uuid} {row : Persona}
    (h : (payload.row id target credential).store = some row) :
    row.id = id ∧ row.targetId = target ∧ row.credentialId = credential ∧
      row.loginRecipe = payload.loginRecipe.map LoginRecipeIn.modelDump := by
  simp only [Persona.store, Option.bind_eq_bind, Option.bind_eq_some_iff, Option.pure_def] at h
  obtain ⟨_, _, _, _, _, _, h⟩ := h
  split at h
  · obtain rfl := Option.some.inj h
    exact ⟨rfl, rfl, rfl, rfl⟩
  · cases h

/-- **A secret arrives as it was posted.** A persona is created with a
recipe that types a secret and with a credential. After any further requests the worker, with the
same master key, unwraps the data key of the organisation, and what it
gives the recipe of this persona to type is the secret of the request. -/
theorem credential_arrives {db : Database} (hdb : db.Consistent) {calls : List Call}
    (hfresh : db.FreshFor calls) {earlier later : List Served} {e : Served}
    (hrun : history Database.serveCall db calls = earlier ++ e :: later) {targetId : Uuid}
    {payload : PersonaCreate} {c : CredentialCreate} {r : LoginRecipeIn}
    (hroute : e.call.request.route = .createPersona (.ok targetId) (.valid payload))
    (hreplied : Replied e) (hcredential : payload.credential = some c)
    (hrecipe : payload.loginRecipe = some r) {ref : Str}
    (href : Worker.secretRef r.recipe = some ref) (hideal : IdealFernet e.call.env.fernet)
    {env : Environment} (hfernet : env.fernet = e.call.env.fernet)
    (hkms : env.kmsMasterKey = e.call.env.kmsMasterKey) :
    let left := final Database.serveCall db calls
    ∃ org ∈ left.organizations, e.call.request.ClaimsOrg org.id ∧
      ∃ p ∈ left.personasOf targetId, p.id = e.call.env.ids.persona ∧
        ∃ v, (∀ t scanId, (left.authSetup env org t scanId).vault = .ok v) ∧
          ∀ browser, Worker.logInPersona v (left.configuredPersona p) browser =
            Worker.replayLogin (left.configuredPersona p) browser r.recipe ref c.secret := by
  intro left
  obtain ⟨caller, hcaller, hclaims, masterKeys, credential, row, hrow, hkeys, hsealed, hstored,
    hkept⟩ := personaStored hfresh hrun hroute hreplied
  have hgrows : e.after.Grows left := entry_grows_final hfresh hrun
  rw [hcredential] at hsealed
  obtain ⟨sealed, hseal, rfl⟩ := map_eq_ok.mp hsealed
  obtain ⟨dataKey, hunwrap, hreveal⟩ := sealCredential_reveal hideal hkeys hseal
  obtain ⟨hid, htarget, hrowCredential, hrowRecipe⟩ := PersonaCreate.stored hstored
  refine ⟨caller, ?_, hclaims, row, ?_, hid, ⟨e.call.env.fernet, dataKey⟩, ?_, ?_⟩
  · rw [hgrows.organizations]
    exact hcaller
  · exact List.mem_filter.mpr ⟨hgrows.personas.subset hrow, beq_iff_eq.mpr htarget⟩
  · intro t scanId
    unfold Worker.AuthSetup.vault Database.authSetup
    dsimp only
    rw [hfernet, hkms, hunwrap]
    rfl
  · intro browser
    have hmem : sealed ∈ left.credentials := hgrows.credentials.subset (hkept sealed rfl)
    have hkeys : (left.credentials.map Row.id).Nodup :=
      (final_consistent hdb hfresh).credentials_nodup
    have hsecret : (left.configuredPersona row).credential = some sealed.ciphertext := by
      unfold Database.configuredPersona
      dsimp only
      rw [hrowCredential]
      exact congrArg (Option.map _) (rowById_of_mem hkeys hmem)
    have hraw : (left.configuredPersona row).loginRecipe = some r.modelDump := by
      rw [hrecipe] at hrowRecipe
      exact hrowRecipe
    exact logInPersona_stored hraw hsecret hreveal href browser

/-- An organisation whose data key the old key has wrapped, and its target. -/
def keyedDb : Database where
  organizations := [⟨1, rotatedOrg.wrapped⟩]
  targets := [acmeTarget]

/-- A persona with a password and a button. -/
def adminPersona : PersonaCreate where
  label := ⟨"admin".toList, by decide⟩
  roleName := ⟨"admin".toList, by decide⟩
  credential := some ⟨.password, "hunter2".toList, by decide⟩
  loginRecipe := some (passwordThen [submit])

/-- Another one, with another password. -/
def viewerPersona : PersonaCreate :=
  { adminPersona with label := ⟨"viewer".toList, by decide⟩
                      credential := some ⟨.password, "swordfish".toList, by decide⟩ }

omit [PyRuntime] in
/-- Two personas are created; the password of the first one is typed in by
the worker. -/
theorem adminPersona_arrives :
    let _ := PyRuntime.ascii
    let env := plainEnvironment.withKeys [oldKey]
    let calls : List Call :=
      [⟨env, some acmeHeader, .createPersona acmeId (.valid adminPersona)⟩,
        ⟨{ env with ids := ⟨21, 22, 23, 24, 25⟩ }, some acmeHeader,
          .createPersona acmeId (.valid viewerPersona)⟩]
    let left := final Database.serveCall keyedDb calls
    left.personas.length = 2 ∧ ∃ p ∈ left.personas, p.id = 14 ∧ ∃ v, ∀ browser,
      Worker.logInPersona v (left.configuredPersona p) browser = Worker.replayLogin
        (left.configuredPersona p) browser (passwordThen [submit]).recipe "pw".toList
          "hunter2".toList := by
  intro runtime env calls left
  have hdb : keyedDb.Consistent := by constructor <;> decide +kernel
  have hfresh : keyedDb.FreshFor calls := by
    unfold Database.FreshFor Fresh
    decide +kernel
  let first := entry Database.serveCall keyedDb
    ⟨env, some acmeHeader, .createPersona acmeId (.valid adminPersona)⟩
  have hrun : history Database.serveCall keyedDb calls =
      [] ++ first :: history Database.serveCall first.after (calls.drop 1) := rfl
  have hreplied : Replied first :=
    ⟨⟨201, .persona ⟨14, "admin".toList, "admin".toList, 0, none, none, true, none, [], true⟩⟩,
      by decide +kernel⟩
  have hsecret : Worker.secretRef (passwordThen [submit]).recipe = some "pw".toList := by
    decide +kernel
  have hfernet : env.fernet = first.call.env.fernet := rfl
  obtain ⟨org, -, -, p, hp, hid, v, -, hlogin⟩ := credential_arrives hdb hfresh hrun rfl hreplied
    rfl rfl hsecret plainFernet_ideal hfernet rfl
  exact ⟨by decide +kernel, p, (List.mem_filter.mp hp).1, hid, v, hlogin⟩

end Sentinel.Api
