/-
Sentinel.Api.Changes — what one request can do to the database.

A request loads what it needs and runs its endpoint, perhaps on a database
that others have changed in between. An endpoint that answers with a reply
has made exactly one change, the one its route stands for (`Permitted`); one
that fails has made none. Scans are dispatched by the one change that adds a
scan. What holds of the control plane over whole runs is read off the
changes, not off the handlers.
-/
import Sentinel.Api.TenantIsolation

namespace Sentinel.Api

open Sentinel.Py Sentinel.Core Sentinel.Tenancy Sentinel.Tenancy.Action

/-! ## Changes -/

/-- What a request can change; added rows are as the columns keep them, a
target is as the request has loaded it. -/
inductive Change where
  | nothing
  | addTarget (row : Target)
  | challenge (loaded : Target) (method : OwnershipVerificationMethod) (token : Str)
  | verify (loaded : Target) (verified : Bool) (now : Db.Instant)
  | authorize (loaded : Target) (now : Db.Instant)
  | addScopeRule (row : ScopeRule)
  | addPersona (credential : Option Credential) (row : Persona)
  | addScan (row : Scan) (handed : Bool)
  deriving DecidableEq, Repr

namespace Change

def apply : Change → Database → Database
  | nothing, db => db
  | addTarget row, db => db.addTarget row
  | challenge loaded method token, db =>
      db.updateTarget loaded.id (updateChanged loaded (issueChallenge method token loaded))
  | verify loaded verified now, db =>
      db.updateTarget loaded.id (updateChanged loaded (recordVerification verified now loaded))
  | authorize loaded now, db =>
      db.updateTarget loaded.id (updateChanged loaded (recordAuthorization now loaded))
  | addScopeRule row, db => db.addScopeRule row
  | addPersona credential row, db => db.addPersona credential row
  | addScan row _, db => db.addScan row

/-- The scans that are dispatched with the change. -/
def dispatched : Change → List Str
  | addScan row handed => if handed then [row.id.text] else []
  | _ => []

end Change

/-! ## The rows that requests create -/

def TargetCreate.row (payload : TargetCreate) (id org : Uuid) : Target :=
  { id := id, organizationId := org, rootDomain := payload.rootDomain,
    displayName := payload.displayName, isProduction := payload.isProduction }

def ScopeRuleCreate.row (payload : ScopeRuleCreate) (id target : Uuid) : ScopeRule :=
  { id := id, targetId := target, kind := payload.kind, pattern := payload.pattern,
    effect := payload.effect, label := payload.label }

def PersonaCreate.row (payload : PersonaCreate) (id target : Uuid) (credential : Option Uuid) :
    Persona :=
  { id := id, targetId := target, label := payload.label, roleName := payload.roleName,
    trustRank := payload.trustRank, tenantKey := payload.tenantKey.map (·.val),
    loginStrategy := payload.loginStrategy, credentialId := credential,
    loginRecipe := payload.loginRecipe.map LoginRecipeIn.modelDump,
    expectedDenied := payload.expectedDenied }

def ScanCreate.row (payload : ScanCreate) (id target : Uuid) : Scan :=
  { id := id, targetId := target, triggeredBy := payload.triggeredBy }

/-- A new target is neither verified nor authorized. -/
theorem Target.store_flags {payload : TargetCreate} {id org : Uuid} {row : Target}
    (h : (payload.row id org).store = some row) :
    row.ownershipVerified = false ∧ row.authorizationAccepted = false := by
  simp only [Target.store, Option.bind_eq_bind, Option.bind_eq_some_iff, Option.pure_def,
    Option.some.injEq] at h
  obtain ⟨_, _, _, _, rfl⟩ := h
  exact ⟨rfl, rfl⟩

/-- The routes that only read. -/
def Route.reads : Route → Bool
  | .listTargets | .getTarget _ | .listScopeRules _ | .listPersonas _ | .listScans _
  | .getScan _ | .listFindings _ => true
  | _ => false

/-- The organisation has the target. -/
def Database.Owns (db : Database) (caller : Organization) (target : Target) : Prop :=
  target ∈ db.targets ∧ target.organizationId = caller.id

/-- What a request loads: who calls, and the target of the path, which the
caller has. -/
structure Request.Loads (request : Request) (db : Database) (caller : Organization)
    (loaded : Option Target) : Prop where
  known : caller ∈ db.organizations
  claims : request.ClaimsOrg caller.id
  owns : ∀ t ∈ loaded, db.Owns caller t

/-- The change a route stands for, and when it is made: who calls and the
target that was loaded decide. -/
inductive Permitted (env : Environment) (caller : Organization) :
    Option Target → Route → Change → Prop where
  | read {loaded : Option Target} {route : Route} (hread : route.reads = true) :
      Permitted env caller loaded route .nothing
  | target {payload : TargetCreate} {row : Target}
      (hrow : (payload.row env.ids.target caller.id).store = some row) :
      Permitted env caller none (.createTarget (.valid payload)) (.addTarget row)
  | challenge {target : Target} {payload : OwnershipChallengeRequest} :
      Permitted env caller (some target)
        (.createOwnershipChallenge (.ok target.id) (.valid payload))
        (.challenge target payload.method (generateVerificationToken env.tokenBytes))
  | verification {target : Target} {method : OwnershipVerificationMethod} {token : Str}
      {result : VerificationResult}
      (hmethod : target.ownershipVerificationMethod = some method)
      (htoken : target.ownershipVerificationToken = some token)
      (hresult : env.verifyOwnership method target.rootDomain token = .ok result) :
      Permitted env caller (some target) (.runOwnershipVerification (.ok target.id))
        (.verify target result.verified env.now)
  | authorization {target : Target} {payload : AuthorizationAccept}
      (haccepted : payload.accepted = true) :
      Permitted env caller (some target) (.acceptAuthorization (.ok target.id) (.valid payload))
        (.authorize target env.now)
  | scopeRule {target : Target} {payload : ScopeRuleCreate} {row : ScopeRule}
      (hrow : (payload.row env.ids.scopeRule target.id).store = some row) :
      Permitted env caller (some target) (.createScopeRule (.ok target.id) (.valid payload))
        (.addScopeRule row)
  | persona {target : Target} {payload : PersonaCreate} {masterKeys : List Bytes}
      {credential : Option Credential} {row : Persona}
      (hkeys : getCrypto env = .ok masterKeys)
      (hsealed : payload.credential.mapM (sealCredential env caller masterKeys) = .ok credential)
      (hrow : (payload.row env.ids.persona target.id (credential.map (·.id))).store = some row) :
      Permitted env caller (some target) (.createPersona (.ok target.id) (.valid payload))
        (.addPersona credential row)
  | scan {target : Target} {payload : ScanCreate} {row : Scan}
      (hscannable : target.isScannable = true)
      (hrow : (payload.row env.ids.scan target.id).store = some row) :
      Permitted env caller (some target) (.createScan (.ok target.id) (.valid payload))
        (.addScan row env.brokerTakes)

/-- A change that the request may make with what it loads from the database. -/
def Request.Permits (request : Request) (env : Environment) (db : Database) (change : Change) :
    Prop :=
  ∃ caller loaded, request.Loads db caller loaded ∧
    Permitted env caller loaded request.route change

/-! ## Actions that make one change -/

/-- A route that reads changes nothing. -/
theorem Permitted.eq_nothing {env : Environment} {caller : Organization}
    {loaded : Option Target} {route : Route} {change : Change}
    (h : Permitted env caller loaded route change) (hread : route.reads = true) : change = .nothing := by
  cases h with
  | read => rfl
  | _ => cases hread

/-- The action only reads, and what it answers is of this kind. -/
structure Reads {α : Type} (m : Handler α) (db : Database) (P : α → Prop) : Prop where
  state : (m db).state = db
  sent : (m db).sent = []
  value : ∀ a, (m db).value = .ok a → P a

/-- The action answers and has made a change of this kind, or it fails and
has made none. -/
def Makes (m : Handler Reply) (db : Database) (kind : Change → Prop) : Prop :=
  (∃ change reply, kind change ∧ m db = ⟨.ok reply, change.apply db, change.dispatched⟩) ∨
    ∃ failure, m db = ⟨.error failure, db, []⟩

variable {env : Environment} {db : Database} {kind : Change → Prop}

section Reading

variable {α β : Type} {P : α → Prop}

theorem reads_pure {a : α} (h : P a) : Reads (pure a) db P where
  state := rfl
  sent := rfl
  value a' ha' := by
    obtain rfl := Except.ok.inj ha'
    exact h

theorem reads_query {q : Database → Except Failure α} (h : ∀ a, q db = .ok a → P a) :
    Reads (query q) db P where
  state := rfl
  sent := rfl
  value := h

theorem Reads.bind {m : Handler α} {f : α → Handler β} {Q : β → Prop} (hm : Reads m db P)
    (hf : ∀ a, P a → Reads (f a) db Q) : Reads (m >>= f) db Q := by
  cases hv : (m db).value with
  | error failure =>
    have hrun : (m >>= f) db = ⟨.error failure, db, []⟩ := by
      rw [bind_error hv, hm.state, hm.sent]
    refine ⟨congrArg Outcome.state hrun, congrArg Outcome.sent hrun, fun b hb => ?_⟩
    rw [hrun] at hb
    cases hb
  | ok a =>
    have hrun : (m >>= f) db = f a db := by
      rw [bind_ok hv, hm.state, hm.sent]
      rfl
    have ha := hf a (hm.value a hv)
    exact ⟨hrun ▸ ha.state, hrun ▸ ha.sent, hrun ▸ ha.value⟩

theorem reads_query_bind {q : Database → Except Failure α} {f : α → Handler β} {Q : β → Prop}
    (hf : ∀ a, q db = .ok a → Reads (f a) db Q) : Reads (query q >>= f) db Q :=
  (reads_query fun _ h => h).bind hf

end Reading

theorem makes_fail (failure : Failure) : Makes (ofExcept (.error failure)) db kind :=
  .inr ⟨failure, rfl⟩

theorem makes_pure (reply : Reply) (hkind : kind .nothing) : Makes (pure reply) db kind :=
  .inl ⟨.nothing, reply, hkind, rfl⟩

/-- What only reads comes first. -/
theorem makes_bind {α : Type} {m : Handler α} {f : α → Handler Reply} {P : α → Prop}
    (hm : Reads m db P) (hf : ∀ a, P a → Makes (f a) db kind) : Makes (m >>= f) db kind := by
  cases hv : (m db).value with
  | error failure =>
    refine .inr ⟨failure, ?_⟩
    rw [bind_error hv, hm.state, hm.sent]
  | ok a =>
    have hbind : (m >>= f) db = f a db := by
      rw [bind_ok hv, hm.state, hm.sent]
      rfl
    unfold Makes
    rw [hbind]
    exact hf a (hm.value a hv)

theorem makes_query_bind {α : Type} {q : Database → Except Failure α} {f : α → Handler Reply}
    (hf : ∀ a, q db = .ok a → Makes (f a) db kind) : Makes (query q >>= f) db kind :=
  makes_bind (reads_query fun _ h => h) hf

/-- What only reads, and a reply of it. -/
theorem makes_read {α : Type} {m : Handler α} {P : α → Prop} (reply : α → Reply)
    (hm : Reads m db P) (hkind : kind .nothing) : Makes (do return reply (← m)) db kind :=
  makes_bind hm fun a _ => makes_pure (reply a) hkind

/-- A commit of one change; what comes after it cannot fail. -/
theorem makes_commit {w : Database → Option Database} {f : Unit → Handler Reply}
    (h : ∀ db', w db = some db' → ∃ change reply, kind change ∧ db' = change.apply db ∧
      f () db' = ⟨.ok reply, db', change.dispatched⟩) :
    Makes (commitRows w >>= f) db kind := by
  cases hw : w db with
  | none =>
    have herror : orUncaught (w db) = .error .uncaught := by rw [hw]; rfl
    have hcommit : commitRows w db = ⟨.error .uncaught, db, []⟩ := Action.commit_error herror
    refine .inr ⟨.uncaught, ?_⟩
    rw [bind_error (by rw [hcommit]), hcommit]
  | some db' =>
    obtain ⟨change, reply, hkind, hdb', hf⟩ := h db' hw
    have hok : orUncaught (w db) = .ok db' := by rw [hw]; rfl
    have hcommit : commitRows w db = ⟨.ok (), db', []⟩ := Action.commit_ok hok
    refine .inl ⟨change, reply, hkind, ?_⟩
    rw [bind_ok (a := ()) (by rw [hcommit]), hcommit, hf, hdb']
    rfl

theorem rowById_concat {α : Type} [Row α] {rows : List α} {row : α}
    (hfresh : Row.id row ∉ rows.map Row.id) : rowById (Row.id row) (rows ++ [row]) = some row := by
  have hnone : rows.find? (fun r => Row.id r == Row.id row) = none := by
    rw [List.find?_eq_none]
    intro r hr heq
    exact hfresh (beq_iff_eq.mp heq ▸ List.mem_map_of_mem hr)
  rw [rowById, List.find?_append, hnone]
  simp

theorem rowById_of_mem {α : Type} [Row α] {rows : List α} {row : α}
    (hkeys : (rows.map Row.id).Nodup) (hrow : row ∈ rows) : rowById (Row.id row) rows = some row := by
  obtain ⟨found, hfound⟩ : ∃ found, rowById (Row.id row) rows = some found :=
    Option.isSome_iff_exists.mp (List.find?_isSome.mpr ⟨row, hrow, beq_iff_eq.mpr rfl⟩)
  have hid : Row.id found = Row.id row := by simpa using List.find?_some hfound
  rw [hfound, List.inj_on_of_nodup_map hkeys (List.mem_of_find?_eq_some hfound) hrow hid]

/-- An insertion and the refresh of the row. -/
theorem makes_insert {α : Type} [Row α] (draft : α) (change : α → Change)
    {w : Database → Option Database} {add : α → Database → Database} {rows : Database → List α}
    {reply : α → Reply} (hw : w db = (Row.store draft).map fun kept => add kept db)
    (hrows : ∀ kept, rows (add kept db) = rows db ++ [kept])
    (hfresh : Row.id draft ∉ (rows db).map Row.id)
    (happly : ∀ kept, (change kept).apply db = add kept db)
    (hsilent : ∀ kept, (change kept).dispatched = [])
    (hkind : ∀ kept, Row.store draft = some kept → kind (change kept)) :
    Makes (do
      commitRows w
      let stored ← query fun db => orUncaught (rowById (Row.id draft) (rows db))
      return reply stored) db kind := by
  refine makes_commit fun db' hdb' => ?_
  rw [hw] at hdb'
  obtain ⟨kept, hkept, rfl⟩ := Option.map_eq_some_iff.mp hdb'
  have hid : Row.id kept = Row.id draft := Row.store_id hkept
  have hfound : rowById (Row.id draft) (rows (add kept db)) = some kept := by
    rw [hrows, ← hid]
    exact rowById_concat (hid ▸ hfresh)
  refine ⟨change kept, reply kept, hkind kept hkept, (happly kept).symm, ?_⟩
  rw [hsilent, bind_ok (a := kept) (congrArg orUncaught hfound)]
  rfl

/-! ## Endpoints -/

section Endpoints

variable {caller : Organization} {target : Target}

theorem makes_createTarget (hfresh : env.ids.Fresh db) (payload : TargetCreate) :
    Makes (createTarget env caller payload) db
      (Permitted env caller none (.createTarget (.valid payload))) :=
  makes_insert (payload.row env.ids.target caller.id) .addTarget
    (insertTarget_of_fresh hfresh.target) (fun _ => rfl) hfresh.target (fun _ => rfl)
    (fun _ => rfl) fun _ hkept => .target hkept

theorem makes_createScopeRule (hfresh : env.ids.Fresh db) (payload : ScopeRuleCreate) :
    Makes (createScopeRule env target payload) db
      (Permitted env caller (some target) (.createScopeRule (.ok target.id) (.valid payload))) :=
  makes_insert (payload.row env.ids.scopeRule target.id) .addScopeRule
    (insertScopeRule_of_fresh hfresh.scopeRule) (fun _ => rfl) hfresh.scopeRule (fun _ => rfl)
    (fun _ => rfl) fun _ hkept => .scopeRule hkept

theorem makes_createPersona (hfresh : env.ids.Fresh db) {masterKeys : List Bytes}
    (hkeys : getCrypto env = .ok masterKeys) (payload : PersonaCreate) :
    Makes (createPersona env caller target masterKeys payload) db
      (Permitted env caller (some target) (.createPersona (.ok target.id) (.valid payload))) := by
  refine makes_query_bind fun credential hsealed => ?_
  have hnew : ∀ new ∈ credential, new.id ∉ db.credentials.map (·.id) :=
    fun new hmem => sealCredential_id hsealed new hmem ▸ hfresh.credential
  let row := payload.row env.ids.persona target.id (credential.map (·.id))
  have hinsert := insertPersona_of_fresh (c := credential) (p := row) hnew hfresh.persona
  have hkind : ∀ kept, row.store = some kept → Permitted env caller (some target)
      (.createPersona (.ok target.id) (.valid payload)) (.addPersona credential kept) :=
    fun _ hkept => .persona hkeys hsealed hkept
  exact makes_insert row (.addPersona credential) hinsert (fun _ => rfl) hfresh.persona
    (fun _ => rfl) (fun _ => rfl) hkind

theorem makes_createOwnershipChallenge (payload : OwnershipChallengeRequest) :
    Makes (createOwnershipChallenge env target payload) db
      (Permitted env caller (some target)
        (.createOwnershipChallenge (.ok target.id) (.valid payload))) := by
  refine makes_commit fun db' hdb' => ?_
  obtain rfl := Option.some.inj hdb'
  exact ⟨_, _, .challenge, rfl, rfl⟩

theorem makes_runOwnershipVerification :
    Makes (runOwnershipVerification env target) db
      (Permitted env caller (some target) (.runOwnershipVerification (.ok target.id))) := by
  unfold runOwnershipVerification
  split
  · next method token hmethod htoken =>
    refine makes_query_bind fun result hresult => ?_
    refine makes_commit fun db' hdb' => ?_
    obtain rfl := Option.some.inj hdb'
    have hstored := (Option.filter_eq_some_iff.mp htoken).1
    exact ⟨_, _, .verification hmethod hstored (mapError_eq_ok.mp hresult), rfl, rfl⟩
  · exact makes_fail _

theorem makes_acceptAuthorization (hstill : target.id ∈ db.targets.map (·.id))
    (payload : AuthorizationAccept) :
    Makes (acceptAuthorization env target payload) db
      (Permitted env caller (some target)
        (.acceptAuthorization (.ok target.id) (.valid payload))) := by
  unfold acceptAuthorization
  split
  · next haccepted =>
    refine makes_commit fun db' hdb' => ?_
    obtain rfl := Option.some.inj hdb'
    -- the refresh finds the row, which is still there
    obtain ⟨t, ht, hid⟩ := List.mem_map.mp hstill
    let updated := updateChanged target (recordAuthorization env.now target)
    obtain ⟨stored, hstored⟩ :
        ∃ stored, rowById target.id (db.updateTarget target.id updated).targets = some stored := by
      refine Option.isSome_iff_exists.mp (List.find?_isSome.mpr ?_)
      exact ⟨updated t, List.mem_map.mpr ⟨t, ht, if_pos hid⟩, beq_iff_eq.mpr hid⟩
    refine ⟨_, { body := .target (.of stored) }, .authorization haccepted, rfl, ?_⟩
    rw [bind_ok (a := stored) (congrArg orUncaught hstored)]
    rfl
  · exact makes_fail _

theorem scansById_addScan {row : Scan} (hfresh : row.id ∉ db.scans.map (·.id)) :
    (db.addScan row).scansById row.id = [(db.addScan row).withPhases row] := by
  have hold : db.scans.filter (·.id == row.id) = [] := by
    rw [List.filter_eq_nil_iff]
    intro s hs heq
    exact hfresh (beq_iff_eq.mp heq ▸ List.mem_map_of_mem hs)
  unfold Database.scansById Database.addScan
  rw [filter_concat, hold, if_pos (beq_iff_eq.mpr rfl)]
  rfl

theorem makes_createScan (hfresh : env.ids.Fresh db) (payload : ScanCreate) :
    Makes (createScan env target payload) db
      (Permitted env caller (some target) (.createScan (.ok target.id) (.valid payload))) := by
  unfold createScan
  split
  · next hscannable =>
    refine makes_commit fun db' hdb' => ?_
    rw [insertScan_of_fresh hfresh.scan] at hdb'
    obtain ⟨kept, hkept, rfl⟩ := Option.map_eq_some_iff.mp hdb'
    have hid : kept.id = env.ids.scan := (Scan.store_keeps hkept).1
    have hfound := scansById_addScan (hid ▸ hfresh.scan : kept.id ∉ db.scans.map (·.id))
    rw [hid] at hfound
    let reply : Reply :=
      { status := 201
        body := .scan (.of (payload.row env.ids.scan target.id)
          ((db.addScan kept).withPhases kept).2) }
    refine ⟨.addScan kept env.brokerTakes, reply, .scan hscannable hkept, rfl, ?_⟩
    have hdispatch : (dispatchScan env env.ids.scan.text >>= fun _ => pure reply)
        (db.addScan kept) =
          ⟨.ok reply, db.addScan kept, if env.brokerTakes then [kept.id.text] else []⟩ := by
      rw [bind_ok (a := env.brokerTakes) (by rw [dispatchScan_eq]), dispatchScan_eq, hid]
      exact congrArg (Outcome.mk _ _) (List.append_nil _)
    rw [bind_ok (a := (db.addScan kept).withPhases kept) (congrArg scalarOne hfound)]
    exact hdispatch
  · exact makes_fail _

end Endpoints

/-! ## Dependencies -/

/-- The caller is the organisation that the header names. -/
theorem getCurrentOrg_caller {xOrgId : Option Str} {caller : Organization}
    (hok : (getCurrentOrg xOrgId db).value = .ok caller) :
    xOrgId.bind uuidOfText = some caller.id ∧ caller ∈ db.organizations := by
  cases hfilter : xOrgId.filter (· ≠ []) with
  | none =>
    dsimp only [getCurrentOrg, Action.query] at hok
    rw [hfilter] at hok
    cases hok
  | some text =>
    obtain rfl := (Option.filter_eq_some_iff.mp hfilter).1
    cases hid : uuidOfText text with
    | none =>
      dsimp only [getCurrentOrg, Action.query] at hok
      simp only [hfilter, hid] at hok
      cases hok
    | some id =>
      have hclaims : (some text).bind uuidOfText = some id := hid
      obtain ⟨rfl, hmem⟩ := getCurrentOrg_ok hclaims hok
      exact ⟨hclaims, hmem⟩

/-- A target that is handed on is the caller's, and the one of the path. -/
theorem getOwnedTarget_owns {caller : Organization} {id : Uuid} {target : Target}
    (hok : (getOwnedTarget caller id db).value = .ok target) :
    target.id = id ∧ db.Owns caller target := by
  dsimp only [getOwnedTarget, Action.query] at hok
  cases hfound : rowById id db.targets with
  | none =>
    rw [hfound] at hok
    cases hok
  | some found =>
    rw [hfound, ownedOrNotFound] at hok
    split at hok
    · next horg =>
      obtain rfl := Except.ok.inj hok
      have hid : Row.id found = id := by simpa using List.find?_some hfound
      exact ⟨hid, List.mem_of_find?_eq_some hfound, horg⟩
    · cases hok

theorem reads_solveTarget (caller : Organization) (targetId : PathId) :
    Reads (solveTarget caller targetId) db fun solved => ∀ target, solved = .ok target →
      targetId = .ok target.id ∧ db.Owns caller target := by
  cases targetId with
  | error errors => exact reads_pure fun target h => by cases h
  | ok id =>
    refine reads_query_bind fun t ht => reads_pure fun target htarget => ?_
    obtain rfl := Except.ok.inj htarget
    obtain ⟨hid, howns⟩ := getOwnedTarget_owns ht
    exact ⟨congrArg Except.ok hid.symm, howns⟩

theorem validated_payload {α β : Type} {x : Except ValidationErrors α} {payload : Body β} {a : α}
    {b : β} (h : validated x payload = .ok (a, b)) : payload = .valid b := by
  cases payload with
  | valid b' =>
    cases x with
    | error errors => cases h
    | ok a' => exact congrArg _ (Prod.mk.inj (Except.ok.inj h)).2
  | unreadable why => cases x <;> cases h
  | invalid errors => cases x <;> cases h

/-! ## Routes -/

section Dependencies

variable {xOrgId : Option Str} {α γ ρ : Type} {payload : Body α} {P : ρ → Prop}

theorem reads_orgRoute {endpoint : Organization → α → Handler ρ}
    (h : ∀ caller a, payload = .valid a → xOrgId.bind uuidOfText = some caller.id →
      caller ∈ db.organizations → Reads (endpoint caller a) db P) :
    Reads (orgRoute xOrgId payload endpoint) db P := by
  refine reads_query_bind fun _ _ => reads_query_bind fun caller hcaller => ?_
  refine reads_query_bind fun p hp => ?_
  obtain ⟨hclaims, hmem⟩ := getCurrentOrg_caller hcaller
  exact h caller p.2 (validated_payload (a := p.1) hp) hclaims hmem

theorem reads_targetRoute {targetId : PathId} {extra : Except Failure γ}
    {endpoint : Organization → Target → γ → α → Handler ρ}
    (h : ∀ caller target c a, targetId = .ok target.id → payload = .valid a → extra = .ok c →
      xOrgId.bind uuidOfText = some caller.id → caller ∈ db.organizations →
      db.Owns caller target → Reads (endpoint caller target c a) db P) :
    Reads (targetRoute xOrgId targetId extra payload endpoint) db P := by
  refine reads_query_bind fun _ _ => reads_query_bind fun caller hcaller => ?_
  refine (reads_solveTarget caller targetId).bind fun solved hsolved => ?_
  refine reads_query_bind fun c hc => reads_query_bind fun p hp => ?_
  obtain ⟨hclaims, hmem⟩ := getCurrentOrg_caller hcaller
  obtain ⟨hid, howns⟩ := hsolved p.1 (validated_ok (a := p.1) (b := p.2) hp)
  exact h caller p.1 c p.2 hid (validated_payload (a := p.1) hp) hc hclaims hmem howns

end Dependencies

/-- The endpoint makes a change of the route, on every database on which the
ids are fresh and which has the target still. -/
def Solved.Ready (env : Environment) (route : Route) (s : Solved) : Prop :=
  ∀ db : Database, env.ids.Fresh db → (∀ t ∈ s.target, t.id ∈ db.targets.map (·.id)) →
    Makes s.endpoint db (Permitted env s.caller s.target route)

/-- A route of an organisation: its endpoint is ready. -/
theorem solves_org {xOrgId : Option Str} {α : Type} {payload : Body α}
    {endpoint : Organization → α → Handler Reply} {route : Route}
    (h : ∀ caller a, payload = .valid a →
      Solved.Ready env route ⟨caller, none, endpoint caller a⟩) :
    Reads (orgRoute xOrgId payload fun org a => pure (⟨org, none, endpoint org a⟩ : Solved)) db
      fun s => Request.Loads ⟨xOrgId, route⟩ db s.caller s.target ∧ s.Ready env route := by
  refine reads_orgRoute fun caller a hpayload hclaims hmem => reads_pure ⟨⟨hmem, hclaims, ?_⟩, ?_⟩
  · intro t ht
    cases ht
  · exact h caller a hpayload

/-- A route of a target: its endpoint is ready. -/
theorem solves_target {xOrgId : Option Str} {targetId : PathId} {α γ : Type}
    {extra : Except Failure γ} {payload : Body α}
    {endpoint : Organization → Target → γ → α → Handler Reply} {route : Route}
    (h : ∀ caller target c a, targetId = .ok target.id → payload = .valid a → extra = .ok c →
      Solved.Ready env route ⟨caller, some target, endpoint caller target c a⟩) :
    Reads (targetRoute xOrgId targetId extra payload fun org t c a =>
        pure (⟨org, some t, endpoint org t c a⟩ : Solved)) db
      fun s => Request.Loads ⟨xOrgId, route⟩ db s.caller s.target ∧ s.Ready env route := by
  refine reads_targetRoute fun caller target c a hid hpayload hc hclaims hmem howns =>
    reads_pure ⟨⟨hmem, hclaims, ?_⟩, ?_⟩
  · intro t ht
    obtain rfl := Option.some.inj ht
    exact howns
  · exact h caller target c a hid hpayload hc

/-- **Dependencies first.** Solving a request only reads; what it comes to is
the caller and the target that were found, and an endpoint that is ready. -/
theorem solve_ready (request : Request) (db : Database) :
    Reads (request.solve env) db fun s =>
      request.Loads db s.caller s.target ∧ s.Ready env request.route := by
  obtain ⟨xOrgId, route⟩ := request
  cases route <;> dsimp only [Request.solve, Request.routed]
  case createTarget payload =>
    refine solves_org fun caller a hpayload db hfresh _ => ?_
    subst hpayload
    exact makes_createTarget hfresh a
  case createOwnershipChallenge targetId payload =>
    refine solves_target fun caller target _ a hid hpayload _ db _ _ => ?_
    subst hid hpayload
    exact makes_createOwnershipChallenge a
  case runOwnershipVerification targetId =>
    refine solves_target fun caller target _ _ hid _ _ db _ _ => ?_
    subst hid
    exact makes_runOwnershipVerification
  case acceptAuthorization targetId payload =>
    refine solves_target fun caller target _ a hid hpayload _ db _ hstill => ?_
    subst hid hpayload
    exact makes_acceptAuthorization (hstill target rfl) a
  case createScopeRule targetId payload =>
    refine solves_target fun caller target _ a hid hpayload _ db hfresh _ => ?_
    subst hid hpayload
    exact makes_createScopeRule hfresh a
  case createPersona targetId payload =>
    refine solves_target fun caller target keys a hid hpayload hkeys db hfresh _ => ?_
    subst hid hpayload
    exact makes_createPersona hfresh hkeys a
  case createScan targetId payload =>
    refine solves_target fun caller target _ a hid hpayload _ db hfresh _ => ?_
    subst hid hpayload
    exact makes_createScan hfresh a
  case getTarget targetId =>
    exact solves_target fun _ _ _ _ _ _ _ db _ _ => makes_pure _ (.read rfl)
  case listTargets =>
    exact solves_org fun _ _ _ db _ _ => makes_read _ (reads_query fun _ h => h) (.read rfl)
  case listScopeRules targetId | listPersonas targetId | listScans targetId =>
    exact solves_target fun _ _ _ _ _ _ _ db _ _ =>
      makes_read _ (reads_query fun _ h => h) (.read rfl)
  case getScan scanId | listFindings scanId =>
    refine solves_org fun _ _ _ db _ _ => ?_
    exact makes_query_bind fun scan _ => makes_read _ (reads_query fun _ h => h) (.read rfl)

/-- **One request, one change.** A reply comes with the change its route
stands for; a request that fails leaves everything as it was. -/
theorem handler_makes (hfresh : env.ids.Fresh db) (request : Request) :
    Makes (request.handler env) db (request.Permits env db) := by
  rw [Request.handler_eq_solve]
  refine makes_bind (solve_ready request db) fun s ⟨hloads, hready⟩ => ?_
  have hstill : ∀ t ∈ s.target, t.id ∈ db.targets.map (·.id) :=
    fun t ht => List.mem_map_of_mem (hloads.owns t ht).1
  rcases hready db hfresh hstill with ⟨change, reply, hchange, hrun⟩ | hfail
  · exact .inl ⟨change, reply, ⟨s.caller, s.target, hloads, hchange⟩, hrun⟩
  · exact .inr hfail

/-- What a request that is served leaves behind. -/
theorem serve_makes (hfresh : env.ids.Fresh db) (request : Request) :
    (∃ change reply, request.Permits env db change ∧
      serve env request db = ⟨.reply reply, change.apply db, change.dispatched⟩) ∨
    ∃ failure, serve env request db = ⟨respond (.error failure), db, []⟩ := by
  rcases handler_makes hfresh request with ⟨change, reply, hchange, hrun⟩ | ⟨failure, hrun⟩
  · refine .inl ⟨change, reply, hchange, ?_⟩
    rw [serve, hrun]
    rfl
  · refine .inr ⟨failure, ?_⟩
    rw [serve, hrun]

/-! ## Consistency -/

/-- **A permitted change keeps the keys in order**, if the caller and the
target that were loaded are still there. -/
theorem Permitted.consistent {caller : Organization} {loaded : Option Target} {route : Route}
    {change : Change} (h : Permitted env caller loaded route change) (hdb : db.Consistent)
    (hcaller : caller.id ∈ db.organizations.map (·.id))
    (hstill : ∀ t ∈ loaded, t.id ∈ db.targets.map (·.id)) (hfresh : env.ids.Fresh db) :
    (change.apply db).Consistent := by
  cases h with
  | read => exact hdb
  | target hrow =>
    obtain ⟨hid, horg⟩ := Target.store_keeps hrow
    exact hdb.addTarget (hid ▸ hfresh.target) (horg ▸ hcaller)
  | challenge | verification | authorization =>
    exact hdb.updateTarget (fun _ => by rfl) (fun _ => by rfl) _
  | scopeRule hrow =>
    obtain ⟨hid, htarget⟩ := ScopeRule.store_keeps hrow
    exact hdb.addScopeRule (hid ▸ hfresh.scopeRule) (htarget ▸ hstill _ rfl)
  | persona hkeys hsealed hrow =>
    obtain ⟨hid, htarget, hcredential⟩ := Persona.store_keeps hrow
    exact hdb.addPersona hcredential
      (fun new hmem => sealCredential_id hsealed new hmem ▸ hfresh.credential)
      (hid ▸ hfresh.persona) (htarget ▸ hstill _ rfl)
  | scan hscannable hrow =>
    obtain ⟨hid, htarget⟩ := Scan.store_keeps hrow
    exact hdb.addScan (hid ▸ hfresh.scan) (htarget ▸ hstill _ rfl)

end Sentinel.Api
