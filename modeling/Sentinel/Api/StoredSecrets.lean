/-
Sentinel.Api.StoredSecrets — secrets go in and do not come out.

Two control planes side by side: their databases agree but for what the
credentials hold, and they get the same requests but for the secrets that
are posted. Every handler keeps that relation (`twins_handler`), so the
two answer alike and dispatch alike in every run (`secrets_write_only`). A
body that is not valid is left out: the 422 shows what was posted.
-/
import Sentinel.Api.Handover
import Sentinel.Tenancy.Relational

namespace Sentinel.Api

open Sentinel.Py Sentinel.Core Sentinel.Tenancy Sentinel.Tenancy.Action Sentinel.Trace

/-- The databases agree but for the contents of the credentials. -/
inductive SameButCredentials (db : Database) : Database → Prop where
  | intro (credentials : List Credential)
      (hids : credentials.map (·.id) = db.credentials.map (·.id)) :
      SameButCredentials db { db with credentials := credentials }

/-- The bodies are both unreadable or both invalid, or both valid and
related. -/
inductive Body.Like {α : Type} (P : α → α → Prop) : Body α → Body α → Prop where
  | unreadable (why : Unreadable) : Like P (.unreadable why) (.unreadable why)
  | invalid (errors : ValidationErrors) : Like P (.invalid errors) (.invalid errors)
  | valid {a b : α} (h : P a b) : Like P (.valid a) (.valid b)

theorem Body.Like.refl {α : Type} (payload : Body α) : Body.Like Eq payload payload := by
  cases payload with
  | unreadable why => exact .unreadable why
  | invalid errors => exact .invalid errors
  | valid a => exact .valid rfl

/-- The personas agree but for the credential, which both have or neither. -/
structure SameButSecret (p q : PersonaCreate) : Prop where
  rest : q = { p with credential := q.credential }
  given : q.credential.isSome = p.credential.isSome

/-- The requests agree but for the secret of a persona. -/
inductive Request.SameButSecrets : Request → Request → Prop where
  | same (request : Request) : SameButSecrets request request
  | persona (xOrgId : Option Str) (targetId : PathId) {p q : Body PersonaCreate}
      (h : Body.Like SameButSecret p q) :
      SameButSecrets ⟨xOrgId, .createPersona targetId p⟩ ⟨xOrgId, .createPersona targetId q⟩

/-- Side by side, with equal values. -/
abbrev Twins {α : Type} (m₁ m₂ : Handler α) : Prop := Related SameButCredentials Eq m₁ m₂

variable {env : Environment}

/-! ## Reading -/

/-- A query that does not look into the credentials. -/
theorem twins_query {α : Type} {q : Database → Except Failure α}
    (h : ∀ db credentials, q { db with credentials := credentials } = q db) :
    Twins (query q) (query q) := by
  refine related_query fun db₁ db₂ hsame => ?_
  cases hsame with
  | intro credentials hids => exact alike_eq_iff.mpr (h db₁ credentials).symm

theorem twins_ofExcept {α : Type} (x : Except Failure α) : Twins (ofExcept x) (ofExcept x) :=
  related_ofExcept (alike_eq_iff.mpr rfl)

/-- A query, and what is done with its answer. -/
theorem twins_query_bind {α β : Type} {q : Database → Except Failure α} {f : α → Handler β}
    (h : ∀ db credentials, q { db with credentials := credentials } = q db)
    (hf : ∀ a, Twins (f a) (f a)) : Twins (query q >>= f) (query q >>= f) :=
  (twins_query h).bind fun a _ heq => heq ▸ hf a

/-! ## Writing -/

/-- A statement that does not look into the credentials and leaves them. -/
theorem twins_commit {w : Database → Option Database}
    (h : ∀ db credentials, w { db with credentials := credentials } =
      (w db).map fun db' => { db' with credentials := credentials })
    (hkeep : ∀ db db', w db = some db' → db'.credentials = db.credentials) :
    Twins (commitRows w) (commitRows w) := by
  refine related_commit fun db₁ db₂ hsame => ?_
  cases hsame with
  | intro credentials hids =>
    rw [h db₁ credentials]
    cases hw : w db₁ with
    | none => exact .error _
    | some db' =>
      refine .ok (.intro credentials ?_)
      rw [hids, hkeep db₁ db' hw]

/-- The statement adds a row to a table that has no credentials. -/
theorem twins_insert {α : Type} [Row α] (row : α) (rows : Database → List α)
    (put : List α → Database → Database)
    (hrows : ∀ db credentials, rows { db with credentials := credentials } = rows db)
    (hput : ∀ kept db credentials, put kept { db with credentials := credentials } =
      { put kept db with credentials := credentials })
    (hkeep : ∀ kept db, (put kept db).credentials = db.credentials) :
    Twins (commitRows fun db => (insertRow row (rows db)).map fun kept => put kept db)
      (commitRows fun db => (insertRow row (rows db)).map fun kept => put kept db) := by
  refine twins_commit (fun db credentials => ?_) fun db db' hdb' => ?_
  · rw [hrows, Option.map_map]
    exact congrArg (Option.map · _) (funext fun kept => hput kept db credentials)
  · obtain ⟨kept, -, rfl⟩ := Option.map_eq_some_iff.mp hdb'
    exact hkeep kept db

theorem twins_update {id : Uuid} {change : Target → Target} :
    Twins (commitRows fun db => some (db.updateTarget id change))
      (commitRows fun db => some (db.updateTarget id change)) :=
  twins_commit (fun _ _ => rfl) fun db db' hdb' => by
    obtain rfl := Option.some.inj hdb'
    rfl

theorem insertRow_congr {α : Type} [Row α] {rows₁ rows₂ : List α} {a b : α}
    (hrows : rows₂.map Row.id = rows₁.map Row.id) (hid : Row.id b = Row.id a) :
    (rows₂.any fun r => Row.id r == Row.id b) = rows₁.any fun r => Row.id r == Row.id a := by
  rw [hid]
  have hany : ∀ rows : List α, (rows.any fun r => Row.id r == Row.id a) =
      (rows.map Row.id).any (· == Row.id a) := fun rows => by rw [List.any_map]; rfl
  rw [hany, hany, hrows]

/-! ## The credential -/

/-- Whether a credential can be sealed does not depend on its secret. -/
theorem sealCredential_alike (env : Environment) (org : Organization) (masterKeys : List Bytes)
    (x y : CredentialCreate) :
    Alike (fun a b : Credential => b.id = a.id) (sealCredential env org masterKeys x)
      (sealCredential env org masterKeys y) := by
  unfold sealCredential
  cases (env.fernet.unwrap masterKeys org.wrappedDataKey).mapError fun _ => Failure.uncaught with
  | error e => exact .error e
  | ok dataKey =>
    dsimp only [bind, Except.bind]
    unfold Fernet.encryptWith
    cases env.fernet.isKey dataKey with
    | false => exact .error _
    | true => exact .ok rfl

theorem sealed_alike (env : Environment) (org : Organization) (masterKeys : List Bytes)
    {p q : PersonaCreate} (h : SameButSecret p q) :
    Alike (fun a b : Option Credential => b.map (·.id) = a.map (·.id))
      (p.credential.mapM (sealCredential env org masterKeys))
      (q.credential.mapM (sealCredential env org masterKeys)) := by
  have hgiven := h.given
  cases hp : p.credential with
  | none =>
    cases hq : q.credential with
    | none => exact .ok rfl
    | some y =>
      rw [hp, hq] at hgiven
      cases hgiven
  | some x =>
    cases hq : q.credential with
    | none =>
      rw [hp, hq] at hgiven
      cases hgiven
    | some y =>
      have hseal := sealCredential_alike env org masterKeys x y
      show Alike _ (some <$> sealCredential env org masterKeys x)
        (some <$> sealCredential env org masterKeys y)
      generalize sealCredential env org masterKeys x = a at hseal
      generalize sealCredential env org masterKeys y = b at hseal
      cases hseal with
      | error e => exact .error e
      | ok hid => exact .ok (congrArg some hid)

/-- The flush of the credential, and then the persona: the statement does not
see what a credential holds. -/
theorem insertPersona_alike {db : Database} {credentials : List Credential}
    (hids : credentials.map (·.id) = db.credentials.map (·.id)) {c d : Option Credential}
    (hcredential : d.map (·.id) = c.map (·.id)) {row row' : Persona} (hrow : row' = row) :
    Alike SameButCredentials
      (orUncaught (do
        let db ← match c with
          | some new => db.insertCredential new
          | none => some db
        db.insertPersona row))
      (orUncaught (do
        let db ← match d with
          | some new => Database.insertCredential new { db with credentials := credentials }
          | none => some { db with credentials := credentials }
        db.insertPersona row')) := by
  subst hrow
  -- what the persona's own statement does to databases that agree
  have hpersona : ∀ {rows rows' : List Credential}, rows'.map (·.id) = rows.map (·.id) →
      Alike SameButCredentials
        (orUncaught (Database.insertPersona row' { db with credentials := rows }))
        (orUncaught (Database.insertPersona row' { db with credentials := rows' })) := by
    intro rows rows' hrows
    unfold Database.insertPersona
    cases insertRow row' db.personas with
    | none => exact .error _
    | some kept =>
      have hsame : SameButCredentials { db with credentials := rows, personas := kept }
          { db with credentials := rows', personas := kept } := .intro rows' hrows
      exact .ok hsame
  cases c with
  | none =>
    cases d with
    | none => exact hpersona hids
    | some new => cases hcredential
  | some old =>
    cases d with
    | none => cases hcredential
    | some new =>
      have hid : new.id = old.id := Option.some.inj hcredential
      show Alike _ (orUncaught ((db.insertCredential old).bind (·.insertPersona row')))
        (orUncaught ((Database.insertCredential new { db with credentials := credentials }).bind
          (·.insertPersona row')))
      unfold Database.insertCredential insertRow
      dsimp only
      have htaken : (credentials.any fun r => Row.id r == Row.id new) =
          db.credentials.any fun r => Row.id r == Row.id old := insertRow_congr hids hid
      rw [htaken]
      split
      · exact .error _
      · refine hpersona ?_
        rw [List.map_append, List.map_append, hids]
        exact congrArg (_ ++ [·]) hid

/-! ## Endpoints -/

theorem twins_pure {α : Type} (a : α) : Twins (pure a : Handler α) (pure a) := related_pure rfl

section Endpoints

variable (caller : Organization) (target : Target)

theorem twins_createTarget (payload : TargetCreate) :
    Twins (createTarget env caller payload) (createTarget env caller payload) := by
  refine (twins_insert (payload.row env.ids.target caller.id) (·.targets)
    (fun rows db => { db with targets := rows }) (fun _ _ => rfl) (fun _ _ _ => rfl)
    fun _ _ => rfl).bind fun _ _ _ => ?_
  exact twins_query_bind (fun _ _ => rfl) fun _ => twins_pure _

theorem twins_createScopeRule (payload : ScopeRuleCreate) :
    Twins (createScopeRule env target payload) (createScopeRule env target payload) := by
  refine (twins_insert (payload.row env.ids.scopeRule target.id) (·.scopeRules)
    (fun rows db => { db with scopeRules := rows }) (fun _ _ => rfl) (fun _ _ _ => rfl)
    fun _ _ => rfl).bind fun _ _ _ => ?_
  exact twins_query_bind (fun _ _ => rfl) fun _ => twins_pure _

theorem twins_createOwnershipChallenge (payload : OwnershipChallengeRequest) :
    Twins (createOwnershipChallenge env target payload)
      (createOwnershipChallenge env target payload) :=
  twins_update.bind fun _ _ _ => twins_pure _

theorem twins_runOwnershipVerification :
    Twins (runOwnershipVerification env target) (runOwnershipVerification env target) := by
  unfold runOwnershipVerification
  split
  · refine (twins_ofExcept _).bind fun result _ hresult => ?_
    subst hresult
    exact twins_update.bind fun _ _ _ => twins_pure _
  · exact twins_ofExcept _

theorem twins_acceptAuthorization (payload : AuthorizationAccept) :
    Twins (acceptAuthorization env target payload) (acceptAuthorization env target payload) := by
  unfold acceptAuthorization
  split
  · refine twins_update.bind fun _ _ _ => ?_
    exact twins_query_bind (fun _ _ => rfl) fun _ => twins_pure _
  · exact twins_ofExcept _

theorem twins_dispatchScan (scanId : Str) :
    Twins (dispatchScan env scanId) (dispatchScan env scanId) := by
  unfold dispatchScan
  split
  · exact (related_send _).bind fun _ _ _ => twins_pure _
  · exact twins_pure _

theorem twins_createScan (payload : ScanCreate) :
    Twins (createScan env target payload) (createScan env target payload) := by
  unfold createScan
  split
  · refine (twins_insert (payload.row env.ids.scan target.id) (·.scans)
      (fun rows db => { db with scans := rows }) (fun _ _ => rfl) (fun _ _ _ => rfl)
      fun _ _ => rfl).bind fun _ _ _ => ?_
    refine twins_query_bind (fun _ _ => rfl) fun found => ?_
    exact (twins_dispatchScan _).bind fun _ _ _ => twins_pure _
  · exact twins_ofExcept _

/-- Two personas that differ in the secret: the same reply. -/
theorem twins_createPersona (masterKeys : List Bytes) {p q : PersonaCreate}
    (h : SameButSecret p q) :
    Twins (createPersona env caller target masterKeys p)
      (createPersona env caller target masterKeys q) := by
  refine (related_ofExcept (sealed_alike env caller masterKeys h)).bind
    fun (c d : Option Credential) hids => ?_
  have hrow : ∀ id, q.row env.ids.persona target.id id = p.row env.ids.persona target.id id := by
    intro id
    rw [h.rest]
    rfl
  have hdraft : q.row env.ids.persona target.id (d.map (·.id)) =
      p.row env.ids.persona target.id (c.map (·.id)) := by
    rw [hrow, hids]
  refine Related.bind (Q := Eq) ?_ fun _ _ _ => ?_
  · refine related_commit fun db₁ db₂ hsame => ?_
    cases hsame with
    | intro credentials hcredentials =>
      exact insertPersona_alike hcredentials hids hdraft
  · exact twins_query_bind (fun _ _ => rfl) fun _ => twins_pure _

end Endpoints

/-! ## Routes -/

theorem validated_alike {α β : Type} (x : Except ValidationErrors α) {P : β → β → Prop}
    {p q : Body β} (h : Body.Like P p q) :
    Alike (fun a b : α × β => a.1 = b.1 ∧ P a.2 b.2) (validated x p) (validated x q) := by
  cases h with
  | unreadable why =>
    cases x with
    | error more => exact .error _
    | ok a => exact .error _
  | invalid errors =>
    cases x with
    | error more => exact .error _
    | ok a => exact .error _
  | valid hab =>
    cases x with
    | error more => exact .error _
    | ok a => exact .ok ⟨rfl, hab⟩

theorem readable_eq {α : Type} {P : α → α → Prop} {p q : Body α} (h : Body.Like P p q) :
    q.readable = p.readable := by
  cases h with
  | unreadable why => rfl
  | invalid errors => rfl
  | valid h => rfl

theorem twins_getCurrentOrg (xOrgId : Option Str) :
    Twins (getCurrentOrg xOrgId) (getCurrentOrg xOrgId) := twins_query fun _ _ => rfl

theorem twins_solveTarget (caller : Organization) (targetId : PathId) :
    Twins (solveTarget caller targetId) (solveTarget caller targetId) := by
  cases targetId with
  | error errors => exact twins_pure _
  | ok id => exact twins_query_bind (fun _ _ => rfl) fun _ => twins_pure _

theorem twins_orgRoute {xOrgId : Option Str} {α : Type} (payload : Body α)
    {endpoint : Organization → α → Handler Reply}
    (h : ∀ caller a, Twins (endpoint caller a) (endpoint caller a)) :
    Twins (orgRoute xOrgId payload endpoint) (orgRoute xOrgId payload endpoint) := by
  refine (twins_ofExcept _).bind fun _ _ _ => ?_
  refine (twins_getCurrentOrg xOrgId).bind fun caller _ hcaller => ?_
  subst hcaller
  refine (twins_ofExcept _).bind fun p _ hp => ?_
  subst hp
  exact h caller p.2

theorem twins_targetRoute {xOrgId : Option Str} {targetId : PathId} {α γ : Type}
    {extra : Except Failure γ} {P : α → α → Prop} {p q : Body α} (hbody : Body.Like P p q)
    {endpoint : Organization → Target → γ → α → Handler Reply}
    (h : ∀ caller target c a b, P a b →
      Twins (endpoint caller target c a) (endpoint caller target c b)) :
    Twins (targetRoute xOrgId targetId extra p endpoint)
      (targetRoute xOrgId targetId extra q endpoint) := by
  unfold targetRoute
  rw [readable_eq hbody]
  refine (twins_ofExcept _).bind fun _ _ _ => ?_
  refine (twins_getCurrentOrg xOrgId).bind fun caller _ hcaller => ?_
  subst hcaller
  refine (twins_solveTarget caller targetId).bind fun solved _ hsolved => ?_
  subst hsolved
  refine (twins_ofExcept extra).bind fun c _ hc => ?_
  subst hc
  refine (related_ofExcept (validated_alike solved hbody)).bind fun a b hab => ?_
  obtain ⟨target, payload⟩ := a
  obtain ⟨target', payload'⟩ := b
  obtain ⟨htarget, hpayload⟩ := hab
  obtain rfl : target = target' := htarget
  exact h caller target c payload payload' hpayload

/-- **Every handler.** -/
theorem twins_handler {r₁ r₂ : Request} (h : r₁.SameButSecrets r₂) :
    Twins (r₁.handler env) (r₂.handler env) := by
  cases h with
  | persona xOrgId targetId hbody =>
    exact twins_targetRoute hbody fun caller target keys _ _ hpq =>
      twins_createPersona caller target keys hpq
  | same request =>
    obtain ⟨xOrgId, route⟩ := r₁
    -- the same request: its endpoints see the same payload
    have htarget : ∀ {targetId : PathId} {α γ : Type} {extra : Except Failure γ} (payload : Body α)
        {endpoint : Organization → Target → γ → α → Handler Reply},
        (∀ caller target c a, Twins (endpoint caller target c a) (endpoint caller target c a)) →
        Twins (targetRoute xOrgId targetId extra payload endpoint)
          (targetRoute xOrgId targetId extra payload endpoint) := fun payload _ hendpoint =>
      twins_targetRoute (.refl payload) fun caller target c a _ hab =>
        hab ▸ hendpoint caller target c a
    cases route <;> dsimp only [Request.handler, Request.routed]
    case createTarget payload => exact twins_orgRoute payload twins_createTarget
    case listTargets =>
      exact twins_orgRoute _ fun _ _ => twins_query_bind (fun _ _ => rfl) fun _ => twins_pure _
    case getTarget targetId => exact htarget _ fun _ _ _ _ => twins_pure _
    case createOwnershipChallenge targetId payload =>
      exact htarget payload fun _ target _ => twins_createOwnershipChallenge target
    case runOwnershipVerification targetId =>
      exact htarget _ fun _ target _ _ => twins_runOwnershipVerification target
    case acceptAuthorization targetId payload =>
      exact htarget payload fun _ target _ => twins_acceptAuthorization target
    case createScopeRule targetId payload =>
      exact htarget payload fun _ target _ => twins_createScopeRule target
    case createPersona targetId payload =>
      exact htarget payload fun caller target keys a =>
        twins_createPersona caller target keys ⟨rfl, rfl⟩
    case createScan targetId payload =>
      exact htarget payload fun _ target _ => twins_createScan target
    case listScopeRules targetId | listPersonas targetId | listScans targetId =>
      exact htarget _ fun _ _ _ _ => twins_query_bind (fun _ _ => rfl) fun _ => twins_pure _
    case getScan scanId | listFindings scanId =>
      refine twins_orgRoute _ fun _ _ => twins_query_bind (fun _ _ => rfl) fun _ => ?_
      exact twins_query_bind (fun _ _ => rfl) fun _ => twins_pure _

/-! ## Runs -/

/-- What the outside gets of a request that was served. -/
def Served.shown (e : Served) : Response × List Str := (e.result.response, e.result.dispatched)

/-- The calls agree but for the secret of a persona. -/
structure Call.SameButSecrets (c₁ c₂ : Call) : Prop where
  env : c₂.env = c₁.env
  request : c₁.request.SameButSecrets c₂.request

/-- The history of a run is what its handlers let one observe. -/
theorem shown_observe (db : Database) (calls : List Call) :
    let seen := observe db (calls.map fun call => call.request.handler call.env)
    (history Database.serveCall db calls).map Served.shown =
        seen.1.map (fun reply => (respond reply.1, reply.2)) ∧
      final Database.serveCall db calls = seen.2 := by
  induction calls generalizing db with
  | nil => exact ⟨rfl, rfl⟩
  | cons call calls ih =>
    obtain ⟨hshown, hfinal⟩ := ih (db.serveCall call).2
    exact ⟨congrArg (_ :: ·) hshown, hfinal⟩

/-- **Secrets are write-only.** Two control planes whose databases differ in
what the credentials hold serve the same requests, in which the posted
secrets differ. Every response and every dispatch of the one is that of the
other, and afterwards the databases again differ in the credentials only. -/
theorem secrets_write_only {db₁ db₂ : Database} (hdb : SameButCredentials db₁ db₂)
    {calls₁ calls₂ : List Call} (hcalls : List.Forall₂ Call.SameButSecrets calls₁ calls₂) :
    (history Database.serveCall db₁ calls₁).map Served.shown =
        (history Database.serveCall db₂ calls₂).map Served.shown ∧
      SameButCredentials (final Database.serveCall db₁ calls₁)
        (final Database.serveCall db₂ calls₂) := by
  have hhandlers : List.Forall₂ (Related SameButCredentials Eq)
      (calls₁.map fun call => call.request.handler call.env)
      (calls₂.map fun call => call.request.handler call.env) := by
    rw [List.forall₂_map_left_iff, List.forall₂_map_right_iff]
    refine hcalls.imp fun c₁ c₂ h => ?_
    rw [h.env]
    exact twins_handler h.request
  obtain ⟨hseen, hleft⟩ := related_runs hhandlers hdb
  obtain ⟨hshown₁, hfinal₁⟩ := shown_observe db₁ calls₁
  obtain ⟨hshown₂, hfinal₂⟩ := shown_observe db₂ calls₂
  rw [hshown₁, hshown₂, hfinal₁, hfinal₂]
  exact ⟨congrArg _ hseen, hleft⟩

/-- A persona with this password. -/
def personaWith (password : CredentialCreate) : PersonaCreate :=
  { adminPersona with credential := some password }

/-- The personas are listed after one was created with either password. -/
theorem passwords_write_only :
    let calls (password : CredentialCreate) : List Call :=
      [⟨plainEnvironment.withKeys [oldKey], some acmeHeader,
        .createPersona acmeId (.valid (personaWith password))⟩,
      ⟨laterEnvironment, some acmeHeader, .listPersonas acmeId⟩]
    let hunter : CredentialCreate := ⟨.password, "hunter2".toList, by decide⟩
    let horse : CredentialCreate := ⟨.apiToken, "correct horse".toList, by decide⟩
    (history Database.serveCall keyedDb (calls hunter)).map Served.shown =
      (history Database.serveCall keyedDb (calls horse)).map Served.shown := by
  intro calls hunter horse
  have hsame : SameButSecret (personaWith hunter) (personaWith horse) := ⟨rfl, rfl⟩
  have hcalls : List.Forall₂ Call.SameButSecrets (calls hunter) (calls horse) :=
    .cons ⟨rfl, .persona _ _ (.valid hsame)⟩ (.cons ⟨rfl, .same _⟩ .nil)
  exact (secrets_write_only (.intro _ rfl) hcalls).1

end Sentinel.Api
