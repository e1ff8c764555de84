/-
Sentinel.Api.TenantIsolation — tenant isolation of the control plane.

Every endpoint is isolated (`Tenancy.Tenants.Isolated`) on a consistent
database with fresh ids: it reads what the organisation owns and changes
nothing else. The dependencies bring an endpoint to its organisation and
its target, so `isolated_targetRoute` asks each endpoint only about
targets the caller owns. From that come noninterference of one request and
the purging of whole runs.
-/
import Sentinel.Api.Routes
import Sentinel.Api.Tenants

namespace Sentinel.Api

open Sentinel.Py Sentinel.Core Sentinel.Tenancy Sentinel.Tenancy.Tenants

/-- Organisations on one database. -/
def tenancy : Tenants Uuid Database := ⟨Database.ownedBy, Database.Consistent⟩

/-- No row has any of the ids yet. -/
structure FreshIds.Fresh (ids : FreshIds) (db : Database) : Prop where
  target : ids.target ∉ db.targets.map (·.id)
  scopeRule : ids.scopeRule ∉ db.scopeRules.map (·.id)
  credential : ids.credential ∉ db.credentials.map (·.id)
  persona : ids.persona ∉ db.personas.map (·.id)
  scan : ids.scan ∉ db.scans.map (·.id)

instance (ids : FreshIds) (db : Database) : Decidable (ids.Fresh db) :=
  decidable_of_iff (ids.target ∉ db.targets.map (·.id) ∧ ids.scopeRule ∉ db.scopeRules.map (·.id) ∧
      ids.credential ∉ db.credentials.map (·.id) ∧ ids.persona ∉ db.personas.map (·.id) ∧
      ids.scan ∉ db.scans.map (·.id))
    ⟨fun ⟨ht, hr, hc, hp, hs⟩ => ⟨ht, hr, hc, hp, hs⟩, fun ⟨ht, hr, hc, hp, hs⟩ => ⟨ht, hr, hc, hp, hs⟩⟩

/-- The request comes with `X-Org-Id: org`. -/
def Request.ClaimsOrg (request : Request) (org : Uuid) : Prop :=
  request.xOrgId.bind uuidOfText = some org

variable {env : Environment} {org : Uuid} {db : Database} {target : Target}

/-! ## Commits -/

theorem insertRow_of_fresh {α : Type} [Row α] {row : α} {rows : List α}
    (hfresh : Row.id row ∉ rows.map Row.id) :
    insertRow row rows = (Row.store row).map fun kept => rows ++ [kept] := by
  have hnone : (rows.any fun r => Row.id r == Row.id row) = false := by
    rw [List.any_eq_false]
    intro r hr heq
    exact hfresh (beq_iff_eq.mp heq ▸ List.mem_map_of_mem hr)
  rw [insertRow, hnone, if_neg (by simp)]

/-- The statement adds what the columns keep of a row, to the whole
database as to the organisation's part, where alone it shows. -/
structure Adds (org : Uuid) (db : Database) {α : Type} (w : Database → Option Database)
    (kept : Option α) (add : α → Database → Database) : Prop where
  whole : w db = kept.map fun a => add a db
  alone : w (db.ownedBy org) = kept.map fun a => add a (db.ownedBy org)
  own : ∀ a ∈ kept, (add a db).ownedBy org = add a (db.ownedBy org)
  others : ∀ a ∈ kept, ∀ other, other ≠ org → (add a db).ownedBy other = db.ownedBy other
  sound : ∀ a ∈ kept, (add a db).Consistent

section Commits

variable {α : Type} {w : Database → Option Database} {kept : Option α}
  {add : α → Database → Database}

theorem Adds.isolated (h : Adds org db w kept add) (hdb : db.Consistent) :
    tenancy.Isolated org (commitRows w) db := by
  have hstate : ∀ db', orUncaught (w db) = .ok db' → ∃ a ∈ kept, db' = add a db := by
    intro db' hok
    rw [h.whole] at hok
    cases hkept : kept with
    | none => rw [hkept] at hok; exact nomatch hok
    | some a =>
      rw [hkept] at hok
      exact ⟨a, rfl, (Except.ok.inj hok).symm⟩
  refine isolated_commit hdb ?_ ?_ ?_
  · show (orUncaught (w db)).map (Database.ownedBy org) = orUncaught (w (db.ownedBy org))
    rw [h.whole, h.alone]
    cases hkept : kept with
    | none => rfl
    | some a => exact congrArg Except.ok (h.own a hkept)
  · intro db' hok
    obtain ⟨a, ha, rfl⟩ := hstate db' hok
    exact h.others a ha
  · intro db' hok
    obtain ⟨a, ha, rfl⟩ := hstate db' hok
    exact h.sound a ha

/-- A commit, and what comes after it. -/
theorem Adds.isolated_bind (h : Adds org db w kept add) (hdb : db.Consistent) {β : Type}
    {f : Unit → Handler β} (hnext : ∀ a ∈ kept, tenancy.Isolated org (f ()) (add a db)) :
    tenancy.Isolated org (commitRows w >>= f) db := by
  refine (h.isolated hdb).bind fun _ hok => ?_
  cases hkept : kept with
  | none =>
    have herror : orUncaught (w db) = .error .uncaught := by rw [h.whole, hkept]; rfl
    rw [commitRows, Action.commit_error herror] at hok
    exact nomatch hok
  | some a =>
    have hadd : orUncaught (w db) = .ok (add a db) := by rw [h.whole, hkept]; rfl
    rw [commitRows, Action.commit_ok hadd]
    exact hnext a hkept

end Commits

theorem insertTarget_of_fresh {t : Target} (hfresh : t.id ∉ db.targets.map (·.id)) :
    db.insertTarget t = t.store.map fun kept => db.addTarget kept := by
  rw [Database.insertTarget, insertRow_of_fresh hfresh, Option.map_map]
  rfl

theorem insertScopeRule_of_fresh {r : ScopeRule} (hfresh : r.id ∉ db.scopeRules.map (·.id)) :
    db.insertScopeRule r = r.store.map fun kept => db.addScopeRule kept := by
  rw [Database.insertScopeRule, insertRow_of_fresh hfresh, Option.map_map]
  rfl

theorem insertScan_of_fresh {s : Scan} (hfresh : s.id ∉ db.scans.map (·.id)) :
    db.insertScan s = s.store.map fun kept => db.addScan kept := by
  rw [Database.insertScan, insertRow_of_fresh hfresh, Option.map_map]
  rfl

/-- The flush of the credential, if there is one, and then the persona. -/
theorem insertPersona_of_fresh {c : Option Credential} {p : Persona}
    (hnew : ∀ new ∈ c, new.id ∉ db.credentials.map (·.id))
    (hfresh : p.id ∉ db.personas.map (·.id)) :
    (do
      let db ← match c with
        | some new => db.insertCredential new
        | none => some db
      db.insertPersona p) = p.store.map fun kept => db.addPersona c kept := by
  cases c with
  | none =>
    show db.insertPersona p = _
    rw [Database.insertPersona, insertRow_of_fresh hfresh, Option.map_map]
    simp [Database.addPersona, Function.comp_def, Row.store]
  | some new =>
    show (db.insertCredential new).bind (·.insertPersona p) = _
    rw [Database.insertCredential, insertRow_of_fresh (hnew new rfl)]
    show Database.insertPersona p { db with credentials := db.credentials ++ [new] } = _
    rw [Database.insertPersona, insertRow_of_fresh hfresh, Option.map_map]
    rfl

theorem not_mem_ownedBy {α : Type} {key : α → Uuid} {rows : List α} {q : α → Bool} {id : Uuid}
    (h : id ∉ rows.map key) : id ∉ (rows.filter q).map key := by
  intro hmem
  obtain ⟨row, hrow, rfl⟩ := List.mem_map.mp hmem
  exact h (List.mem_map_of_mem (List.mem_filter.mp hrow).1)

theorem adds_insertTarget (hdb : db.Consistent) {t : Target}
    (hfresh : t.id ∉ db.targets.map (·.id)) (horg : t.organizationId = org)
    (hrow : org ∈ db.organizations.map (·.id)) :
    Adds org db (fun db => db.insertTarget t) t.store Database.addTarget := by
  have hkeeps : ∀ kept ∈ t.store, kept.id ∉ db.targets.map (·.id) ∧ kept.organizationId = org := by
    intro kept hkept
    obtain ⟨hid, horg'⟩ := Target.store_keeps hkept
    exact ⟨hid ▸ hfresh, horg'.trans horg⟩
  refine ⟨insertTarget_of_fresh hfresh, insertTarget_of_fresh (not_mem_ownedBy hfresh), ?_, ?_, ?_⟩
  · intro kept hkept
    rw [Database.ownedBy_addTarget hdb (hkeeps kept hkept).1, if_pos (hkeeps kept hkept).2]
  · intro kept hkept other hne
    rw [Database.ownedBy_addTarget hdb (hkeeps kept hkept).1, if_neg]
    exact fun h => hne (h.symm.trans (hkeeps kept hkept).2)
  · intro kept hkept
    exact hdb.addTarget (hkeeps kept hkept).1 ((hkeeps kept hkept).2 ▸ hrow)

theorem adds_insertScopeRule (hdb : db.Consistent) {r : ScopeRule}
    (hfresh : r.id ∉ db.scopeRules.map (·.id)) (hown : db.ownsTarget org r.targetId = true) :
    Adds org db (fun db => db.insertScopeRule r) r.store Database.addScopeRule := by
  refine ⟨insertScopeRule_of_fresh hfresh, insertScopeRule_of_fresh (not_mem_ownedBy hfresh), ?_, ?_, ?_⟩
  · intro kept hkept
    rw [Database.ownedBy_addScopeRule, (ScopeRule.store_keeps hkept).2, if_pos hown]
  · intro kept hkept other hne
    rw [Database.ownedBy_addScopeRule, (ScopeRule.store_keeps hkept).2,
      hdb.owner_unique hown hne, if_neg (by simp)]
  · intro kept hkept
    obtain ⟨hid, htarget⟩ := ScopeRule.store_keeps hkept
    exact hdb.addScopeRule (hid ▸ hfresh) (htarget ▸ Database.mem_of_ownsTarget hown)

theorem adds_insertScan (hdb : db.Consistent) {s : Scan} (hfresh : s.id ∉ db.scans.map (·.id))
    (hown : db.ownsTarget org s.targetId = true) :
    Adds org db (fun db => db.insertScan s) s.store Database.addScan := by
  refine ⟨insertScan_of_fresh hfresh, insertScan_of_fresh (not_mem_ownedBy hfresh), ?_, ?_, ?_⟩
  · intro kept hkept
    obtain ⟨hid, htarget⟩ := Scan.store_keeps hkept
    rw [Database.ownedBy_addScan hdb (hid ▸ hfresh), htarget, if_pos hown]
  · intro kept hkept other hne
    obtain ⟨hid, htarget⟩ := Scan.store_keeps hkept
    rw [Database.ownedBy_addScan hdb (hid ▸ hfresh), htarget, hdb.owner_unique hown hne,
      if_neg (by simp)]
  · intro kept hkept
    obtain ⟨hid, htarget⟩ := Scan.store_keeps hkept
    exact hdb.addScan (hid ▸ hfresh) (htarget ▸ Database.mem_of_ownsTarget hown)

/-- The credential, if there is one, and the persona, in one commit. -/
theorem adds_insertPersona (hdb : db.Consistent) {c : Option Credential} {p : Persona}
    (hcredential : p.credentialId = c.map (·.id))
    (hnew : ∀ new ∈ c, new.id ∉ db.credentials.map (·.id))
    (hfresh : p.id ∉ db.personas.map (·.id)) (hown : db.ownsTarget org p.targetId = true) :
    Adds org db
      (fun db => do
        let db ← match c with
          | some new => db.insertCredential new
          | none => some db
        db.insertPersona p)
      p.store (Database.addPersona c) := by
  have hkeeps : ∀ kept ∈ p.store, kept.id ∉ db.personas.map (·.id) ∧
      kept.targetId = p.targetId ∧ kept.credentialId = c.map (·.id) := by
    intro kept hkept
    obtain ⟨hid, htarget, hcred⟩ := Persona.store_keeps hkept
    exact ⟨hid ▸ hfresh, htarget, hcred.trans hcredential⟩
  refine ⟨insertPersona_of_fresh hnew hfresh, insertPersona_of_fresh
    (fun new hmem => not_mem_ownedBy (hnew new hmem)) (not_mem_ownedBy hfresh), ?_, ?_, ?_⟩
  · intro kept hkept
    obtain ⟨-, htarget, hcred⟩ := hkeeps kept hkept
    rw [Database.ownedBy_addPersona hdb hcred hnew, htarget, if_pos hown]
  · intro kept hkept other hne
    obtain ⟨-, htarget, hcred⟩ := hkeeps kept hkept
    rw [Database.ownedBy_addPersona hdb hcred hnew, htarget, hdb.owner_unique hown hne,
      if_neg (by simp)]
  · intro kept hkept
    obtain ⟨hid, htarget, hcred⟩ := hkeeps kept hkept
    exact hdb.addPersona hcred hnew hid (htarget ▸ Database.mem_of_ownsTarget hown)

/-- A change to a target that keeps its keys. -/
theorem adds_updateTarget (hdb : db.Consistent) {change : Target → Target}
    (hid : ∀ t, (change t).id = t.id) (horg : ∀ t, (change t).organizationId = t.organizationId)
    {id : Uuid} (hown : db.ownsTarget org id = true) :
    Adds org db (fun db => some (db.updateTarget id change)) (some ())
      (fun _ db => db.updateTarget id change) := by
  refine ⟨rfl, rfl, ?_, ?_, ?_⟩
  · exact fun _ _ => Database.ownedBy_updateTarget hid horg hdb id org
  · intro _ _ other hne
    rw [Database.ownedBy_updateTarget hid horg hdb, Database.updateTarget_of_absent]
    intro t ht htid
    obtain ⟨hmem, hother⟩ := List.mem_filter.mp ht
    exact hne (beq_iff_eq.mp hother ▸ hdb.organization_eq hown hmem htid)
  · exact fun _ _ => hdb.updateTarget hid horg id

/-- An `UPDATE` of an own target, and what comes after it. -/
theorem isolated_update_bind (hdb : db.Consistent) {id : Uuid}
    (hown : db.ownsTarget org id = true) {change : Target → Target} {β : Type}
    {f : Unit → Handler β} (hid : ∀ t, (change t).id = t.id)
    (horg : ∀ t, (change t).organizationId = t.organizationId)
    (hnext : (db.updateTarget id change).Consistent →
      (db.updateTarget id change).ownsTarget org id = true →
      tenancy.Isolated org (f ()) (db.updateTarget id change)) :
    tenancy.Isolated org ((commitRows fun db => some (db.updateTarget id change)) >>= f) db :=
  (adds_updateTarget hdb hid horg hown).isolated_bind hdb fun _ _ =>
    hnext (hdb.updateTarget hid horg id)
      ((Database.ownsTarget_updateTarget hid horg id org id).trans hown)

/-- The refresh of a row that was just added finds it in the organisation's
part. -/
theorem rowById_added {α : Type} [Row α] {rows : List α} {kept : α} {id : Uuid} {q : α → Bool}
    (hid : Row.id kept = id) (hfresh : id ∉ rows.map Row.id) (hq : q kept = true) :
    rowById id (rows ++ [kept]) = rowById id ((rows ++ [kept]).filter q) := by
  refine (find?_of_owned fun r hr hkey => ?_).symm
  obtain rfl := eq_of_mem_concat (hid ▸ hfresh) hr ((beq_iff_eq.mp hkey).trans hid.symm)
  exact hq

/-! ## Endpoints of an organisation -/

theorem isolated_createTarget (hdb : db.Consistent) (hfresh : env.ids.Fresh db)
    {caller : Organization} (hcaller : caller ∈ db.organizations) (payload : TargetCreate) :
    tenancy.Isolated caller.id (createTarget env caller payload) db := by
  have hrow : caller.id ∈ db.organizations.map (·.id) := List.mem_map_of_mem hcaller
  refine (adds_insertTarget hdb hfresh.target (by rfl) hrow).isolated_bind hdb fun kept hkept => ?_
  obtain ⟨hid, horg⟩ := Target.store_keeps hkept
  have hnew : kept.id ∉ db.targets.map (·.id) := hid ▸ hfresh.target
  have hsound : (db.addTarget kept).Consistent := hdb.addTarget hnew (horg ▸ hrow)
  refine isolated_query_bind hsound ?_ fun stored _ => isolated_pure hsound _
  exact congrArg orUncaught (rowById_added hid hfresh.target (beq_iff_eq.mpr horg))

theorem isolated_listTargets (hdb : db.Consistent) (caller : Organization) :
    tenancy.Isolated caller.id (listTargets caller) db :=
  isolated_query_bind hdb (congrArg Except.ok Database.targetsOf_ownedBy.symm)
    fun _ _ => isolated_pure hdb _

theorem mem_of_scalarOneOrNone {α : Type} {rows : List α} {row : α}
    (h : scalarOneOrNone rows = .ok (some row)) : row ∈ rows := by
  unfold scalarOneOrNone at h
  split at h
  · exact nomatch h
  · obtain rfl := Option.some.inj (Except.ok.inj h)
    exact List.mem_singleton_self _
  · exact nomatch h

/-- The scan that is found is the organisation's. -/
theorem ownedScan_ok {caller : Organization} {scanId : Str} {scan : Scan}
    (h : (ownedScan env caller scanId db).value = .ok scan) :
    db.ownsScan caller.id scan.id = true := by
  obtain ⟨id, -, hid⟩ := bind_eq_ok.mp h
  obtain ⟨found, hfound, hscan⟩ := bind_eq_ok.mp hid
  cases found with
  | none => exact nomatch hscan
  | some scan' =>
    obtain rfl : scan' = scan := Except.ok.inj hscan
    exact Database.mem_scansJoinedTo (mem_of_scalarOneOrNone hfound)

theorem isolated_ownedScan (hdb : db.Consistent) (caller : Organization) (scanId : Str) :
    tenancy.Isolated caller.id (ownedScan env caller scanId) db := by
  refine isolated_query hdb ?_
  have hjoin : ∀ id, (tenancy.view caller.id db).scansJoinedTo caller.id id =
      db.scansJoinedTo caller.id id := fun _ => Database.scansJoinedTo_ownedBy
  simp only [hjoin]

theorem isolated_getScan (hdb : db.Consistent) (caller : Organization) (scanId : Str) :
    tenancy.Isolated caller.id (getScan env caller scanId) db :=
  (isolated_ownedScan hdb caller scanId).bind fun _ hscan =>
    isolated_query_bind hdb
      (congrArg Except.ok (Database.withPhases_ownedBy (ownedScan_ok hscan)).symm)
      fun _ _ => isolated_pure hdb _

theorem isolated_listFindings (hdb : db.Consistent) (caller : Organization) (scanId : Str) :
    tenancy.Isolated caller.id (listFindings env caller scanId) db :=
  (isolated_ownedScan hdb caller scanId).bind fun _ hscan =>
    isolated_query_bind hdb
      (congrArg Except.ok (Database.findingsOf_ownedBy (ownedScan_ok hscan)).symm)
      fun _ _ => isolated_pure hdb _

/-! ## Endpoints of a target -/

/-- A credential is made under the fresh id. -/
theorem sealCredential_id {caller : Organization} {masterKeys : List Bytes}
    {payload : Option CredentialCreate} {credential : Option Credential}
    (h : payload.mapM (sealCredential env caller masterKeys) = .ok credential) :
    ∀ new ∈ credential, new.id = env.ids.credential := by
  intro new hnew
  obtain rfl := Option.mem_def.mp hnew
  cases payload with
  | none => exact nomatch (Except.ok.inj h : none = some new)
  | some p =>
    obtain ⟨sealed, hseal, hsome⟩ := map_eq_ok.mp h
    obtain rfl := Option.some.inj hsome
    obtain ⟨dataKey, -, hrest⟩ := bind_eq_ok.mp hseal
    obtain ⟨ciphertext, -, hcredential⟩ := bind_eq_ok.mp hrest
    obtain rfl := Except.ok.inj hcredential
    rfl

theorem isolated_dispatchScan (hdb : db.Consistent) (scanId : Str) :
    tenancy.Isolated org (dispatchScan env scanId) db := by
  unfold dispatchScan
  split
  · exact (isolated_send hdb scanId).bind fun _ _ => isolated_pure hdb _
  · exact isolated_pure hdb _

/-- Dispatching answers, sends the id or nothing, and stays off the database. -/
theorem dispatchScan_eq (env : Environment) (scanId : Str) (db : Database) :
    dispatchScan env scanId db =
      ⟨.ok env.brokerTakes, db, if env.brokerTakes then [scanId] else []⟩ := by
  unfold dispatchScan
  split
  · next htakes =>
    rw [htakes]
    rfl
  · next htakes =>
    rw [Bool.eq_false_iff.mpr htakes]
    rfl

section OwnTarget

variable (hdb : db.Consistent) (hfresh : env.ids.Fresh db)
  (hown : db.ownsTarget org target.id = true)

include hdb

theorem isolated_getTarget : tenancy.Isolated org (getTarget target) db := isolated_pure hdb _

include hown

theorem isolated_createOwnershipChallenge (payload : OwnershipChallengeRequest) :
    tenancy.Isolated org (createOwnershipChallenge env target payload) db :=
  isolated_update_bind hdb hown (fun _ => by rfl) (fun _ => by rfl) fun hsound _ =>
    isolated_pure hsound _

theorem isolated_runOwnershipVerification :
    tenancy.Isolated org (runOwnershipVerification env target) db := by
  unfold runOwnershipVerification
  split
  · refine isolated_query_bind hdb rfl fun result _ => ?_
    exact isolated_update_bind hdb hown (fun _ => by rfl) (fun _ => by rfl) fun hsound _ =>
      isolated_pure hsound _
  · exact isolated_ofExcept hdb _

theorem isolated_acceptAuthorization (payload : AuthorizationAccept) :
    tenancy.Isolated org (acceptAuthorization env target payload) db := by
  unfold acceptAuthorization
  split
  · refine isolated_update_bind hdb hown (fun _ => by rfl) (fun _ => by rfl) fun hsound hstill => ?_
    refine isolated_query_bind hsound ?_ fun stored _ => isolated_pure hsound _
    refine congrArg orUncaught (find?_of_owned fun t ht hkey => ?_).symm
    exact beq_iff_eq.mpr (hsound.organization_eq hstill ht (beq_iff_eq.mp hkey))
  · exact isolated_ofExcept hdb _

theorem isolated_listScopeRules : tenancy.Isolated org (listScopeRules target) db :=
  isolated_query_bind hdb (congrArg Except.ok (Database.scopeRulesOf_ownedBy hown).symm)
    fun _ _ => isolated_pure hdb _

theorem isolated_listPersonas : tenancy.Isolated org (listPersonas target) db :=
  isolated_query_bind hdb (congrArg Except.ok (Database.personasOf_ownedBy hown).symm)
    fun _ _ => isolated_pure hdb _

theorem isolated_listScans : tenancy.Isolated org (listScans target) db :=
  isolated_query_bind hdb (congrArg Except.ok (Database.scansOf_ownedBy hown).symm)
    fun _ _ => isolated_pure hdb _

include hfresh

theorem isolated_createScopeRule (payload : ScopeRuleCreate) :
    tenancy.Isolated org (createScopeRule env target payload) db := by
  refine (adds_insertScopeRule hdb hfresh.scopeRule hown).isolated_bind hdb fun kept hkept => ?_
  obtain ⟨hid, htarget⟩ := ScopeRule.store_keeps hkept
  have hnew : kept.id ∉ db.scopeRules.map (·.id) := hid ▸ hfresh.scopeRule
  have hsound : (db.addScopeRule kept).Consistent :=
    hdb.addScopeRule hnew (htarget ▸ Database.mem_of_ownsTarget hown)
  refine isolated_query_bind hsound ?_ fun stored _ => isolated_pure hsound _
  have hkept : (db.addScopeRule kept).ownsTarget org kept.targetId = true := htarget ▸ hown
  exact congrArg orUncaught (rowById_added hid hfresh.scopeRule hkept)

theorem isolated_createPersona (caller : Organization) (masterKeys : List Bytes)
    (payload : PersonaCreate) :
    tenancy.Isolated org (createPersona env caller target masterKeys payload) db := by
  refine isolated_query_bind hdb rfl fun credential hsealed => ?_
  have hcredential : ∀ new ∈ credential, new.id ∉ db.credentials.map (·.id) :=
    fun new hnew => sealCredential_id hsealed new hnew ▸ hfresh.credential
  refine (adds_insertPersona hdb rfl hcredential hfresh.persona hown).isolated_bind hdb
    fun kept hkept => ?_
  obtain ⟨hid, htarget, hkeys⟩ := Persona.store_keeps hkept
  have hnew : kept.id ∉ db.personas.map (·.id) := hid ▸ hfresh.persona
  have hsound : (db.addPersona credential kept).Consistent :=
    hdb.addPersona hkeys hcredential hnew (htarget ▸ Database.mem_of_ownsTarget hown)
  refine isolated_query_bind hsound ?_ fun stored _ => isolated_pure hsound _
  have hkept : (db.addPersona credential kept).ownsTarget org kept.targetId = true :=
    htarget ▸ hown
  exact congrArg orUncaught (rowById_added hid hfresh.persona hkept)

theorem isolated_createScan (payload : ScanCreate) :
    tenancy.Isolated org (createScan env target payload) db := by
  unfold createScan
  split
  · refine (adds_insertScan hdb hfresh.scan hown).isolated_bind hdb fun kept hkept => ?_
    obtain ⟨hid, htarget⟩ := Scan.store_keeps hkept
    have hnew : kept.id ∉ db.scans.map (·.id) := hid ▸ hfresh.scan
    have hsound : (db.addScan kept).Consistent :=
      hdb.addScan hnew (htarget ▸ Database.mem_of_ownsTarget hown)
    refine isolated_query_bind hsound ?_ fun found _ => ?_
    · refine congrArg scalarOne (Database.scansById_ownedBy fun s hs hkey => ?_).symm
      obtain rfl := eq_of_mem_concat hnew hs (hkey.trans hid.symm)
      rw [htarget]
      exact hown
    · refine (isolated_dispatchScan hsound _).bind fun _ _ => ?_
      rw [dispatchScan_eq]
      exact isolated_pure hsound _
  · exact isolated_ofExcept hdb _

end OwnTarget

/-! ## Dependencies -/

theorem isolated_getCurrentOrg (hdb : db.Consistent) {xOrgId : Option Str}
    (h : xOrgId.bind uuidOfText = some org) : tenancy.Isolated org (getCurrentOrg xOrgId) db := by
  obtain ⟨text, rfl, htext⟩ := Option.bind_eq_some_iff.mp h
  refine isolated_query hdb ?_
  have hrow : (tenancy.view org db).organization org = db.organization org :=
    Database.organization_ownedBy
  split
  · rfl
  · next text' hfilter =>
    obtain rfl := Option.some.inj (Option.filter_eq_some_iff.mp hfilter).1
    simp only [htext, hrow]

/-- The caller is the organisation the header names. -/
theorem getCurrentOrg_ok {xOrgId : Option Str} (h : xOrgId.bind uuidOfText = some org)
    {caller : Organization} (hok : (getCurrentOrg xOrgId db).value = .ok caller) :
    caller.id = org ∧ caller ∈ db.organizations := by
  obtain ⟨text, rfl, htext⟩ := Option.bind_eq_some_iff.mp h
  dsimp only [getCurrentOrg, Action.query] at hok
  split at hok
  · exact nomatch hok
  · next text' hfilter =>
    obtain rfl := Option.some.inj (Option.filter_eq_some_iff.mp hfilter).1
    simp only [htext] at hok
    split at hok
    · next found hfound =>
      obtain rfl := Except.ok.inj hok
      exact ⟨by simpa using List.find?_some hfound, List.mem_of_find?_eq_some hfound⟩
    · exact nomatch hok

/-- A target of another organisation is answered like one that is not there. -/
theorem isolated_getOwnedTarget (hdb : db.Consistent) (caller : Organization) (targetId : Uuid) :
    tenancy.Isolated caller.id (getOwnedTarget caller targetId) db := by
  refine isolated_query hdb ?_
  show ownedOrNotFound caller (db.targets.find? (·.id == targetId)) = ownedOrNotFound caller
    ((db.targets.filter (·.organizationId == caller.id)).find? (·.id == targetId))
  cases hfound : db.targets.find? (·.id == targetId) with
  | none =>
    rw [find?_of_foreign]
    intro t ht hid
    exact absurd hid (List.find?_eq_none.mp hfound t ht)
  | some t =>
    have hmem : t ∈ db.targets := List.mem_of_find?_eq_some hfound
    have hid : t.id = targetId := by simpa using List.find?_some hfound
    have hsame : ∀ t' ∈ db.targets, (t'.id == targetId) = true → t' = t := fun t' ht' hid' =>
      List.inj_on_of_nodup_map hdb.targets_nodup ht' hmem ((beq_iff_eq.mp hid').trans hid.symm)
    by_cases horg : t.organizationId = caller.id
    · rw [find?_of_owned, hfound]
      intro t' ht' hid'
      rw [hsame t' ht' hid']
      exact beq_iff_eq.mpr horg
    · rw [find?_of_foreign]
      · exact if_neg horg
      · intro t' ht' hid'
        rw [hsame t' ht' hid']
        exact beq_eq_false_iff_ne.mpr horg

theorem getOwnedTarget_ok {caller : Organization} {targetId : Uuid}
    (hok : (getOwnedTarget caller targetId db).value = .ok target) :
    db.ownsTarget caller.id target.id = true := by
  dsimp only [getOwnedTarget, Action.query] at hok
  cases hfound : rowById targetId db.targets with
  | none => rw [hfound] at hok; exact nomatch hok
  | some t =>
    rw [hfound, ownedOrNotFound] at hok
    split at hok
    · next horg =>
      obtain rfl := Except.ok.inj hok
      exact Database.ownsTarget_iff.mpr ⟨t, List.mem_of_find?_eq_some hfound, rfl, horg⟩
    · exact nomatch hok

theorem isolated_solveTarget (hdb : db.Consistent) (caller : Organization) (targetId : PathId) :
    tenancy.Isolated caller.id (solveTarget caller targetId) db := by
  cases targetId with
  | error errors => exact isolated_pure hdb _
  | ok id => exact (isolated_getOwnedTarget hdb caller id).bind fun _ _ => isolated_pure hdb _

theorem solveTarget_state (caller : Organization) (targetId : PathId) :
    (solveTarget caller targetId db).state = db := by
  cases targetId with
  | error errors => rfl
  | ok id =>
    rw [solveTarget]
    cases hv : (getOwnedTarget caller id db).value with
    | error e => rw [Action.bind_error hv]; rfl
    | ok t => rw [Action.bind_ok hv]; rfl

theorem solveTarget_ok {caller : Organization} {targetId : PathId}
    (hok : (solveTarget caller targetId db).value = .ok (.ok target)) :
    db.ownsTarget caller.id target.id = true := by
  cases targetId with
  | error errors => exact nomatch (Except.ok.inj hok : Except.error errors = Except.ok target)
  | ok id =>
    rw [solveTarget] at hok
    cases hv : (getOwnedTarget caller id db).value with
    | error e => rw [Action.bind_error hv] at hok; exact nomatch hok
    | ok t =>
      rw [Action.bind_ok hv] at hok
      obtain rfl : t = target := Except.ok.inj (Except.ok.inj hok)
      exact getOwnedTarget_ok hv

/-- A dependency that was solved is handed on. -/
theorem validated_ok {α β : Type} {x : Except ValidationErrors α} {payload : Body β} {a : α} {b : β}
    (h : validated x payload = .ok (a, b)) : x = .ok a := by
  cases x with
  | error errors => cases payload <;> exact nomatch h
  | ok a' =>
    cases payload with
    | valid b' => exact congrArg _ (Prod.mk.inj (Except.ok.inj h)).1
    | unreadable why => exact nomatch h
    | invalid errors => exact nomatch h

/-! ## Routes -/

theorem isolated_orgRoute (hdb : db.Consistent) {xOrgId : Option Str}
    (h : xOrgId.bind uuidOfText = some org) {α : Type} (payload : Body α)
    {endpoint : Organization → α → Handler Reply}
    (hendpoint : ∀ caller ∈ db.organizations, ∀ a,
      tenancy.Isolated caller.id (endpoint caller a) db) :
    tenancy.Isolated org (orgRoute xOrgId payload endpoint) db := by
  refine isolated_query_bind hdb rfl fun _ _ => ?_
  refine (isolated_getCurrentOrg hdb h).bind fun caller hcaller => ?_
  obtain ⟨rfl, hmem⟩ := getCurrentOrg_ok h hcaller
  exact isolated_query_bind hdb rfl fun p _ => hendpoint caller hmem p.2

theorem isolated_targetRoute (hdb : db.Consistent) {xOrgId : Option Str}
    (h : xOrgId.bind uuidOfText = some org) (targetId : PathId) {α γ : Type}
    (extra : Except Failure γ) (payload : Body α)
    {endpoint : Organization → Target → γ → α → Handler Reply}
    (hendpoint : ∀ caller target, db.ownsTarget org target.id = true → ∀ c a,
      tenancy.Isolated org (endpoint caller target c a) db) :
    tenancy.Isolated org (targetRoute xOrgId targetId extra payload endpoint) db := by
  refine isolated_query_bind hdb rfl fun _ _ => ?_
  refine (isolated_getCurrentOrg hdb h).bind fun caller hcaller => ?_
  obtain ⟨rfl, -⟩ := getCurrentOrg_ok h hcaller
  refine (isolated_solveTarget hdb caller targetId).bind fun solved hsolved => ?_
  rw [solveTarget_state]
  refine isolated_query_bind hdb rfl fun c _ => ?_
  refine isolated_query_bind hdb rfl fun p hp => ?_
  obtain rfl := validated_ok (a := p.1) (b := p.2) hp
  exact hendpoint caller p.1 (solveTarget_ok hsolved) c p.2

/-- **Isolation.** On a consistent database, with fresh ids, every request
of an organisation is isolated. -/
theorem isolated_handler (hdb : db.Consistent) (hfresh : env.ids.Fresh db) {request : Request}
    (h : request.ClaimsOrg org) : tenancy.Isolated org (request.handler env) db := by
  obtain ⟨xOrgId, route⟩ := request
  cases route <;> dsimp only [Request.handler, Request.routed]
  case createTarget payload =>
    exact isolated_orgRoute hdb h _ fun _ hcaller a => isolated_createTarget hdb hfresh hcaller a
  case listTargets => exact isolated_orgRoute hdb h _ fun c _ _ => isolated_listTargets hdb c
  case getTarget targetId =>
    exact isolated_targetRoute hdb h _ _ _ fun _ _ _ _ _ => isolated_getTarget hdb
  case createOwnershipChallenge targetId payload =>
    exact isolated_targetRoute hdb h _ _ _ fun _ _ hown _ a =>
      isolated_createOwnershipChallenge hdb hown a
  case runOwnershipVerification targetId =>
    exact isolated_targetRoute hdb h _ _ _ fun _ _ hown _ _ =>
      isolated_runOwnershipVerification hdb hown
  case acceptAuthorization targetId payload =>
    exact isolated_targetRoute hdb h _ _ _ fun _ _ hown _ a =>
      isolated_acceptAuthorization hdb hown a
  case createScopeRule targetId payload =>
    exact isolated_targetRoute hdb h _ _ _ fun _ _ hown _ a =>
      isolated_createScopeRule hdb hfresh hown a
  case listScopeRules targetId =>
    exact isolated_targetRoute hdb h _ _ _ fun _ _ hown _ _ => isolated_listScopeRules hdb hown
  case createPersona targetId payload =>
    exact isolated_targetRoute hdb h _ _ _ fun caller _ hown masterKeys a =>
      isolated_createPersona hdb hfresh hown caller masterKeys a
  case listPersonas targetId =>
    exact isolated_targetRoute hdb h _ _ _ fun _ _ hown _ _ => isolated_listPersonas hdb hown
  case createScan targetId payload =>
    exact isolated_targetRoute hdb h _ _ _ fun _ _ hown _ a =>
      isolated_createScan hdb hfresh hown a
  case listScans targetId =>
    exact isolated_targetRoute hdb h _ _ _ fun _ _ hown _ _ => isolated_listScans hdb hown
  case getScan scanId =>
    exact isolated_orgRoute hdb h _ fun caller _ _ => isolated_getScan hdb caller scanId
  case listFindings scanId =>
    exact isolated_orgRoute hdb h _ fun caller _ _ => isolated_listFindings hdb caller scanId

/-- **Tenant isolation.** Two databases that agree on everything an
organisation owns answer its request alike and agree on everything it owns
afterwards; in neither is anything of another organisation touched. -/
theorem tenant_isolation {db₁ db₂ : Database} (h₁ : db₁.Consistent) (h₂ : db₂.Consistent)
    (hfresh₁ : env.ids.Fresh db₁) (hfresh₂ : env.ids.Fresh db₂)
    (hagree : db₁.ownedBy org = db₂.ownedBy org) {request : Request}
    (hclaims : request.ClaimsOrg org) :
    (serve env request db₁).response = (serve env request db₂).response ∧
      (serve env request db₁).dispatched = (serve env request db₂).dispatched ∧
      (serve env request db₁).db.ownedBy org = (serve env request db₂).db.ownedBy org ∧
      ∀ other, other ≠ org →
        (serve env request db₁).db.ownedBy other = db₁.ownedBy other ∧
          (serve env request db₂).db.ownedBy other = db₂.ownedBy other := by
  have hiso₁ := isolated_handler h₁ hfresh₁ hclaims
  have hiso₂ := isolated_handler h₂ hfresh₂ hclaims
  obtain ⟨hvalue, hsent, hown⟩ := hiso₁.agree hiso₂ hagree
  exact ⟨congrArg respond hvalue, hsent, hown, fun other hne =>
    ⟨hiso₁.others other hne, hiso₂.others other hne⟩⟩

/-- An environment with the ids 11 to 15 and no crypto. -/
def bareEnvironment : Environment where
  kmsMasterKey := []
  fernet := ⟨fun _ => false, fun _ _ _ => [], fun _ _ => none⟩
  nonce := []
  ids := ⟨11, 12, 13, 14, 15⟩
  tokenBytes := 0
  now := 0
  verifyOwnership _ _ _ := .ok ⟨false, []⟩
  bindUuid := uuidOfText

def acmeTarget : Target where
  id := 3
  organizationId := 1
  rootDomain := "acme.test".toList
  displayName := "Acme".toList

def rivalTarget : Target where
  id := 4
  organizationId := 2
  rootDomain := "rival.test".toList
  displayName := "Rival".toList

/-- The organisations 1 and 2, with a target of the first. -/
def oneTenant : Database where
  organizations := [⟨1, []⟩, ⟨2, []⟩]
  targets := [acmeTarget]

/-- The second organisation has a target with a scan, too. -/
def twoTenants : Database where
  organizations := [⟨1, []⟩, ⟨2, []⟩]
  targets := [acmeTarget, rivalTarget]
  scans := [{ id := 5, targetId := 4 }]

def acmeHeader : Str := "00000000-0000-0000-0000-000000000001".toList

def rivalScan : Str := "00000000-0000-0000-0000-000000000005".toList

/-- The first organisation asks for the scan of the second. -/
theorem rivalScan_isolated :
    (serve bareEnvironment ⟨some acmeHeader, .getScan rivalScan⟩ oneTenant).response =
      (serve bareEnvironment ⟨some acmeHeader, .getScan rivalScan⟩ twoTenants).response := by
  have hagree : oneTenant.ownedBy 1 = twoTenants.ownedBy 1 := by decide +kernel
  refine (tenant_isolation ?_ ?_ ?_ ?_ hagree (by unfold Request.ClaimsOrg; decide +kernel)).1 <;>
    constructor <;> decide +kernel

/-- It is told what it would be told if there were no such scan. -/
example :
    (serve bareEnvironment ⟨some acmeHeader, .getScan rivalScan⟩ twoTenants).response =
      .detail 404 "Scan not found.".toList := by decide +kernel

/-! ## Runs -/

/-- A run of requests, each with what it meets outside and with ids that
are fresh when it is served. -/
def FreshRun : Database → List (Uuid × Environment × Request) → Prop
  | _, [] => True
  | db, (org, env, request) :: rest =>
      request.ClaimsOrg org ∧ env.ids.Fresh db ∧ FreshRun (request.handler env db).state rest

/-- The requests as actions under the names of their organisations. -/
def handlers (requests : List (Uuid × Environment × Request)) : List (Uuid × Handler Reply) :=
  requests.map fun r => (r.1, r.2.2.handler r.2.1)

theorem runIsolated {requests : List (Uuid × Environment × Request)} (hdb : db.Consistent)
    (h : FreshRun db requests) : tenancy.RunIsolated db (handlers requests) := by
  induction requests generalizing db with
  | nil => trivial
  | cons r rest ih =>
    obtain ⟨who, env, request⟩ := r
    obtain ⟨hclaims, hfresh, hrest⟩ := h
    have hiso := isolated_handler hdb hfresh hclaims
    exact ⟨hiso, ih hiso.sound hrest⟩

/-- **Every organisation on its own.** However the requests of all
organisations follow each other, one gets the replies, and is left with
the rows, that its own requests on its own rows alone would give it. -/
theorem organization_served_alone {requests : List (Uuid × Environment × Request)}
    (hdb : db.Consistent) (h : FreshRun db requests) (org : Uuid) :
    (Tenants.serve db (handlers requests)).1.filter (fun reply => reply.1 = org) =
        (Tenants.serve (db.ownedBy org)
          ((handlers requests).filter fun request => request.1 = org)).1 ∧
      (Tenants.serve db (handlers requests)).2.ownedBy org =
        (Tenants.serve (db.ownedBy org)
          ((handlers requests).filter fun request => request.1 = org)).2 :=
  served_alone (runIsolated hdb h) org

end Sentinel.Api
