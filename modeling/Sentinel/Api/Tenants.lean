/-
Sentinel.Api.Tenants — what of the database an organisation owns.

Ownership runs along the foreign keys: a target has its organisation, rules,
personas and scans have their target, credentials the personas that use
them, phases and findings their scan, evidence and verifications their
finding. `ownedBy` keeps one organisation's rows and is a database again.
For each statement a request runs there is one lemma on what it does to
`ownedBy`, and one that it keeps the keys consistent.
-/
import Sentinel.Api.Tables

namespace Sentinel.Api

open Sentinel.Py Sentinel.Core

/-! ## Filtered tables -/

section Filtered

variable {α : Type} {rows : List α} {p q : α → Bool}

theorem filter_of_owned (h : ∀ x ∈ rows, p x = true → q x = true) :
    (rows.filter q).filter p = rows.filter p := by
  rw [List.filter_filter]
  refine List.filter_congr fun x hx => ?_
  cases hp : p x with
  | false => rfl
  | true => rw [h x hx hp]; rfl

theorem find?_of_owned (h : ∀ x ∈ rows, p x = true → q x = true) :
    (rows.filter q).find? p = rows.find? p := by
  rw [← List.head?_filter, ← List.head?_filter, filter_of_owned h]

theorem find?_of_foreign (h : ∀ x ∈ rows, p x = true → q x = false) :
    (rows.filter q).find? p = none := by
  rw [List.find?_eq_none]
  intro x hx hp
  obtain ⟨hmem, hq⟩ := List.mem_filter.mp hx
  exact absurd hq (by simp [h x hmem hp])

theorem filter_concat (x : α) :
    (rows ++ [x]).filter q = if q x = true then rows.filter q ++ [x] else rows.filter q := by
  rw [List.filter_append]
  cases hq : q x with
  | true => rw [List.filter_cons_of_pos hq, if_pos rfl]; rfl
  | false => rw [List.filter_cons_of_neg (by simp [hq]), if_neg (by simp)]; simp

/-- The one row of a table with the id of the row added last. -/
theorem eq_of_mem_concat {key : α → Uuid} {x row : α} (hfresh : key row ∉ rows.map key)
    (hmem : x ∈ rows ++ [row]) (hkey : key x = key row) : x = row := by
  rcases List.mem_append.mp hmem with hold | hnew
  · exact absurd (hkey ▸ List.mem_map_of_mem hold) hfresh
  · exact List.mem_singleton.mp hnew

theorem any_congr_mem (h : ∀ x ∈ rows, p x = q x) : rows.any p = rows.any q := by
  induction rows with
  | nil => rfl
  | cons x rest ih =>
    rw [List.any_cons, List.any_cons, h x List.mem_cons_self,
      ih fun y hy => h y (List.mem_cons_of_mem x hy)]

theorem flatMap_of_owned {β : Type} {g : α → List β} (h : ∀ x ∈ rows, q x = false → g x = []) :
    (rows.filter q).flatMap g = rows.flatMap g := by
  induction rows with
  | nil => rfl
  | cons x rest ih =>
    have hrest := ih fun y hy => h y (List.mem_cons_of_mem x hy)
    cases hq : q x with
    | true => rw [List.filter_cons_of_pos hq, List.flatMap_cons, List.flatMap_cons, hrest]
    | false =>
      rw [List.filter_cons_of_neg (by simp [hq]), List.flatMap_cons, h x List.mem_cons_self hq,
        hrest]
      rfl

end Filtered

namespace Database

/-! ## Ownership -/

def ownsTarget (db : Database) (org id : Uuid) : Bool :=
  db.targets.any fun t => t.id == id && t.organizationId == org

def ownsScan (db : Database) (org id : Uuid) : Bool :=
  db.scans.any fun s => s.id == id && db.ownsTarget org s.targetId

def ownsFinding (db : Database) (org id : Uuid) : Bool :=
  db.findings.any fun f => f.id == id && db.ownsScan org f.scanId

/-- A persona of the organisation uses the credential. -/
def ownsCredential (db : Database) (org id : Uuid) : Bool :=
  db.personas.any fun p => p.credentialId == some id && db.ownsTarget org p.targetId

/-- The rows an organisation owns. -/
def ownedBy (org : Uuid) (db : Database) : Database where
  organizations := db.organizations.filter (·.id == org)
  targets := db.targets.filter (·.organizationId == org)
  scopeRules := db.scopeRules.filter (db.ownsTarget org ·.targetId)
  credentials := db.credentials.filter (db.ownsCredential org ·.id)
  personas := db.personas.filter (db.ownsTarget org ·.targetId)
  scans := db.scans.filter (db.ownsTarget org ·.targetId)
  phases := db.phases.filter (db.ownsScan org ·.scanId)
  findings := db.findings.filter (db.ownsScan org ·.scanId)
  evidence := db.evidence.filter (db.ownsFinding org ·.findingId)
  verifications := db.verifications.filter (db.ownsFinding org ·.findingId)

/-- Primary keys are unique and foreign keys have their row. -/
structure Consistent (db : Database) : Prop where
  organizations_nodup : (db.organizations.map (·.id)).Nodup
  targets_nodup : (db.targets.map (·.id)).Nodup
  scopeRules_nodup : (db.scopeRules.map (·.id)).Nodup
  credentials_nodup : (db.credentials.map (·.id)).Nodup
  personas_nodup : (db.personas.map (·.id)).Nodup
  scans_nodup : (db.scans.map (·.id)).Nodup
  findings_nodup : (db.findings.map (·.id)).Nodup
  target_organization : ∀ t ∈ db.targets, t.organizationId ∈ db.organizations.map (·.id)
  scopeRule_target : ∀ r ∈ db.scopeRules, r.targetId ∈ db.targets.map (·.id)
  persona_target : ∀ p ∈ db.personas, p.targetId ∈ db.targets.map (·.id)
  persona_credential : ∀ p ∈ db.personas, ∀ c ∈ p.credentialId, c ∈ db.credentials.map (·.id)
  scan_target : ∀ s ∈ db.scans, s.targetId ∈ db.targets.map (·.id)
  phase_scan : ∀ p ∈ db.phases, p.scanId ∈ db.scans.map (·.id)
  finding_scan : ∀ f ∈ db.findings, f.scanId ∈ db.scans.map (·.id)
  evidence_finding : ∀ e ∈ db.evidence, e.findingId ∈ db.findings.map (·.id)
  verification_finding : ∀ v ∈ db.verifications, v.findingId ∈ db.findings.map (·.id)

variable {db : Database} {org id : Uuid}

theorem ownsTarget_iff :
    db.ownsTarget org id = true ↔ ∃ t ∈ db.targets, t.id = id ∧ t.organizationId = org := by
  simp [ownsTarget, List.any_eq_true]

theorem mem_of_ownsTarget (hown : db.ownsTarget org id = true) : id ∈ db.targets.map (·.id) := by
  obtain ⟨t, ht, rfl, -⟩ := ownsTarget_iff.mp hown
  exact List.mem_map_of_mem ht

theorem ownsScan_iff :
    db.ownsScan org id = true ↔
      ∃ s ∈ db.scans, s.id = id ∧ db.ownsTarget org s.targetId = true := by
  simp [ownsScan, List.any_eq_true]

/-- The organisation of a target that has an owner. -/
theorem Consistent.organization_eq (h : db.Consistent) (hown : db.ownsTarget org id = true)
    {t : Target} (ht : t ∈ db.targets) (hid : t.id = id) : t.organizationId = org := by
  obtain ⟨t', ht', hid', horg⟩ := ownsTarget_iff.mp hown
  obtain rfl : t = t' := List.inj_on_of_nodup_map h.targets_nodup ht ht' (hid.trans hid'.symm)
  exact horg

/-- **One owner.** No target belongs to two organisations. -/
theorem Consistent.owner_unique (h : db.Consistent) {org' : Uuid}
    (hown : db.ownsTarget org id = true) (hne : org' ≠ org) : db.ownsTarget org' id = false := by
  rw [Bool.eq_false_iff]
  intro hown'
  obtain ⟨t, ht, hid, horg⟩ := ownsTarget_iff.mp hown'
  exact hne (horg.symm.trans (h.organization_eq hown ht hid))

/-! ## Reading -/

@[simp] theorem organization_ownedBy :
    (db.ownedBy org).organization org = db.organization org :=
  find?_of_owned fun _ _ h => h

@[simp] theorem targetsOf_ownedBy : (db.ownedBy org).targetsOf org = db.targetsOf org :=
  filter_of_owned fun _ _ h => h

section OwnTarget

variable (hown : db.ownsTarget org id = true)
include hown

theorem scopeRulesOf_ownedBy : (db.ownedBy org).scopeRulesOf id = db.scopeRulesOf id :=
  filter_of_owned fun r _ h => by rw [beq_iff_eq.mp h, hown]

theorem personasOf_ownedBy : (db.ownedBy org).personasOf id = db.personasOf id :=
  filter_of_owned fun p _ h => by rw [beq_iff_eq.mp h, hown]

end OwnTarget

theorem withPhases_ownedBy {scan : Scan} (hown : db.ownsScan org scan.id = true) :
    (db.ownedBy org).withPhases scan = db.withPhases scan := by
  unfold withPhases ownedBy
  rw [filter_of_owned fun p _ h => by rw [beq_iff_eq.mp h, hown]]

theorem ownsScan_of_mem {scan : Scan} (hmem : scan ∈ db.scans)
    (hown : db.ownsTarget org scan.targetId = true) : db.ownsScan org scan.id = true :=
  ownsScan_iff.mpr ⟨scan, hmem, rfl, hown⟩

theorem scansOf_ownedBy (hown : db.ownsTarget org id = true) :
    (db.ownedBy org).scansOf id = db.scansOf id := by
  have hrows : (db.ownedBy org).scans.filter (·.targetId == id) =
      db.scans.filter (·.targetId == id) :=
    filter_of_owned fun s _ h => by rw [beq_iff_eq.mp h, hown]
  unfold scansOf
  rw [hrows]
  refine List.map_congr_left fun scan hscan => withPhases_ownedBy ?_
  obtain ⟨hmem, htarget⟩ := List.mem_filter.mp hscan
  exact ownsScan_of_mem hmem (by rw [beq_iff_eq.mp htarget, hown])

theorem withEvidence_ownedBy {finding : Finding} (hown : db.ownsFinding org finding.id = true) :
    (db.ownedBy org).withEvidence finding = db.withEvidence finding := by
  unfold withEvidence ownedBy
  rw [filter_of_owned fun e _ h => by rw [beq_iff_eq.mp h, hown],
    find?_of_owned fun v _ h => by rw [beq_iff_eq.mp h, hown]]

theorem findingsOf_ownedBy (hown : db.ownsScan org id = true) :
    (db.ownedBy org).findingsOf id = db.findingsOf id := by
  have hrows : (db.ownedBy org).findings.filter (·.scanId == id) =
      db.findings.filter (·.scanId == id) :=
    filter_of_owned fun f _ h => by rw [beq_iff_eq.mp h, hown]
  unfold findingsOf
  rw [hrows]
  refine List.map_congr_left fun finding hfinding => withEvidence_ownedBy ?_
  obtain ⟨hmem, hscan⟩ := List.mem_filter.mp hfinding
  exact List.any_eq_true.mpr ⟨finding, hmem, by simp [beq_iff_eq.mp hscan, hown]⟩

/-- The join reaches only what the organisation owns. -/
theorem scansJoinedTo_ownedBy :
    (db.ownedBy org).scansJoinedTo org id = db.scansJoinedTo org id := by
  have hjoined : ∀ scan : Scan,
      (db.ownedBy org).targets.filter (fun t => t.id == scan.targetId && t.organizationId == org) =
        db.targets.filter fun t => t.id == scan.targetId && t.organizationId == org :=
    fun scan => filter_of_owned fun t _ h => (Bool.and_eq_true_iff.mp h).2
  unfold scansJoinedTo
  simp only [hjoined]
  have hcomm : (db.ownedBy org).scans.filter (·.id == id) =
      (db.scans.filter (·.id == id)).filter (db.ownsTarget org ·.targetId) := List.filter_comm ..
  rw [hcomm]
  refine flatMap_of_owned fun scan _ hforeign => ?_
  rw [List.map_eq_nil_iff, List.filter_eq_nil_iff]
  intro t ht hjoin
  obtain ⟨hid, horg⟩ := Bool.and_eq_true_iff.mp hjoin
  have hown := ownsTarget_iff.mpr ⟨t, ht, beq_iff_eq.mp hid, beq_iff_eq.mp horg⟩
  rw [hown] at hforeign
  exact nomatch hforeign

/-- A scan that the join finds is one of the organisation's. -/
theorem mem_scansJoinedTo {scan : Scan} (h : scan ∈ db.scansJoinedTo org id) :
    db.ownsScan org scan.id = true := by
  obtain ⟨scan', hmem, hjoin⟩ := List.mem_flatMap.mp h
  obtain ⟨t, ht, rfl⟩ := List.mem_map.mp hjoin
  obtain ⟨htarget, hkeys⟩ := List.mem_filter.mp ht
  obtain ⟨hid, horg⟩ := Bool.and_eq_true_iff.mp hkeys
  exact ownsScan_of_mem (List.mem_filter.mp hmem).1
    (ownsTarget_iff.mpr ⟨t, htarget, beq_iff_eq.mp hid, beq_iff_eq.mp horg⟩)

/-- Rows of an id that are all the organisation's are found alike. -/
theorem scansById_ownedBy
    (hown : ∀ s ∈ db.scans, s.id = id → db.ownsTarget org s.targetId = true) :
    (db.ownedBy org).scansById id = db.scansById id := by
  have hrows : (db.ownedBy org).scans.filter (·.id == id) = db.scans.filter (·.id == id) :=
    filter_of_owned fun s hs h => hown s hs (beq_iff_eq.mp h)
  unfold scansById
  rw [hrows]
  refine List.map_congr_left fun scan hscan => withPhases_ownedBy ?_
  obtain ⟨hmem, hid⟩ := List.mem_filter.mp hscan
  exact ownsScan_of_mem hmem (hown scan hmem (beq_iff_eq.mp hid))

/-! ## Writing -/

/-- The database with one more row. -/
def addTarget (t : Target) (db : Database) : Database := { db with targets := db.targets ++ [t] }

def addScopeRule (r : ScopeRule) (db : Database) : Database :=
  { db with scopeRules := db.scopeRules ++ [r] }

def addScan (s : Scan) (db : Database) : Database := { db with scans := db.scans ++ [s] }

/-- With one more persona, and with its credential if it has one. -/
def addPersona (c : Option Credential) (p : Persona) (db : Database) : Database :=
  { db with credentials := db.credentials ++ c.toList, personas := db.personas ++ [p] }

/-- Where the targets that rows refer to keep their owners, the rows keep
theirs. -/
theorem ownedBy_withTargets (h : db.Consistent) {targets : List Target}
    (howns : ∀ id ∈ db.targets.map (·.id),
      ({ db with targets := targets } : Database).ownsTarget org id = db.ownsTarget org id) :
    ({ db with targets := targets } : Database).ownedBy org =
      { db.ownedBy org with targets := targets.filter (·.organizationId == org) } := by
  have hscan : ∀ id, ({ db with targets := targets } : Database).ownsScan org id =
      db.ownsScan org id := fun id =>
    any_congr_mem fun s hs => by rw [howns s.targetId (h.scan_target s hs)]
  have hfinding : ∀ id, ({ db with targets := targets } : Database).ownsFinding org id =
      db.ownsFinding org id := fun id => any_congr_mem fun f _ => by rw [hscan]
  have hcredential : ∀ id, ({ db with targets := targets } : Database).ownsCredential org id =
      db.ownsCredential org id := fun id =>
    any_congr_mem fun p hp => by rw [howns p.targetId (h.persona_target p hp)]
  unfold ownedBy
  simp only [hscan, hfinding, hcredential]
  rw [List.filter_congr fun r hr => howns r.targetId (h.scopeRule_target r hr),
    List.filter_congr fun p hp => howns p.targetId (h.persona_target p hp),
    List.filter_congr fun s hs => howns s.targetId (h.scan_target s hs)]

/-- A new target is its organisation's. -/
theorem ownedBy_addTarget (h : db.Consistent) {t : Target} (hfresh : t.id ∉ db.targets.map (·.id))
    (org : Uuid) :
    (db.addTarget t).ownedBy org =
      if t.organizationId = org then (db.ownedBy org).addTarget t else db.ownedBy org := by
  have howns : ∀ id ∈ db.targets.map (·.id),
      (db.addTarget t).ownsTarget org id = db.ownsTarget org id := by
    intro id hid
    have hne : (t.id == id) = false := by
      rw [beq_eq_false_iff_ne]
      rintro rfl
      exact hfresh hid
    simp [ownsTarget, addTarget, hne]
  rw [addTarget, ownedBy_withTargets h howns, filter_concat]
  by_cases horg : t.organizationId = org
  · rw [if_pos horg, if_pos (by simpa using horg)]
    rfl
  · rw [if_neg horg, if_neg (by simpa using horg)]
    rfl

section UpdateTarget

variable {change : Target → Target} (hid : ∀ t, (change t).id = t.id)
  (horg : ∀ t, (change t).organizationId = t.organizationId)
include hid horg

theorem updated_keeps (id : Uuid) (t : Target) :
    (if t.id = id then change t else t).id = t.id ∧
      (if t.id = id then change t else t).organizationId = t.organizationId := by
  split
  · exact ⟨hid t, horg t⟩
  · exact ⟨rfl, rfl⟩

theorem ownsTarget_updateTarget (id org id' : Uuid) :
    (db.updateTarget id change).ownsTarget org id' = db.ownsTarget org id' := by
  unfold ownsTarget updateTarget
  rw [List.any_map]
  exact any_congr_mem fun t _ => by simp only [Function.comp_apply, updated_keeps hid horg]

/-- A change of a target is made where the target is; it stays the
organisation's. -/
theorem ownedBy_updateTarget (h : db.Consistent) (id org : Uuid) :
    (db.updateTarget id change).ownedBy org = (db.ownedBy org).updateTarget id change := by
  have howns : ∀ id' ∈ db.targets.map (·.id),
      (db.updateTarget id change).ownsTarget org id' = db.ownsTarget org id' :=
    fun id' _ => ownsTarget_updateTarget hid horg id org id'
  rw [updateTarget, ownedBy_withTargets h howns, List.filter_map]
  have hfilter : db.targets.filter
      ((fun t : Target => t.organizationId == org) ∘ fun t => if t.id = id then change t else t) =
      db.targets.filter (·.organizationId == org) :=
    List.filter_congr fun t _ => by simp only [Function.comp_apply, updated_keeps hid horg]
  rw [hfilter]
  rfl

end UpdateTarget

/-- Where no target has the id, there is nothing to change. -/
theorem updateTarget_of_absent {change : Target → Target} (h : ∀ t ∈ db.targets, t.id ≠ id) :
    db.updateTarget id change = db := by
  have hsame : db.targets.map (fun t => if t.id = id then change t else t) = db.targets :=
    (List.map_congr_left fun t ht => if_neg (h t ht)).trans (List.map_id' _)
  rw [updateTarget, hsame]

/-- A new scope rule belongs to whom its target belongs to. -/
theorem ownedBy_addScopeRule (r : ScopeRule) (org : Uuid) :
    (db.addScopeRule r).ownedBy org =
      if db.ownsTarget org r.targetId = true then (db.ownedBy org).addScopeRule r
      else db.ownedBy org := by
  have hrows : (db.addScopeRule r).ownedBy org =
      { db.ownedBy org with
        scopeRules := (db.scopeRules ++ [r]).filter (db.ownsTarget org ·.targetId) } := rfl
  rw [hrows, filter_concat]
  split <;> rfl

/-- A new scan belongs to whom its target belongs to. -/
theorem ownedBy_addScan (h : db.Consistent) {s : Scan} (hfresh : s.id ∉ db.scans.map (·.id))
    (org : Uuid) :
    (db.addScan s).ownedBy org =
      if db.ownsTarget org s.targetId = true then (db.ownedBy org).addScan s
      else db.ownedBy org := by
  have howns : ∀ id ∈ db.scans.map (·.id), (db.addScan s).ownsScan org id = db.ownsScan org id := by
    intro id hid
    have hne : (s.id == id) = false := by
      rw [beq_eq_false_iff_ne]
      rintro rfl
      exact hfresh hid
    unfold ownsScan addScan
    rw [List.any_append, List.any_cons, hne]
    simp [ownsTarget]
  have hfinding : ∀ id, (db.addScan s).ownsFinding org id = db.ownsFinding org id := fun id =>
    any_congr_mem fun f hf => by rw [howns f.scanId (h.finding_scan f hf)]
  have hrows : (db.addScan s).ownedBy org =
      { db.ownedBy org with
        scans := (db.scans ++ [s]).filter (db.ownsTarget org ·.targetId) } := by
    have hphases : (db.addScan s).phases.filter ((db.addScan s).ownsScan org ·.scanId) =
        db.phases.filter (db.ownsScan org ·.scanId) :=
      List.filter_congr fun p hp => howns p.scanId (h.phase_scan p hp)
    have hfindings : (db.addScan s).findings.filter ((db.addScan s).ownsScan org ·.scanId) =
        db.findings.filter (db.ownsScan org ·.scanId) :=
      List.filter_congr fun f hf => howns f.scanId (h.finding_scan f hf)
    unfold ownedBy
    simp only [hfinding]
    rw [hphases, hfindings]
    rfl
  rw [hrows, filter_concat]
  split <;> rfl

theorem ownsCredential_addPersona (c : Option Credential) (p : Persona) (org id : Uuid) :
    (db.addPersona c p).ownsCredential org id =
      (db.ownsCredential org id ||
        (p.credentialId == some id && db.ownsTarget org p.targetId)) := by
  unfold ownsCredential addPersona
  rw [List.any_append]
  simp [ownsTarget]

/-- No persona uses a credential that is not there. -/
theorem Consistent.ownsCredential_eq_false (h : db.Consistent)
    (hfresh : id ∉ db.credentials.map (·.id)) (org : Uuid) :
    db.ownsCredential org id = false := by
  rw [Bool.eq_false_iff]
  intro hused
  obtain ⟨p, hp, hkey⟩ := List.any_eq_true.mp hused
  exact hfresh (h.persona_credential p hp id
    (beq_iff_eq.mp (Bool.and_eq_true_iff.mp hkey).1))

/-- A new persona belongs to whom its target belongs to, and so does the
credential it comes with. -/
theorem ownedBy_addPersona (h : db.Consistent) {c : Option Credential} {p : Persona}
    (hcredential : p.credentialId = c.map (·.id))
    (hfresh : ∀ new ∈ c, new.id ∉ db.credentials.map (·.id)) (org : Uuid) :
    (db.addPersona c p).ownedBy org =
      if db.ownsTarget org p.targetId = true then (db.ownedBy org).addPersona c p
      else db.ownedBy org := by
  have hold : ∀ old ∈ db.credentials, (db.addPersona c p).ownsCredential org old.id =
      db.ownsCredential org old.id := by
    intro old hmem
    have hne : (p.credentialId == some old.id) = false := by
      rw [hcredential, beq_eq_false_iff_ne]
      intro heq
      obtain ⟨new, hnew, hid⟩ := Option.map_eq_some_iff.mp heq
      exact hfresh new hnew (hid ▸ List.mem_map_of_mem hmem)
    rw [ownsCredential_addPersona, hne, Bool.false_and, Bool.or_false]
  have hnew : ∀ new ∈ c, (db.addPersona c p).ownsCredential org new.id =
      db.ownsTarget org p.targetId := by
    intro new hmem
    rw [ownsCredential_addPersona, h.ownsCredential_eq_false (hfresh new hmem), hcredential,
      Option.mem_def.mp hmem]
    simp
  have hrows : (db.addPersona c p).ownedBy org =
      { db.ownedBy org with
        credentials := (db.ownedBy org).credentials ++
          c.toList.filter fun _ => db.ownsTarget org p.targetId
        personas := (db.personas ++ [p]).filter (db.ownsTarget org ·.targetId) } := by
    have hcredentials : (db.credentials ++ c.toList).filter
        ((db.addPersona c p).ownsCredential org ·.id) = (db.ownedBy org).credentials ++
          c.toList.filter fun _ => db.ownsTarget org p.targetId := by
      rw [List.filter_append, List.filter_congr hold]
      exact congrArg _ (List.filter_congr fun new hmem => hnew new (Option.mem_toList.mp hmem))
    unfold ownedBy at hcredentials ⊢
    rw [← hcredentials]
    rfl
  rw [hrows, filter_concat]
  split
  · next hown =>
    simp only [hown, List.filter_true]
    rfl
  · next hown =>
    simp only [hown, List.filter_false, List.append_nil]
    rfl

/-! ## Consistency is kept -/

theorem nodup_concat {α : Type} {key : α → Uuid} {rows : List α} {row : α}
    (h : (rows.map key).Nodup) (hfresh : key row ∉ rows.map key) :
    ((rows ++ [row]).map key).Nodup := by
  rw [List.map_append, List.map_singleton]
  exact List.nodup_append.mpr ⟨h, List.nodup_singleton _, fun a ha b hb =>
    fun heq => hfresh (List.mem_singleton.mp hb ▸ heq ▸ ha)⟩

theorem mem_map_concat {α : Type} {key : α → Uuid} {rows : List α} {row : α}
    (h : id ∈ rows.map key) : id ∈ (rows ++ [row]).map key := by
  rw [List.map_append]
  exact List.mem_append_left _ h

theorem Consistent.addTarget (h : db.Consistent) {t : Target}
    (hfresh : t.id ∉ db.targets.map (·.id))
    (horg : t.organizationId ∈ db.organizations.map (·.id)) : (db.addTarget t).Consistent :=
  { h with
    targets_nodup := nodup_concat h.targets_nodup hfresh
    target_organization := List.forall_mem_append.mpr
      ⟨h.target_organization, List.forall_mem_singleton.mpr horg⟩
    scopeRule_target := fun r hr => mem_map_concat (h.scopeRule_target r hr)
    persona_target := fun p hp => mem_map_concat (h.persona_target p hp)
    scan_target := fun s hs => mem_map_concat (h.scan_target s hs) }

theorem Consistent.addScopeRule (h : db.Consistent) {r : ScopeRule}
    (hfresh : r.id ∉ db.scopeRules.map (·.id)) (htarget : r.targetId ∈ db.targets.map (·.id)) :
    (db.addScopeRule r).Consistent :=
  { h with
    scopeRules_nodup := nodup_concat h.scopeRules_nodup hfresh
    scopeRule_target := List.forall_mem_append.mpr
      ⟨h.scopeRule_target, List.forall_mem_singleton.mpr htarget⟩ }

theorem Consistent.addScan (h : db.Consistent) {s : Scan} (hfresh : s.id ∉ db.scans.map (·.id))
    (htarget : s.targetId ∈ db.targets.map (·.id)) : (db.addScan s).Consistent :=
  { h with
    scans_nodup := nodup_concat h.scans_nodup hfresh
    scan_target := List.forall_mem_append.mpr
      ⟨h.scan_target, List.forall_mem_singleton.mpr htarget⟩
    phase_scan := fun p hp => mem_map_concat (h.phase_scan p hp)
    finding_scan := fun f hf => mem_map_concat (h.finding_scan f hf) }

theorem Consistent.addPersona (h : db.Consistent) {c : Option Credential} {p : Persona}
    (hcredential : p.credentialId = c.map (·.id))
    (hfresh : ∀ new ∈ c, new.id ∉ db.credentials.map (·.id))
    (hpersona : p.id ∉ db.personas.map (·.id)) (htarget : p.targetId ∈ db.targets.map (·.id)) :
    (db.addPersona c p).Consistent := by
  have hkeep : ∀ id ∈ db.credentials.map (·.id), id ∈ (db.credentials ++ c.toList).map (·.id) :=
    fun id hid => by
      rw [List.map_append]
      exact List.mem_append_left _ hid
  refine { h with
    credentials_nodup := ?_
    personas_nodup := nodup_concat h.personas_nodup hpersona
    persona_target := List.forall_mem_append.mpr
      ⟨h.persona_target, List.forall_mem_singleton.mpr htarget⟩
    persona_credential := List.forall_mem_append.mpr
      ⟨fun q hq id hid => hkeep id (h.persona_credential q hq id hid),
        List.forall_mem_singleton.mpr ?_⟩ }
  · cases c with
    | none => simpa [Database.addPersona] using h.credentials_nodup
    | some new => exact nodup_concat h.credentials_nodup (hfresh new rfl)
  · intro id hid
    rw [hcredential] at hid
    obtain ⟨new, rfl, rfl⟩ := Option.map_eq_some_iff.mp hid
    simp [Database.addPersona]

theorem Consistent.updateTarget (h : db.Consistent) {change : Target → Target}
    (hid : ∀ t, (change t).id = t.id) (horg : ∀ t, (change t).organizationId = t.organizationId)
    (id : Uuid) : (db.updateTarget id change).Consistent := by
  have hids : (db.updateTarget id change).targets.map (·.id) = db.targets.map (·.id) := by
    rw [Database.updateTarget, List.map_map]
    exact List.map_congr_left fun t _ => (updated_keeps hid horg id t).1
  refine { h with
    targets_nodup := hids ▸ h.targets_nodup
    target_organization := ?_
    scopeRule_target := fun r hr => hids ▸ h.scopeRule_target r hr
    persona_target := fun p hp => hids ▸ h.persona_target p hp
    scan_target := fun s hs => hids ▸ h.scan_target s hs }
  intro t' ht'
  obtain ⟨t, ht, rfl⟩ := List.mem_map.mp ht'
  rw [(updated_keeps hid horg id t).2]
  exact h.target_organization t ht

end Database

end Sentinel.Api
