/-
Sentinel.Api.Organizations — `routers.organizations`.

A slug is looked up before the organisation is inserted, and between the
two other requests come: two of them may both find it free. The unique
index decides, so that every slug is given once (`slug_given_once`).
A new organisation has a data key under which its credentials are sealed,
and the worker reads them (`created_ready`).
-/
import Sentinel.Api.Handover
import Sentinel.Index.Unique

namespace Sentinel.Api

open Sentinel.Py Sentinel.Core Sentinel.Index Sentinel.Trace

/-! ## Schemas -/

def isSlugStart (c : Char) : Bool := ('a' ≤ c && c ≤ 'z') || ('0' ≤ c && c ≤ '9')

/-- `^[a-z0-9][a-z0-9-]*$` -/
def slugPattern : Str → Bool
  | [] => false
  | c :: rest => isSlugStart c && rest.all fun d => isSlugStart d || d == '-'

abbrev Slug := { s : Str // (1 ≤ s.length ∧ s.length ≤ 200) ∧ slugPattern s = true }

structure OrganizationCreate where
  name : BoundedText 200
  slug : Slug

/-- A row of `organizations` with the columns the router reads and writes. -/
structure OrganizationRow extends Organization where
  name : Str
  slug : Str
  plan : Str := "free_scan".toList
  deriving DecidableEq, Repr

structure OrganizationOut where
  id : Uuid
  name : Str
  slug : Str
  plan : Str
  deriving DecidableEq, Repr

def OrganizationOut.of (row : OrganizationRow) : OrganizationOut :=
  ⟨row.id, row.name, row.slug, row.plan⟩

def OrganizationRow.store (row : OrganizationRow) : Option OrganizationRow := do
  let name ← storeVarchar 200 row.name
  let slug ← storeVarchar 200 row.slug
  let plan ← storeVarchar 50 row.plan
  return { row with name, slug, plan }

theorem OrganizationRow.store_keeps {row kept : OrganizationRow} (h : row.store = some kept) :
    kept.toOrganization = row.toOrganization := by
  simp only [OrganizationRow.store, Option.bind_eq_bind, Option.bind_eq_some_iff, Option.pure_def,
    Option.some.injEq] at h
  obtain ⟨_, _, _, _, _, _, rfl⟩ := h
  rfl

instance : Row OrganizationRow :=
  ⟨fun row => row.id, OrganizationRow.store, fun h =>
    congrArg Organization.id (OrganizationRow.store_keeps h)⟩

/-- The INSERT: the primary key, and the unique index of the slug. -/
def insertOrganization (row : OrganizationRow) (rows : List OrganizationRow) :
    Option (List OrganizationRow) := do
  let stored ← row.store
  if Free OrganizationRow.slug stored.slug rows then insertRow row rows else none

/-! ## `create_organization` -/

/-- A request to create an organisation: what it meets outside, the id of
`uuid4()` and the key of `Fernet.generate_key()`. -/
structure OrganizationCall where
  env : Environment
  id : Uuid
  dataKey : MasterKey
  body : Body OrganizationCreate

/-- The dependencies and the body. -/
def OrganizationCall.solve (call : OrganizationCall) :
    Except Failure (List Bytes × OrganizationCreate) := do
  call.body.readable
  let masterKeys ← getCrypto call.env
  let (_, payload) ← validated (.ok ()) call.body
  return (masterKeys, payload)

/-- `existing.scalar_one_or_none() is not None` -/
def slugTaken (slug : Str) (rows : List OrganizationRow) : Except Failure Bool :=
  match rows.filter fun row => row.slug == slug with
  | [] => .ok false
  | [_] => .ok true
  | _ => .error .uncaught

def slugConflict : Failure :=
  .http 409 "An organization with this slug already exists.".toList

/-- What comes before the INSERT. -/
def OrganizationCall.select (call : OrganizationCall) (rows : List OrganizationRow) :
    Except Failure (List Bytes × OrganizationCreate) := do
  let (masterKeys, payload) ← call.solve
  if ← slugTaken payload.slug rows then .error slugConflict
  return (masterKeys, payload)

/-- The new row; `generate_data_key` and `wrap_data_key`. -/
def OrganizationCall.row (call : OrganizationCall) (masterKeys : List Bytes)
    (payload : OrganizationCreate) : Except Failure OrganizationRow := do
  let wrapped ← (call.env.fernet.wrap masterKeys call.env.nonce call.dataKey.encoded).mapError
    fun _ => .uncaught
  return { id := call.id, wrappedDataKey := wrapped, name := payload.name, slug := payload.slug }

/-- `session.add` and `session.commit`. -/
def OrganizationCall.insert (call : OrganizationCall) (masterKeys : List Bytes)
    (payload : OrganizationCreate) (rows : List OrganizationRow) :
    Except Failure (List OrganizationRow) := do
  let row ← call.row masterKeys payload
  orUncaught (insertOrganization row rows)

/-- `session.refresh`. -/
def OrganizationCall.refresh (call : OrganizationCall) (rows : List OrganizationRow) :
    Except Failure OrganizationOut :=
  orUncaught ((rowById call.id rows).map OrganizationOut.of)

/-! ## Interleavings -/

/-- How far a request has come. -/
inductive OrganizationRequest where
  /-- The slug was free. -/
  | selected (call : OrganizationCall) (masterKeys : List Bytes) (payload : OrganizationCreate)
  /-- The INSERT is committed. -/
  | inserted (call : OrganizationCall)

/-- The table, the requests under way and the answers so far. -/
structure OrganizationRace where
  rows : List OrganizationRow
  requests : ℕ → Option OrganizationRequest := fun _ => none
  answers : List (OrganizationCall × Except Failure OrganizationOut) := []

/-- What happens next. -/
inductive OrganizationAction where
  | select (request : ℕ) (call : OrganizationCall)
  | insert (request : ℕ)
  | refresh (request : ℕ)
  | abandon (request : ℕ)

namespace OrganizationRace

def setRequest (s : OrganizationRace) (request : ℕ) (r : Option OrganizationRequest) :
    OrganizationRace :=
  { s with requests := fun i => if i = request then r else s.requests i }

/-- The request ends with an answer. -/
def answer (s : OrganizationRace) (request : ℕ) (call : OrganizationCall)
    (reply : Except Failure OrganizationOut) : OrganizationRace :=
  { s.setRequest request none with answers := s.answers ++ [(call, reply)] }

/-- One action. A number is used for one request at a time. -/
def step (s : OrganizationRace) : OrganizationAction → OrganizationRace
  | .select request call =>
      match s.requests request with
      | some _ => s
      | none =>
          match call.select s.rows with
          | .ok (masterKeys, payload) =>
              s.setRequest request (some (.selected call masterKeys payload))
          | .error failure => s.answer request call (.error failure)
  | .insert request =>
      match s.requests request with
      | some (.selected call masterKeys payload) =>
          match call.insert masterKeys payload s.rows with
          | .ok rows => { s.setRequest request (some (.inserted call)) with rows := rows }
          | .error failure => s.answer request call (.error failure)
      | _ => s
  | .refresh request =>
      match s.requests request with
      | some (.inserted call) => s.answer request call (call.refresh s.rows)
      | _ => s
  | .abandon request => s.setRequest request none

/-- The organisations that requests were told are created. -/
def created (s : OrganizationRace) : List OrganizationOut :=
  s.answers.filterMap fun a => a.2.toOption

end OrganizationRace

/-! ## One request -/

/-- The row is the one the request asks for. -/
def OrganizationCall.Makes (call : OrganizationCall) (row : OrganizationRow) : Prop :=
  ∃ masterKeys payload, call.solve = .ok (masterKeys, payload) ∧
    call.row masterKeys payload = .ok row

theorem OrganizationCall.row_ok {call : OrganizationCall} {masterKeys : List Bytes}
    {payload : OrganizationCreate} {row : OrganizationRow}
    (h : call.row masterKeys payload = .ok row) :
    ∃ wrapped, call.env.fernet.wrap masterKeys call.env.nonce call.dataKey.encoded = .ok wrapped ∧
      row = { id := call.id, wrappedDataKey := wrapped, name := payload.name.val,
              slug := payload.slug.val } := by
  obtain ⟨wrapped, hwrapped, hrow⟩ := bind_eq_ok.mp h
  exact ⟨wrapped, mapError_eq_ok.mp hwrapped, (Except.ok.inj hrow).symm⟩

theorem OrganizationCall.Makes.id_eq {call : OrganizationCall} {row : OrganizationRow}
    (h : call.Makes row) : row.id = call.id := by
  obtain ⟨masterKeys, payload, -, hrow⟩ := h
  obtain ⟨wrapped, -, rfl⟩ := OrganizationCall.row_ok hrow
  rfl

/-- What a request posts is stored as it is. -/
theorem OrganizationCall.stored {call : OrganizationCall} {masterKeys : List Bytes}
    {payload : OrganizationCreate} {row kept : OrganizationRow}
    (h : call.row masterKeys payload = .ok row) (hkept : row.store = some kept) : kept = row := by
  obtain ⟨wrapped, -, rfl⟩ := OrganizationCall.row_ok h
  simp only [OrganizationRow.store, Option.bind_eq_bind, Option.bind_eq_some_iff, Option.pure_def,
    Option.some.injEq] at hkept
  obtain ⟨name, hname, slug, hslug, plan, hplan, rfl⟩ := hkept
  obtain rfl := storeVarchar_of_le hname payload.name.2.2
  obtain rfl := storeVarchar_of_le hslug payload.slug.2.1.2
  obtain rfl := storeVarchar_of_le hplan (by decide)
  rfl

/-- **The INSERT** adds the row, whose id and slug were free. -/
theorem OrganizationCall.insert_ok {call : OrganizationCall} {masterKeys : List Bytes}
    {payload : OrganizationCreate} {rows rows' : List OrganizationRow}
    (h : call.insert masterKeys payload rows = .ok rows') :
    ∃ row, call.row masterKeys payload = .ok row ∧ rows' = rows ++ [row] ∧
      Free (fun r : OrganizationRow => r.id) row.id rows ∧ Free (·.slug) row.slug rows := by
  obtain ⟨row, hrow, hinsert⟩ := bind_eq_ok.mp h
  refine ⟨row, hrow, ?_⟩
  cases hstore : row.store with
  | none =>
    rw [insertOrganization, hstore] at hinsert
    cases hinsert
  | some kept =>
    obtain rfl := OrganizationCall.stored hrow hstore
    rw [insertOrganization, hstore] at hinsert
    dsimp only [bind, Option.bind] at hinsert
    split at hinsert
    · next hslug =>
      unfold insertRow at hinsert
      split at hinsert
      · cases hinsert
      · next hid =>
        have hkept : Row.store kept = some kept := hstore
        rw [hkept] at hinsert
        refine ⟨(Except.ok.inj hinsert).symm, free_iff.mpr fun r hr heq => hid ?_, hslug⟩
        exact List.any_eq_true.mpr ⟨r, hr, beq_iff_eq.mpr heq⟩
    · cases hinsert

/-- The dependencies and the body fail with other errors. -/
theorem OrganizationCall.solve_ne_conflict (call : OrganizationCall) :
    call.solve ≠ .error slugConflict := by
  unfold OrganizationCall.solve getCrypto
  cases call.body with
  | unreadable why =>
    intro h
    cases why <;> cases h
  | invalid errors =>
    split
    · intro h
      cases h
    · split <;> intro h <;> cases h
  | valid payload =>
    split
    · intro h
      cases h
    · split <;> intro h <;> cases h

/-- What fails at the INSERT is not caught. -/
theorem OrganizationCall.insert_ne_conflict (call : OrganizationCall) (masterKeys : List Bytes)
    (payload : OrganizationCreate) (rows : List OrganizationRow) :
    call.insert masterKeys payload rows ≠ .error slugConflict := by
  unfold OrganizationCall.insert OrganizationCall.row
  cases call.env.fernet.wrap masterKeys call.env.nonce call.dataKey.encoded with
  | error e =>
    intro h
    cases h
  | ok wrapped =>
    dsimp only [Except.mapError, bind, Except.bind, pure, Except.pure]
    unfold orUncaught
    split <;> intro h <;> cases h

/-- A conflict is a row with the slug. -/
theorem OrganizationCall.select_conflict {call : OrganizationCall} {rows : List OrganizationRow}
    (h : call.select rows = .error slugConflict) :
    ∃ masterKeys payload, call.solve = .ok (masterKeys, payload) ∧
      ∃ row ∈ rows, row.slug = payload.slug.val := by
  unfold OrganizationCall.select at h
  cases hsolve : call.solve with
  | error failure =>
    rw [hsolve] at h
    obtain rfl := Except.error.inj h
    exact absurd hsolve call.solve_ne_conflict
  | ok solved =>
    obtain ⟨masterKeys, payload⟩ := solved
    refine ⟨masterKeys, payload, rfl, ?_⟩
    rw [hsolve] at h
    dsimp only [bind, Except.bind] at h
    unfold slugTaken at h
    cases hrows : rows.filter fun row => row.slug == payload.slug.val with
    | nil =>
      rw [hrows] at h
      cases h
    | cons row rest =>
      have hmem : row ∈ rows.filter fun row => row.slug == payload.slug.val :=
        hrows ▸ List.mem_cons_self
      obtain ⟨hrow, hslug⟩ := List.mem_filter.mp hmem
      exact ⟨row, hrow, beq_iff_eq.mp hslug⟩

theorem OrganizationCall.select_ok {call : OrganizationCall} {rows : List OrganizationRow}
    {masterKeys : List Bytes} {payload : OrganizationCreate}
    (h : call.select rows = .ok (masterKeys, payload)) :
    call.solve = .ok (masterKeys, payload) := by
  obtain ⟨⟨keys, posted⟩, hsolve, hrest⟩ := bind_eq_ok.mp h
  obtain ⟨taken, -, hrest⟩ := bind_eq_ok.mp hrest
  cases taken with
  | true => cases hrest
  | false =>
    cases hrest
    exact hsolve

/-! ## All of them -/

namespace OrganizationRace

theorem created_answer (s : OrganizationRace) (request : ℕ) (call : OrganizationCall)
    (reply : Except Failure OrganizationOut) :
    (s.answer request call reply).created = s.created ++ reply.toOption.toList := by
  unfold created answer
  rw [List.filterMap_append]
  cases reply with
  | error failure => rfl
  | ok out => rfl

/-- The invariant of the race. -/
structure Sound (start : List OrganizationRow) (s : OrganizationRace) : Prop where
  ids : Unique (fun row : OrganizationRow => row.id) s.rows
  slugs : Unique OrganizationRow.slug s.rows
  grows : start <+: s.rows
  selected : ∀ i call masterKeys payload,
    s.requests i = some (.selected call masterKeys payload) →
      call.solve = .ok (masterKeys, payload)
  /-- An INSERT that was not yet answered. -/
  inserted : ∀ i call, s.requests i = some (.inserted call) →
    (∃ row ∈ s.rows, row ∉ start ∧ call.Makes row) ∧ call.id ∉ s.created.map (·.id)
  apart : ∀ i j call call', s.requests i = some (.inserted call) →
    s.requests j = some (.inserted call') → call.id = call'.id → i = j
  distinct : (s.created.map (·.id)).Nodup
  answered : ∀ call out, (call, .ok out) ∈ s.answers →
    ∃ row ∈ s.rows, row ∉ start ∧ call.Makes row ∧ out = .of row
  refused : ∀ call, (call, .error slugConflict) ∈ s.answers →
    ∃ masterKeys payload, call.solve = .ok (masterKeys, payload) ∧
      ∃ row ∈ s.rows, row.slug = payload.slug.val

variable {start : List OrganizationRow} {s : OrganizationRace}

theorem sound_start (hids : Unique (fun row : OrganizationRow => row.id) start)
    (hslugs : Unique OrganizationRow.slug start) : Sound start { rows := start } where
  ids := hids
  slugs := hslugs
  grows := List.prefix_refl _
  selected i call masterKeys payload h := by cases h
  inserted i call h := by cases h
  apart i j call call' h := by cases h
  distinct := List.nodup_nil
  answered call out h := by cases h
  refused call h := by cases h

/-- A request that has no INSERT behind it takes another state. -/
theorem Sound.setRequest (h : Sound start s) (request : ℕ) {r : Option OrganizationRequest}
    (hselected : ∀ call masterKeys payload, r = some (.selected call masterKeys payload) →
      call.solve = .ok (masterKeys, payload))
    (hinserted : ∀ call, r ≠ some (.inserted call)) : Sound start (s.setRequest request r) := by
  have hother : ∀ {i call}, (s.setRequest request r).requests i = some (.inserted call) →
      s.requests i = some (.inserted call) := by
    intro i call hi
    simp only [OrganizationRace.setRequest] at hi
    split at hi
    · exact absurd hi (hinserted call)
    · exact hi
  refine { h with selected := ?_, inserted := ?_, apart := ?_ }
  · intro i call masterKeys payload hi
    simp only [OrganizationRace.setRequest] at hi
    split at hi
    · exact hselected call masterKeys payload hi
    · exact h.selected i call masterKeys payload hi
  · exact fun i call hi => h.inserted i call (hother hi)
  · exact fun i j call call' hi hj heq => h.apart i j call call' (hother hi) (hother hj) heq

/-- A request ends with an error. -/
theorem Sound.answer_error (h : Sound start s) (request : ℕ) {call : OrganizationCall}
    {failure : Failure}
    (hrefused : failure = slugConflict →
      ∃ masterKeys payload, call.solve = .ok (masterKeys, payload) ∧
        ∃ row ∈ s.rows, row.slug = payload.slug.val) :
    Sound start (s.answer request call (.error failure)) := by
  have hended := h.setRequest request (r := none) (fun _ _ _ heq => by cases heq)
    (fun _ heq => by cases heq)
  have hcreated : (s.answer request call (.error failure)).created = s.created := by
    rw [created_answer]
    exact List.append_nil _
  refine { hended with inserted := ?_, distinct := ?_, answered := ?_, refused := ?_ }
  · intro i call' hi
    rw [hcreated]
    exact hended.inserted i call' hi
  · rw [hcreated]
    exact h.distinct
  · intro call' out hmem
    rcases List.mem_append.mp hmem with hmem | hmem
    · exact h.answered call' out hmem
    · cases List.mem_singleton.mp hmem
  · intro call' hmem
    rcases List.mem_append.mp hmem with hmem | hmem
    · exact h.refused call' hmem
    · cases List.mem_singleton.mp hmem
      exact hrefused rfl

/-- The INSERT of a request is committed. -/
theorem Sound.insert (h : Sound start s) {request : ℕ} {call : OrganizationCall}
    {masterKeys : List Bytes} {payload : OrganizationCreate} {rows : List OrganizationRow}
    (hrequest : s.requests request = some (.selected call masterKeys payload))
    (hinsert : call.insert masterKeys payload s.rows = .ok rows) :
    Sound start { s.setRequest request (some (.inserted call)) with rows := rows } := by
  obtain ⟨row, hrow, rfl, hid, hslug⟩ := OrganizationCall.insert_ok hinsert
  have hmakes : call.Makes row :=
    ⟨masterKeys, payload, h.selected request call masterKeys payload hrequest, hrow⟩
  have hnew : ∀ r ∈ s.rows, r.id ≠ call.id := fun r hr => hmakes.id_eq ▸ free_iff.mp hid r hr
  have hstart : row ∉ start := fun hmem => free_iff.mp hid row (h.grows.subset hmem) rfl
  -- the requests whose INSERT is committed: this one and those there were
  have hcases : ∀ {i call'}, (s.setRequest request (some (.inserted call))).requests i =
      some (.inserted call') → (i = request ∧ call' = call) ∨
        (i ≠ request ∧ s.requests i = some (.inserted call')) := by
    intro i call' hi
    simp only [OrganizationRace.setRequest] at hi
    split at hi
    · next hsame =>
      cases hi
      exact .inl ⟨hsame, rfl⟩
    · next hother => exact .inr ⟨hother, hi⟩
  have hpending : ∀ {i call'}, s.requests i = some (.inserted call') → call'.id ≠ call.id := by
    intro i call' hi
    obtain ⟨⟨r, hr, -, hr'⟩, -⟩ := h.inserted i call' hi
    exact hr'.id_eq ▸ hnew r hr
  refine ⟨h.ids.concat hid, h.slugs.concat hslug, h.grows.trans (List.prefix_append _ _), ?_, ?_,
    ?_, h.distinct, ?_, ?_⟩
  · intro i call' keys posted hi
    simp only [OrganizationRace.setRequest] at hi
    split at hi
    · cases hi
    · exact h.selected i call' keys posted hi
  · intro i call' hi
    rcases hcases hi with ⟨-, rfl⟩ | ⟨-, hi⟩
    · refine ⟨⟨row, List.mem_append_right _ (List.mem_singleton_self _), hstart, hmakes⟩, ?_⟩
      intro hmem
      obtain ⟨out, hout, hid'⟩ := List.mem_map.mp hmem
      obtain ⟨a, ha, hok⟩ := List.mem_filterMap.mp hout
      obtain ⟨answered, reply⟩ := a
      cases reply with
      | error failure => cases hok
      | ok out' =>
        obtain rfl := Option.some.inj hok
        obtain ⟨r, hr, -, -, rfl⟩ := h.answered answered out' ha
        exact hnew r hr hid'
    · obtain ⟨⟨r, hr, hr'⟩, hnot⟩ := h.inserted i call' hi
      exact ⟨⟨r, List.mem_append_left _ hr, hr'⟩, hnot⟩
  · intro i j call₁ call₂ hi hj heq
    rcases hcases hi with ⟨hisame, hcall⟩ | ⟨-, hiother⟩
    · rcases hcases hj with ⟨hjsame, -⟩ | ⟨-, hjother⟩
      · rw [hisame, hjsame]
      · exact absurd (heq.symm.trans (congrArg _ hcall)) (hpending hjother)
    · rcases hcases hj with ⟨-, hcall⟩ | ⟨-, hjother⟩
      · exact absurd (heq.trans (congrArg _ hcall)) (hpending hiother)
      · exact h.apart i j call₁ call₂ hiother hjother heq
  · intro call' out hmem
    obtain ⟨r, hr, hr'⟩ := h.answered call' out hmem
    exact ⟨r, List.mem_append_left _ hr, hr'⟩
  · intro call' hmem
    obtain ⟨keys, posted, hsolve, r, hr, hr'⟩ := h.refused call' hmem
    exact ⟨keys, posted, hsolve, r, List.mem_append_left _ hr, hr'⟩

/-- The row of a request is loaded again, and shown. -/
theorem Sound.refresh (h : Sound start s) {request : ℕ} {call : OrganizationCall}
    (hrequest : s.requests request = some (.inserted call)) :
    Sound start (s.answer request call (call.refresh s.rows)) := by
  obtain ⟨⟨row, hrow, hstart, hmakes⟩, hnot⟩ := h.inserted request call hrequest
  have hrefresh : call.refresh s.rows = .ok (.of row) := by
    have hfound : rowById row.id s.rows = some row := rowById_of_mem h.ids hrow
    unfold OrganizationCall.refresh
    rw [← hmakes.id_eq, hfound]
    rfl
  have hended := h.setRequest request (r := none) (fun _ _ _ heq => by cases heq)
    (fun _ heq => by cases heq)
  have hcreated : (s.answer request call (call.refresh s.rows)).created =
      s.created ++ [.of row] := by
    rw [created_answer, hrefresh]
    rfl
  have hshown : (OrganizationOut.of row).id = call.id := hmakes.id_eq
  refine { hended with inserted := ?_, distinct := ?_, answered := ?_, refused := ?_ }
  · intro i call' hi
    refine ⟨(hended.inserted i call' hi).1, ?_⟩
    rw [hcreated, List.map_append, List.map_singleton, hshown]
    intro hmem
    rcases List.mem_append.mp hmem with hmem | hmem
    · exact (hended.inserted i call' hi).2 hmem
    · -- this request has ended, and no other one has inserted its id
      have hother : i ≠ request ∧ s.requests i = some (.inserted call') := by
        simp only [answer, OrganizationRace.setRequest] at hi
        split at hi
        · cases hi
        · next hne => exact ⟨hne, hi⟩
      exact hother.1 (h.apart i request call' call hother.2 hrequest (List.mem_singleton.mp hmem))
  · rw [hcreated, List.map_append, List.map_singleton, hshown]
    refine List.nodup_append.mpr ⟨h.distinct, List.nodup_singleton _, ?_⟩
    intro a ha b hb heq
    rw [List.mem_singleton.mp hb] at heq
    exact hnot (heq ▸ ha)
  · intro call' out hmem
    rcases List.mem_append.mp hmem with hmem | hmem
    · exact h.answered call' out hmem
    · rw [hrefresh] at hmem
      cases List.mem_singleton.mp hmem
      exact ⟨row, hrow, hstart, hmakes, rfl⟩
  · intro call' hmem
    rcases List.mem_append.mp hmem with hmem | hmem
    · exact h.refused call' hmem
    · rw [hrefresh] at hmem
      cases List.mem_singleton.mp hmem

/-- **One step.** -/
theorem Sound.step (h : Sound start s) (a : OrganizationAction) : Sound start (s.step a) := by
  cases a with
  | select request call =>
    simp only [OrganizationRace.step]
    split
    · exact h
    · split
      · next masterKeys payload hselect =>
        refine h.setRequest request (fun _ _ _ heq => ?_) (fun _ heq => by cases heq)
        cases heq
        exact OrganizationCall.select_ok hselect
      · next failure hselect =>
        refine h.answer_error request fun hconflict => ?_
        rw [hconflict] at hselect
        exact OrganizationCall.select_conflict hselect
  | insert request =>
    simp only [OrganizationRace.step]
    split
    · next call masterKeys payload hrequest =>
      split
      · next rows hinsert => exact h.insert hrequest hinsert
      · next failure hinsert =>
        refine h.answer_error request fun hconflict => ?_
        rw [hconflict] at hinsert
        exact absurd hinsert (call.insert_ne_conflict masterKeys payload s.rows)
    · exact h
  | refresh request =>
    simp only [OrganizationRace.step]
    split
    · next call hrequest => exact h.refresh hrequest
    · exact h
  | abandon request =>
    exact h.setRequest request (fun _ _ _ heq => by cases heq) (fun _ heq => by cases heq)

theorem sound_run (hids : Unique (fun row : OrganizationRow => row.id) start)
    (hslugs : Unique OrganizationRow.slug start) (actions : List OrganizationAction) :
    Sound start (run OrganizationRace.step { rows := start } actions) := by
  have hall : Along OrganizationRace.step (fun _ _ => True) { rows := start } actions :=
    .of_forall (fun _ _ => trivial) _
  exact run_invariant (fun _ a h _ => h.step a) (sound_start hids hslugs) hall

end OrganizationRace

/-- **Every slug is given once.** Requests to create organisations come in
any order and are interleaved in any way. Slugs and ids stay unique; of the
requests for one slug at most one is told that its organisation was
created, and it is shown the row that is stored, with what it posted; a
request is told of a conflict only if there is a row with its slug. -/
theorem slug_given_once {start : List OrganizationRow}
    (hids : Unique (fun row : OrganizationRow => row.id) start)
    (hslugs : Unique OrganizationRow.slug start) (actions : List OrganizationAction) :
    let s := run OrganizationRace.step { rows := start } actions
    Unique (fun row : OrganizationRow => row.id) s.rows ∧ Unique OrganizationRow.slug s.rows ∧
      (s.created.map (·.slug)).Nodup ∧
      (∀ call out, (call, .ok out) ∈ s.answers →
        ∃ row ∈ s.rows, row ∉ start ∧ call.Makes row ∧ out = .of row) ∧
      ∀ call, (call, .error slugConflict) ∈ s.answers →
        ∃ masterKeys payload, call.solve = .ok (masterKeys, payload) ∧
          ∃ row ∈ s.rows, row.slug = payload.slug.val := by
  intro s
  have h : OrganizationRace.Sound start s := OrganizationRace.sound_run hids hslugs actions
  refine ⟨h.ids, h.slugs, ?_, h.answered, h.refused⟩
  have hshown : ∀ out ∈ s.created, ∃ row ∈ s.rows, out = .of row := by
    intro out hout
    obtain ⟨⟨call, reply⟩, ha, hok⟩ := List.mem_filterMap.mp hout
    cases reply with
    | error failure => cases hok
    | ok shown =>
      obtain rfl := Option.some.inj hok
      obtain ⟨row, hrow, -, -, heq⟩ := h.answered call shown ha
      exact ⟨row, hrow, heq⟩
  -- two that were created with one slug have one row, so one id
  refine List.Nodup.map_on ?_ (List.Nodup.of_map _ h.distinct)
  intro a ha b hb heq
  obtain ⟨row, hrow, rfl⟩ := hshown a ha
  obtain ⟨row', hrow', rfl⟩ := hshown b hb
  rw [h.slugs.eq_of_key hrow hrow' heq]

/-- Two requests for one slug: the second looks it up before the first
inserts. -/
def acmeCall (id : Uuid) : OrganizationCall where
  env := plainEnvironment.withKeys [oldKey]
  id := id
  dataKey := newKey
  body := .valid ⟨⟨"Acme".toList, by decide⟩, ⟨"acme".toList, by decide⟩⟩

def acmeActions : List OrganizationAction :=
  [.select 0 (acmeCall 1), .select 1 (acmeCall 2), .insert 0, .insert 1, .refresh 0,
    .select 2 (acmeCall 3)]

/-- One is created, one fails at the INSERT, and the third is a conflict. -/
theorem acme_given_once :
    let s := run OrganizationRace.step { rows := [] } acmeActions
    (s.created.map (·.slug)).Nodup ∧ s.answers.map (·.2) =
      [.error .uncaught, .ok ⟨1, "Acme".toList, "acme".toList, "free_scan".toList⟩,
        .error slugConflict] := by
  have hids : Unique (fun row : OrganizationRow => row.id) [] := List.nodup_nil
  exact ⟨(slug_given_once hids List.nodup_nil acmeActions).2.2.1, by decide +kernel⟩

/-! ## What a new organisation can do -/

/-- `get_my_organization`: the row of `get_current_org`. -/
def getMyOrganization (xOrgId : Option Str) (rows : List OrganizationRow) :
    Except Failure OrganizationOut := do
  let org ← (getCurrentOrg xOrgId { organizations := rows.map (·.toOrganization) }).value
  orUncaught ((rowById org.id rows).map .of)

/-- The header with its own id shows an organisation its row. -/
theorem getMyOrganization_text {rows : List OrganizationRow}
    (hids : Unique (fun row : OrganizationRow => row.id) rows) {row : OrganizationRow}
    (hrow : row ∈ rows) : getMyOrganization (some row.id.text) rows = .ok (.of row) := by
  have hfound : rowById row.id rows = some row := rowById_of_mem hids hrow
  have horg : (rows.map fun r => r.toOrganization).find? (fun o => o.id == row.id) =
      some row.toOrganization := by
    rw [List.find?_map]
    exact congrArg (Option.map _) hfound
  have hcaller : (getCurrentOrg (some row.id.text)
      { organizations := rows.map (·.toOrganization) }).value = .ok row.toOrganization := by
    have hset : (some row.id.text).filter (· ≠ []) = some row.id.text := by
      have hne : row.id.text ≠ [] := by
        intro hnil
        have htext := uuidOfText_text row.id
        have hnone : uuidOfText [] = none := by decide
        rw [hnil, hnone] at htext
        cases htext
      rw [Option.filter_some, if_pos (decide_eq_true hne)]
    dsimp only [getCurrentOrg, Tenancy.Action.query, Database.organization]
    rw [hset]
    dsimp only
    rw [uuidOfText_text]
    dsimp only
    rw [horg]
  unfold getMyOrganization
  rw [hcaller]
  dsimp only [bind, Except.bind]
  rw [hfound]
  rfl

theorem getCrypto_isKey {env : Environment} {masterKeys : List Bytes}
    (h : getCrypto env = .ok masterKeys) :
    env.fernet.isKey (encodeStrict env.kmsMasterKey) = true := by
  unfold getCrypto at h
  split at h
  · cases h
  · split at h
    · assumption
    · cases h

/-- Whoever has the keys of the request can unwrap the data key. -/
theorem OrganizationCall.Makes.unwrap {call : OrganizationCall} {row : OrganizationRow}
    (h : call.Makes row) (hideal : IdealFernet call.env.fernet) :
    getCrypto call.env = .ok [encodeStrict call.env.kmsMasterKey] ∧
      call.env.fernet.unwrap [encodeStrict call.env.kmsMasterKey] row.wrappedDataKey =
        .ok call.dataKey.encoded := by
  obtain ⟨masterKeys, payload, hsolve, hrow⟩ := h
  obtain ⟨-, -, hsolve⟩ := bind_eq_ok.mp hsolve
  obtain ⟨keys, hkeys, hsolve⟩ := bind_eq_ok.mp hsolve
  obtain ⟨solved, -, hsolve⟩ := bind_eq_ok.mp hsolve
  cases hsolve
  obtain rfl := getCrypto_ok hkeys
  refine ⟨hkeys, ?_⟩
  obtain ⟨wrapped, hwrapped, rfl⟩ := OrganizationCall.row_ok hrow
  have hkey := getCrypto_isKey hkeys
  rw [wrap_of_isKey hkey] at hwrapped
  obtain rfl := Except.ok.inj hwrapped
  dsimp only
  have hdecrypt := hideal.decrypt_encrypt _ _ call.env.nonce call.dataKey.encoded hkey hkey
  rw [if_pos rfl] at hdecrypt
  simp [Fernet.unwrap, hkey, hdecrypt]

/-- With this data key every secret is sealed, and the worker reveals it. -/
theorem sealCredential_unwrap {env : Environment} (hideal : IdealFernet env.fernet)
    {org : Organization} {masterKeys : List Bytes} (hkeys : getCrypto env = .ok masterKeys)
    {key : MasterKey} (hunwrap : env.fernet.unwrap masterKeys org.wrappedDataKey = .ok key.encoded)
    (payload : CredentialCreate) :
    ∃ c, sealCredential env org masterKeys payload = .ok c ∧
      Worker.Vault.reveal ⟨env.fernet, key.encoded⟩ c.ciphertext = .ok payload.secret := by
  have hkey : env.fernet.isKey key.encoded = true := hideal.isKey_of_decode (decode_encoded key)
  have hsealed : ∃ c, sealCredential env org masterKeys payload = .ok c := by
    unfold sealCredential
    rw [hunwrap]
    dsimp only [Except.mapError, bind, Except.bind]
    rw [Fernet.encryptWith, hkey]
    exact ⟨_, rfl⟩
  obtain ⟨c, hc⟩ := hsealed
  obtain ⟨dataKey, hdataKey, hreveal⟩ := sealCredential_reveal hideal hkeys hc
  rw [← getCrypto_ok hkeys, hunwrap] at hdataKey
  obtain rfl := Except.ok.inj hdataKey
  exact ⟨c, hc, hreveal⟩

/-- **A created organisation is ready.** Its request was told its id; after
any further requests `/organizations/me` shows that id the organisation as
it was answered. And as long as the master key stays, every credential that
is posted for the organisation is sealed, and the worker, which unwraps the
same data key, reveals the secret. -/
theorem created_ready {start : List OrganizationRow}
    (hids : Unique (fun row : OrganizationRow => row.id) start)
    (hslugs : Unique OrganizationRow.slug start) (actions : List OrganizationAction)
    {call : OrganizationCall} {out : OrganizationOut} (hideal : IdealFernet call.env.fernet)
    (hout : (call, .ok out) ∈
      (run OrganizationRace.step { rows := start } actions).answers) :
    let rows := (run OrganizationRace.step { rows := start } actions).rows
    getMyOrganization (some out.id.text) rows = .ok out ∧
      ∃ row ∈ rows, row.id = out.id ∧
        ∀ env : Environment, env.fernet = call.env.fernet →
          env.kmsMasterKey = call.env.kmsMasterKey →
          ∃ masterKeys dataKey, getCrypto env = .ok masterKeys ∧
            env.fernet.unwrap masterKeys row.wrappedDataKey = .ok dataKey ∧
            ∀ payload : CredentialCreate,
              ∃ c, sealCredential env row.toOrganization masterKeys payload = .ok c ∧
                Worker.Vault.reveal ⟨env.fernet, dataKey⟩ c.ciphertext = .ok payload.secret := by
  intro rows
  have h := OrganizationRace.sound_run hids hslugs actions
  obtain ⟨row, hrow, -, hmakes, rfl⟩ := h.answered call out hout
  refine ⟨getMyOrganization_text h.ids hrow, row, hrow, rfl, fun env hfernet hkms => ?_⟩
  obtain ⟨hkeys, hunwrap⟩ := hmakes.unwrap hideal
  rw [← hkms, ← hfernet] at hunwrap
  have henv : getCrypto env = .ok [encodeStrict env.kmsMasterKey] := by
    unfold getCrypto at hkeys ⊢
    rw [hfernet, hkms]
    exact hkeys
  refine ⟨_, _, henv, hunwrap, sealCredential_unwrap (hfernet ▸ hideal) henv hunwrap⟩

/-- The organisation that has won its slug. -/
theorem acme_ready :
    let rows := (run OrganizationRace.step { rows := [] } acmeActions).rows
    getMyOrganization (some acmeHeader) rows =
      .ok ⟨1, "Acme".toList, "acme".toList, "free_scan".toList⟩ := by
  intro rows
  have hids : Unique (fun row : OrganizationRow => row.id) [] := List.nodup_nil
  have hheader : acmeHeader = Uuid.text 1 := by decide +kernel
  have hout : (acmeCall 1, .ok ⟨1, "Acme".toList, "acme".toList, "free_scan".toList⟩) ∈
      (run OrganizationRace.step { rows := [] } acmeActions).answers :=
    List.mem_cons_of_mem _ List.mem_cons_self
  rw [hheader]
  exact (created_ready hids List.nodup_nil acmeActions plainFernet_ideal hout).1

end Sentinel.Api
