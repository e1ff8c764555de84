/-
Sentinel.Worker.PersonaColumns — what the login phase assigns to the rows of
the personas, and the columns it goes into.

The commit behind the phase writes all rows at once, so one value that its
column does not take fails it for every persona. The clock gives a time with
a time zone and the column has none: `storable_iff`.
-/
import Sentinel.Worker.AuthEstablishing

namespace Sentinel.Worker

open Sentinel.Py Sentinel.Core Sentinel.Auth Sentinel.Db

/-! ## Columns -/

/-- The types of the columns the phase writes. -/
inductive ColumnType where
  | boolean
  | string (length : Nat)
  | dateTime (timezone : Bool)
  | largeBinary
  | jsonb
  deriving DecidableEq, Repr

/-- A `datetime`; an aware one has a `tzinfo`. -/
structure DateTime where
  time : Instant
  aware : Bool
  deriving DecidableEq, Repr

/-- `datetime.now(UTC)`. -/
def DateTime.nowUtc (now : Instant) : DateTime := ⟨now, true⟩

/-- A value of Python on its way into a column. -/
inductive ColumnValue where
  | none
  | bool (b : Bool)
  | str (s : Str)
  | dateTime (d : DateTime)
  | bytes (b : Str)
  | oracle (o : SessionOracle)
  deriving DecidableEq, Repr

/-- The database takes the value: Postgres no text that is too long, asyncpg
no time of the other kind. All these columns may be null but the first. -/
def ColumnType.Takes : ColumnType → ColumnValue → Prop
  | .boolean, .bool _ => True
  | .boolean, _ => False
  | _, .none => True
  | .string length, .str s => s.length ≤ length
  | .dateTime timezone, .dateTime d => d.aware = timezone
  | .largeBinary, .bytes _ => True
  | .jsonb, .oracle _ => True
  | _, _ => False

/-- The columns of `personas` the phase writes. -/
inductive PersonaColumn where
  | isAvailable
  | unavailableReason
  | sessionStateCiphertext
  | sessionStateUpdatedAt
  | sessionOracle
  deriving DecidableEq, Repr

/-- Their types, as `Persona` declares them and the migration creates them. -/
def PersonaColumn.type : PersonaColumn → ColumnType
  | .isAvailable => .boolean
  | .unavailableReason => .string 500
  | .sessionStateCiphertext => .largeBinary
  | .sessionStateUpdatedAt => .dateTime false
  | .sessionOracle => .jsonb

/-! ## Assignments -/

/-- A value that is assigned to a column of a row. -/
inductive Assignment where
  | isAvailable (value : Bool)
  | unavailableReason (value : Option Str)
  | sessionStateCiphertext (value : Str)
  | sessionStateUpdatedAt (value : DateTime)
  | sessionOracle (value : Option SessionOracle)
  deriving DecidableEq, Repr

def Assignment.column : Assignment → PersonaColumn
  | .isAvailable _ => .isAvailable
  | .unavailableReason _ => .unavailableReason
  | .sessionStateCiphertext _ => .sessionStateCiphertext
  | .sessionStateUpdatedAt _ => .sessionStateUpdatedAt
  | .sessionOracle _ => .sessionOracle

def Assignment.value : Assignment → ColumnValue
  | .isAvailable b => .bool b
  | .unavailableReason reason => (reason.map .str).getD .none
  | .sessionStateCiphertext ciphertext => .bytes ciphertext
  | .sessionStateUpdatedAt d => .dateTime d
  | .sessionOracle oracle => (oracle.map .oracle).getD .none

/-- The value fits its column. -/
def Assignment.Fits (a : Assignment) : Prop := a.column.type.Takes a.value

/-- The row with the value. -/
def Assignment.apply (row : Persona) : Assignment → Persona
  | .isAvailable b => { row with isAvailable := b }
  | .unavailableReason reason => { row with unavailableReason := reason }
  | .sessionStateCiphertext ciphertext => { row with sessionStateCiphertext := some ciphertext }
  | .sessionStateUpdatedAt d => { row with sessionStateUpdatedAt := some d.time }
  | .sessionOracle oracle => { row with sessionOracle := oracle }

/-- What a round of `_run_auth_establishing` assigns to its persona. -/
def assignments (v : Vault) (item : AuthItem) (result : PersonaAuthResult) : List Assignment :=
  .isAvailable result.available :: .unavailableReason result.unavailableReason ::
    if result.available then
      [.sessionStateCiphertext (v.fernet.encrypt v.dataKey item.2.nonce
          (encodeStrict (result.storageState.getD "null".toList))),
        .sessionStateUpdatedAt (.nowUtc item.2.now),
        .sessionOracle result.sessionOracle]
    else []

/-- They make the row that is written. -/
theorem foldl_assignments (v : Vault) (item : AuthItem) (result : PersonaAuthResult) :
    (assignments v item result).foldl Assignment.apply item.1.row = loggedRow v item result := by
  unfold assignments loggedRow
  cases result.available with
  | true => rfl
  | false => rfl

/-- **A time with a time zone fits no column of the phase.** -/
theorem not_fits_updatedAt (now : Instant) :
    ¬ (Assignment.sessionStateUpdatedAt (.nowUtc now)).Fits := by
  intro h
  cases (h : true = false)

/-! ## The phase -/

section

variable [PyRuntime]

/-- What the phase assigns to the row of a persona. -/
def AuthSetup.assigned (s : AuthSetup) (v : Vault) (item : AuthItem) : List Assignment :=
  match s.outcome v item with
  | .ok result => assignments v item result
  | .error _ => []

/-- **The rows of a run** that raises nothing are the personas' with what was
assigned. -/
theorem runAuthEstablishing_assigned {s : AuthSetup} {v : Vault} (hv : s.vault = .ok v)
    {items : List AuthItem} (hend : (s.runAuthEstablishing items).2 = none) :
    (s.runAuthEstablishing items).1.personas =
      items.map fun item => (s.assigned v item).foldl Assignment.apply item.1.row := by
  rw [runAuthEstablishing_rows hv hend]
  refine List.map_congr_left fun item _ => ?_
  unfold AuthSetup.rowOf AuthSetup.assigned
  cases s.outcome v item with
  | ok result => exact (foldl_assignments v item result).symm
  | error e => rfl

/-- Every value the phase assigns fits its column, so that the commit does
not fail for what came of the logins. -/
def AuthSetup.Storable (s : AuthSetup) (v : Vault) (items : List AuthItem) : Prop :=
  ∀ item ∈ items, ∀ a ∈ s.assigned v item, a.Fits

/-- The persona does not get logged in: something is not configured, or the
replay failed with a text of at most 479 characters, which leaves room for
the words before it. -/
def StaysOut (v : Vault) (persona : ConfiguredPersona) (browser : BrowserRun) : Prop :=
  ∀ raw ciphertext recipe ref plaintext, persona.loginRecipe.filter (· ≠ {}) = some raw →
    persona.credential = some ciphertext → buildLoginRecipe raw = .ok recipe →
    secretRef recipe = some ref → v.reveal ciphertext = .ok plaintext →
    ∃ error, browser.replay recipe [(ref, ⟨ref, plaintext⟩)] = .ok (.failure error) ∧
      error.length ≤ 479

theorem replayLogin_refuses_iff {persona : ConfiguredPersona} {browser : BrowserRun}
    {recipe : LoginRecipe} {ref plaintext : Str} {login : Login}
    (h : replayLogin persona browser recipe ref plaintext = .ok login) :
    (∃ reason, login = .refused reason ∧ reason.length ≤ 500) ↔
      ∃ error, browser.replay recipe [(ref, ⟨ref, plaintext⟩)] = .ok (.failure error) ∧
        error.length ≤ 479 := by
  obtain ⟨result, hresult, hlogin⟩ := bind_eq_ok.mp h
  rw [mapError_eq_ok.mp hresult]
  cases result with
  | failure error =>
    obtain rfl := Except.ok.inj hlogin
    have hlength : ("Login replay failed: ".toList ++ error).length = 21 + error.length := by
      rw [List.length_append]
      rfl
    constructor
    · rintro ⟨reason, heq, hreason⟩
      obtain rfl := Login.refused.inj heq
      exact ⟨error, rfl, by omega⟩
    · rintro ⟨error', heq, herror⟩
      obtain rfl : error = error' := by simpa using heq
      exact ⟨_, rfl, by omega⟩
  | success state =>
    obtain ⟨parts, -, hlogin⟩ := bind_eq_ok.mp hlogin
    obtain rfl := Except.ok.inj hlogin
    constructor
    · rintro ⟨reason, heq, -⟩
      cases heq
    · rintro ⟨error, heq, -⟩
      cases heq

omit [PyRuntime] in
theorem Unconfigured.length_le {reason : Str} (h : Unconfigured reason) : reason.length ≤ 500 := by
  cases h with
  | recipe => decide +kernel
  | credential => decide +kernel
  | secret => decide +kernel

/-- A login that comes back refuses for a short reason exactly if the
persona stays out. -/
theorem logInPersona_refuses_iff {v : Vault} {persona : ConfiguredPersona} {browser : BrowserRun}
    {login : Login} (h : logInPersona v persona browser = .ok login) :
    (∃ reason, login = .refused reason ∧ reason.length ≤ 500) ↔ StaysOut v persona browser := by
  rcases logInPersona_cases h with ⟨reason, hreason, rfl, hnot⟩ |
    ⟨raw, ciphertext, recipe, ref, plaintext, hw, hlogin⟩
  · constructor
    · intro _ raw ciphertext recipe ref plaintext hstored hcredential hbuilt hsecret hplaintext
      exact absurd ⟨hstored, hcredential, hbuilt, hsecret, hplaintext⟩
        (hnot raw ciphertext recipe ref plaintext)
    · intro _
      exact ⟨reason, rfl, hreason.length_le⟩
  · rw [replayLogin_refuses_iff hlogin]
    constructor
    · intro hfails raw' ciphertext' recipe' ref' plaintext' hstored hcredential hbuilt hsecret
        hplaintext
      obtain rfl := Option.some.inj (hw.stored.symm.trans hstored)
      obtain rfl := Option.some.inj (hw.credential.symm.trans hcredential)
      obtain rfl := Except.ok.inj (hw.built.symm.trans hbuilt)
      obtain rfl := Option.some.inj (hw.secret.symm.trans hsecret)
      obtain rfl := Except.ok.inj (hw.plaintext.symm.trans hplaintext)
      exact hfails
    · intro hout
      exact hout raw ciphertext recipe ref plaintext hw.stored hw.credential hw.built hw.secret
        hw.plaintext

/-- One persona's values fit exactly if it stays out. -/
theorem assigned_fits_iff {s : AuthSetup} {v : Vault} {item : AuthItem}
    {result : PersonaAuthResult} (hresult : s.outcome v item = .ok result) :
    (∀ a ∈ s.assigned v item, a.Fits) ↔ StaysOut v item.1 item.2.browser := by
  have hassigned : s.assigned v item = assignments v item result := by
    rw [AuthSetup.assigned, hresult]
  rw [hassigned]
  unfold AuthSetup.outcome establishPersona at hresult
  cases hlogin : logInPersona v item.1 item.2.browser with
  | error e =>
    rw [hlogin] at hresult
    exact nomatch hresult
  | ok login =>
    rw [← logInPersona_refuses_iff hlogin]
    rw [hlogin] at hresult
    cases login with
    | refused reason =>
      obtain rfl := Except.ok.inj hresult
      constructor
      · intro h
        refine ⟨reason, rfl, h (.unavailableReason (some reason)) ?_⟩
        simp [assignments, unavailable]
      · rintro ⟨reason', heq, hlength⟩ a ha
        obtain rfl := Login.refused.inj heq
        simp only [assignments, unavailable, Bool.false_eq_true, if_false, List.mem_cons,
          List.not_mem_nil, or_false] at ha
        rcases ha with rfl | rfl
        · trivial
        · exact hlength
    | accepted state session =>
      obtain ⟨oracle, -, rfl⟩ := map_eq_ok.mp (mapError_eq_ok.mp hresult)
      constructor
      · intro h
        refine absurd (h (.sessionStateUpdatedAt (.nowUtc item.2.now)) ?_) (not_fits_updatedAt _)
        simp [assignments]
      · rintro ⟨reason, heq, -⟩
        cases heq

/-- **When what came of the logins can be stored**: when no persona gets
logged in, and no replay fails with a text of more than 479 characters. -/
theorem storable_iff {s : AuthSetup} {v : Vault} (hv : s.vault = .ok v) {items : List AuthItem}
    (hend : (s.runAuthEstablishing items).2 = none) :
    s.Storable v items ↔ ∀ item ∈ items, StaysOut v item.1 item.2.browser := by
  refine forall₂_congr fun item hitem => ?_
  rw [runAuthEstablishing_of_vault hv, Loop.runUntil_returns_iff (establishStep_returns_iff s v)]
    at hend
  obtain ⟨result, hresult⟩ := outcome_returns_iff.mpr (hend item hitem)
  exact assigned_fits_iff hresult

end

/-- Of a persona without a recipe the reason is stored. -/
theorem storable_iff_noRecipe :
    let _ := PyRuntime.ascii
    acmeSetup.Storable ⟨sealedFernet, [107]⟩
        [({ acmePersona "carol" "k:hunter2" with loginRecipe := none }, smoothEnv [])] ↔
      ∀ item ∈ [({ acmePersona "carol" "k:hunter2" with loginRecipe := none }, smoothEnv [])],
        StaysOut ⟨sealedFernet, [107]⟩ (Prod.fst item) item.2.browser := by
  intro runtime
  exact storable_iff rfl (by decide +kernel)

/-- Alice gets logged in, and the time of her session has a time zone. -/
theorem loggedIn_storable_not :
    let _ := PyRuntime.ascii
    acmeSetup.vault = .ok ⟨sealedFernet, [107]⟩ ∧
      (acmeSetup.runAuthEstablishing [(acmePersona "alice" "k:hunter2", smoothEnv [])]).2 = none ∧
      ¬ acmeSetup.Storable ⟨sealedFernet, [107]⟩
        [(acmePersona "alice" "k:hunter2", smoothEnv [])] := by
  intro runtime
  refine ⟨rfl, by decide +kernel, fun h => not_fits_updatedAt 0 ?_⟩
  refine h _ (List.mem_singleton_self _) _ ?_
  decide +kernel

end Sentinel.Worker
