/-
Sentinel.Api.KeyRotation — master keys that are replaced one by one.

The API and the worker each make a provider of `KMS_MASTER_KEY`, and both
give it the whole text as one key. `rotation_iff` says for which lists of
keys that serves, and in which rotations the credentials stay readable.
-/
import Sentinel.Api.Routes
import Sentinel.Core.MasterKeys
import Sentinel.Trace.Run
import Sentinel.Worker.AuthEstablishing

namespace Sentinel.Api

open Sentinel.Py Sentinel.Core Sentinel.Trace

/-! ## The two providers -/

/-- Where a master key provider is made. -/
inductive CryptoSite where
  | api
  | worker
  deriving DecidableEq, Repr

/-- The keys the provider gets: `get_crypto`, or the first lines of
`_run_auth_establishing`. -/
def CryptoSite.masterKeys (env : Environment) : CryptoSite → Except Failure (List Bytes)
  | .api => getCrypto env
  | .worker => .ok [encodeStrict env.kmsMasterKey]

/-- `EnvelopeCrypto.unwrap_data_key`. -/
def CryptoSite.unwrapDataKey (site : CryptoSite) (env : Environment) (wrapped : Str) :
    Except Failure Bytes := do
  (env.fernet.unwrap (← site.masterKeys env) wrapped).mapError fun _ => .uncaught

/-- `EnvelopeCrypto.wrap_data_key`. -/
def CryptoSite.wrapDataKey (site : CryptoSite) (env : Environment) (nonce : Str)
    (dataKey : Bytes) : Except Failure Str := do
  (env.fernet.wrap (← site.masterKeys env) nonce dataKey).mapError fun _ => .uncaught

/-- The data key the worker gets from its provider is the one of its vault. -/
theorem unwrapDataKey_worker {env : Environment} {s : Worker.AuthSetup}
    (hfernet : s.fernet = env.fernet) (hkeys : s.kmsMasterKey = env.kmsMasterKey)
    {dataKey : Bytes} :
    CryptoSite.worker.unwrapDataKey env s.wrappedDataKey = .ok dataKey ↔
      s.vault = .ok ⟨s.fernet, dataKey⟩ := by
  have hsite : CryptoSite.worker.unwrapDataKey env s.wrappedDataKey =
      (s.fernet.unwrap [encodeStrict s.kmsMasterKey] s.wrappedDataKey).mapError
        fun _ => .uncaught := by
    rw [hfernet, hkeys]
    rfl
  unfold Worker.AuthSetup.vault
  rw [hsite]
  cases s.fernet.unwrap [encodeStrict s.kmsMasterKey] s.wrappedDataKey with
  | error e => exact ⟨fun h => (nomatch h), fun h => (nomatch h)⟩
  | ok key =>
    constructor
    · intro h
      rw [← Except.ok.inj h]
      rfl
    · intro h
      injection (Except.ok.inj h : (⟨s.fernet, key⟩ : Worker.Vault) = ⟨s.fernet, dataKey⟩)
        with _ hkey
      rw [← hkey]
      rfl

/-- The environment with these keys in `KMS_MASTER_KEY`. -/
def Environment.withKeys (env : Environment) (keys : List MasterKey) : Environment :=
  { env with kmsMasterKey := masterKeyText keys }

/-- Both providers unwrap what any of the keys wrapped, and what they wrap
the first key unwraps alone. -/
structure KeysServe (env : Environment) (first : MasterKey) (older : List MasterKey) : Prop where
  unwraps : ∀ (site : CryptoSite), ∀ key ∈ first :: older, ∀ nonce dataKey,
    site.unwrapDataKey (env.withKeys (first :: older))
      (env.fernet.encrypt key.encoded nonce dataKey) = .ok dataKey
  wraps : ∀ (site : CryptoSite) nonce dataKey, ∃ wrapped,
    site.wrapDataKey (env.withKeys (first :: older)) nonce dataKey = .ok wrapped ∧
      env.fernet.unwrap [first.encoded] wrapped = .ok dataKey

/-! ## What a provider does -/

variable {env : Environment}

theorem masterKeyText_ne_nil (first : MasterKey) (older : List MasterKey) :
    masterKeyText (first :: older) ≠ [] := by
  intro h
  have hdecoded := decode_masterKeyText first older
  rw [h] at hdecoded
  have hnil : first.material = [] := (Option.some.inj hdecoded).symm
  have hlength := first.length_eq
  rw [hnil] at hlength
  cases hlength

/-- Both providers have the whole text as their one key. -/
theorem masterKeys_withKeys (h : IdealFernet env.fernet) (site : CryptoSite) (first : MasterKey)
    (older : List MasterKey) :
    site.masterKeys (env.withKeys (first :: older)) =
      .ok [encodeStrict (masterKeyText (first :: older))] := by
  cases site with
  | api =>
    have hset : (env.withKeys (first :: older)).kmsMasterKey ≠ [] := masterKeyText_ne_nil first older
    show getCrypto _ = _
    rw [getCrypto, if_neg hset]
    exact if_pos (h.isKey_text first older)
  | worker => rfl

/-- **A provider unwraps** what the first key wrapped, and nothing else. -/
theorem unwrapDataKey_encrypt (h : IdealFernet env.fernet) (site : CryptoSite) (first : MasterKey)
    (older : List MasterKey) {bytes : Bytes} {key : MasterKey}
    (hbytes : urlsafeB64decode bytes = some key.material) (nonce : Str) (dataKey : Bytes) :
    site.unwrapDataKey (env.withKeys (first :: older)) (env.fernet.encrypt bytes nonce dataKey) =
      if key = first then .ok dataKey else .error .uncaught := by
  have hsite : site.unwrapDataKey (env.withKeys (first :: older))
      (env.fernet.encrypt bytes nonce dataKey) =
        (env.fernet.unwrap [encodeStrict (masterKeyText (first :: older))]
          (env.fernet.encrypt bytes nonce dataKey)).mapError fun _ => .uncaught := by
    rw [CryptoSite.unwrapDataKey, masterKeys_withKeys h]
    rfl
  rw [hsite, h.unwrap_encrypt (decode_masterKeyText first older) hbytes]
  split <;> rfl

/-- A provider wraps with the first key. -/
theorem wrapDataKey_withKeys (h : IdealFernet env.fernet) (site : CryptoSite) (first : MasterKey)
    (older : List MasterKey) (nonce : Str) (dataKey : Bytes) :
    site.wrapDataKey (env.withKeys (first :: older)) nonce dataKey =
      .ok (env.fernet.encrypt (encodeStrict (masterKeyText (first :: older))) nonce dataKey) := by
  have hsite : site.wrapDataKey (env.withKeys (first :: older)) nonce dataKey =
      (env.fernet.wrap [encodeStrict (masterKeyText (first :: older))] nonce dataKey).mapError
        fun _ => .uncaught := by
    rw [CryptoSite.wrapDataKey, masterKeys_withKeys h]
    rfl
  rw [hsite, wrap_of_isKey (h.isKey_text first older)]
  rfl

/-- **A list of keys serves** exactly if it lists one key. -/
theorem keysServe_iff (h : IdealFernet env.fernet) (first : MasterKey) (older : List MasterKey) :
    KeysServe env first older ↔ ∀ key ∈ older, key = first := by
  constructor
  · intro hserve key hkey
    have hunwrap := hserve.unwraps .api key (List.mem_cons_of_mem first hkey) [] []
    rw [unwrapDataKey_encrypt h .api first older (decode_encoded key)] at hunwrap
    by_contra hne
    rw [if_neg hne] at hunwrap
    cases hunwrap
  · intro hsame
    constructor
    case unwraps =>
      intro site key hkey nonce dataKey
      have hfirst : key = first := (List.mem_cons.mp hkey).elim id (hsame key)
      rw [unwrapDataKey_encrypt h site first older (decode_encoded key), if_pos hfirst]
    case wraps =>
      intro site nonce dataKey
      refine ⟨_, wrapDataKey_withKeys h site first older nonce dataKey, ?_⟩
      rw [h.unwrap_encrypt (decode_encoded first) (decode_masterKeyText first older), if_pos rfl]

/-! ## Rotations -/

/-- An organisation: its data key, the wrapped form that is stored, and the
ciphertexts of its personas' credentials with the secrets in them. -/
structure StoredOrg where
  dataKey : Bytes
  wrapped : Str
  credentials : List (Str × Str)
  deriving DecidableEq

/-- The keys in `KMS_MASTER_KEY`, the newest first, and the organisations. -/
structure Deployment where
  first : MasterKey
  older : List MasterKey
  orgs : List StoredOrg

inductive RotationStep where
  | prepend (key : MasterKey)
  | rewrap (site : CryptoSite) (org : ℕ) (nonce : Str)
  | drop (old : ℕ)

/-- The environment with the keys of the deployment. -/
def Deployment.environment (d : Deployment) (env : Environment) : Environment :=
  env.withKeys (d.first :: d.older)

/-- The data key is unwrapped and wrapped anew; if that raises, the stored
form stays. -/
def StoredOrg.rewrap (o : StoredOrg) (site : CryptoSite) (env : Environment) (nonce : Str) :
    StoredOrg :=
  match (do site.wrapDataKey env nonce (← site.unwrapDataKey env o.wrapped)) with
  | .ok wrapped => { o with wrapped := wrapped }
  | .error _ => o

/-- One step of a rotation. The first key is not an old one. -/
def Deployment.step (env : Environment) (d : Deployment) : RotationStep → Deployment
  | .prepend key => { d with first := key, older := d.first :: d.older }
  | .rewrap site org nonce =>
      { d with orgs := d.orgs.modify org fun o => o.rewrap site (d.environment env) nonce }
  | .drop old => { d with older := d.older.eraseIdx old }

/-- The worker reads a credential. -/
def StoredOrg.reveal (o : StoredOrg) (env : Environment) (ciphertext : Str) : Option Str :=
  match CryptoSite.worker.unwrapDataKey env o.wrapped with
  | .ok dataKey => (Worker.Vault.reveal ⟨env.fernet, dataKey⟩ ciphertext).toOption
  | .error _ => none

/-- Every credential decrypts to its plaintext. -/
def Deployment.Readable (env : Environment) (d : Deployment) : Prop :=
  ∀ o ∈ d.orgs, ∀ c ∈ o.credentials, o.reveal (d.environment env) c.1 = some c.2

/-- The organisation's data key is one, the given master key has wrapped it,
and it has encrypted the credentials. -/
structure StoredOrg.SealedUnder (f : Fernet) (key : MasterKey) (o : StoredOrg) : Prop where
  isKey : f.isKey o.dataKey = true
  wrapped : ∃ bytes nonce, urlsafeB64decode bytes = some key.material ∧
    o.wrapped = f.encrypt bytes nonce o.dataKey
  credentials : ∀ c ∈ o.credentials, ∃ nonce, c.1 = f.encrypt o.dataKey nonce (encodeStrict c.2)

/-- The first key has wrapped every data key. -/
def Deployment.Sealed (env : Environment) (d : Deployment) : Prop :=
  ∀ o ∈ d.orgs, o.SealedUnder env.fernet d.first

/-- An organisation is readable behind the key that wrapped its data key. -/
theorem reveal_of_sealed (h : IdealFernet env.fernet) {key : MasterKey} {o : StoredOrg}
    (ho : o.SealedUnder env.fernet key) (first : MasterKey) (older : List MasterKey)
    {c : Str × Str} (hc : c ∈ o.credentials) :
    o.reveal (env.withKeys (first :: older)) c.1 = if key = first then some c.2 else none := by
  obtain ⟨bytes, nonce, hbytes, hwrapped⟩ := ho.wrapped
  obtain ⟨nonce', hciphertext⟩ := ho.credentials c hc
  rw [StoredOrg.reveal, hwrapped, unwrapDataKey_encrypt h .worker first older hbytes]
  by_cases hfirst : key = first
  · rw [if_pos hfirst, if_pos hfirst]
    have hdecrypt : env.fernet.decryptWith o.dataKey c.1 = .ok (encodeStrict c.2) := by
      rw [Fernet.decryptWith, ho.isKey, hciphertext,
        h.decrypt_encrypt _ _ nonce' (encodeStrict c.2) ho.isKey ho.isKey, if_pos rfl]
      rfl
    have hreveal : Worker.Vault.reveal ⟨env.fernet, o.dataKey⟩ c.1 = .ok c.2 := by
      unfold Worker.Vault.reveal
      rw [hdecrypt]
      dsimp only [Except.mapError, bind, Except.bind]
      rw [decodeStrict_encodeStrict]
      rfl
    show (Worker.Vault.reveal ⟨env.fernet, o.dataKey⟩ c.1).toOption = _
    rw [hreveal]
    rfl
  · rw [if_neg hfirst, if_neg hfirst]

/-! ## Runs -/

theorem map_modify_of_eq {α β : Type} {f : α → α} {g : α → β} (h : ∀ a, g (f a) = g a)
    (xs : List α) (i : ℕ) : (xs.modify i f).map g = xs.map g := by
  induction xs generalizing i with
  | nil => rw [List.modify_nil]
  | cons x xs ih =>
    cases i with
    | zero => rw [List.modify_zero_cons, List.map_cons, h, List.map_cons]
    | succ i => rw [List.modify_succ_cons, List.map_cons, ih, List.map_cons]

theorem forall_mem_modify {α : Type} {p : α → Prop} {f : α → α} (hf : ∀ a, p a → p (f a))
    {xs : List α} (h : ∀ a ∈ xs, p a) (i : ℕ) : ∀ a ∈ xs.modify i f, p a := by
  induction xs generalizing i with
  | nil => simp
  | cons x xs ih =>
    obtain ⟨hx, hxs⟩ := List.forall_mem_cons.mp h
    cases i with
    | zero =>
      rw [List.modify_zero_cons]
      exact List.forall_mem_cons.mpr ⟨hf x hx, hxs⟩
    | succ i =>
      rw [List.modify_succ_cons]
      exact List.forall_mem_cons.mpr ⟨hx, ih hxs i⟩

theorem rewrap_credentials (site : CryptoSite) (env : Environment) (nonce : Str) (o : StoredOrg) :
    (o.rewrap site env nonce).credentials = o.credentials := by
  unfold StoredOrg.rewrap
  split <;> rfl

/-- A step leaves the credentials alone. -/
theorem step_credentials (env : Environment) (d : Deployment) (a : RotationStep) :
    (d.step env a).orgs.map StoredOrg.credentials = d.orgs.map StoredOrg.credentials := by
  cases a with
  | prepend key => rfl
  | rewrap site org nonce => exact map_modify_of_eq (rewrap_credentials site _ nonce) d.orgs org
  | drop old => rfl

/-- What the first key has wrapped is wrapped anew with the first key. -/
theorem rewrap_sealed (h : IdealFernet env.fernet) (site : CryptoSite) {first : MasterKey}
    (older : List MasterKey) (nonce : Str) {o : StoredOrg} (ho : o.SealedUnder env.fernet first) :
    (o.rewrap site (env.withKeys (first :: older)) nonce).SealedUnder env.fernet first := by
  obtain ⟨bytes, nonce', hbytes, hwrapped⟩ := ho.wrapped
  have hunwrap : site.unwrapDataKey (env.withKeys (first :: older)) o.wrapped = .ok o.dataKey := by
    rw [hwrapped, unwrapDataKey_encrypt h site first older hbytes, if_pos rfl]
  have hrewrap : o.rewrap site (env.withKeys (first :: older)) nonce =
      { o with wrapped :=
          env.fernet.encrypt (encodeStrict (masterKeyText (first :: older))) nonce o.dataKey } := by
    unfold StoredOrg.rewrap
    rw [hunwrap]
    show (match site.wrapDataKey (env.withKeys (first :: older)) nonce o.dataKey with
      | .ok wrapped => { o with wrapped := wrapped }
      | .error _ => o) = _
    rw [wrapDataKey_withKeys h site first older]
  rw [hrewrap]
  exact ⟨ho.isKey, ⟨_, nonce, decode_masterKeyText first older, rfl⟩, ho.credentials⟩

/-- The step puts no other key in front. -/
def RotationStep.Keeps (first : MasterKey) : RotationStep → Prop
  | .prepend key => key = first
  | _ => True

/-- Such a step keeps all data keys wrapped by the first key. -/
theorem Deployment.Sealed.step (h : IdealFernet env.fernet) {d : Deployment} (hd : d.Sealed env)
    {a : RotationStep} (ha : a.Keeps d.first) :
    (d.step env a).Sealed env ∧ (d.step env a).first = d.first := by
  cases a with
  | prepend key =>
    have hkey : key = d.first := ha
    rw [hkey]
    exact ⟨hd, rfl⟩
  | rewrap site org nonce =>
    exact ⟨forall_mem_modify (fun o ho => rewrap_sealed h site d.older nonce ho) hd org, rfl⟩
  | drop old => exact ⟨hd, rfl⟩

theorem Deployment.Sealed.readable (h : IdealFernet env.fernet) {d : Deployment}
    (hd : d.Sealed env) : d.Readable env := by
  intro o ho c hc
  rw [Deployment.environment, reveal_of_sealed h (hd o ho) d.first d.older hc, if_pos rfl]

/-- Behind another key in front nothing is readable. -/
theorem not_readable_prepend (h : IdealFernet env.fernet) {d : Deployment} (hd : d.Sealed env)
    {key : MasterKey} (hkey : key ≠ d.first) (hreadable : (d.step env (.prepend key)).Readable env) :
    ∀ o ∈ d.orgs, o.credentials = [] := by
  intro o ho
  refine List.eq_nil_iff_forall_not_mem.mpr fun c hc => ?_
  have hc' := hreadable o ho c hc
  have hnone := reveal_of_sealed h (hd o ho) key (d.first :: d.older) hc
  rw [if_neg (Ne.symm hkey)] at hnone
  exact nomatch hnone.symm.trans hc'

/-- Nothing is stored. -/
def Deployment.Empty (d : Deployment) : Prop := ∀ o ∈ d.orgs, o.credentials = []

theorem empty_step (env : Environment) (d : Deployment) (a : RotationStep) :
    (d.step env a).Empty ↔ d.Empty := by
  have hiff : ∀ d : Deployment, d.Empty ↔ ∀ cs ∈ d.orgs.map StoredOrg.credentials, cs = [] := by
    intro d
    rw [List.forall_mem_map]
    rfl
  rw [hiff, step_credentials, ← hiff]

theorem Deployment.Empty.readable {d : Deployment} (hd : d.Empty) : d.Readable env := by
  intro o ho c hc
  rw [hd o ho] at hc
  cases hc

theorem Deployment.Empty.run {d : Deployment} (hd : d.Empty) (steps : List RotationStep) :
    (run (Deployment.step env) d steps).Empty := by
  induction steps generalizing d with
  | nil => exact hd
  | cons a steps ih => exact ih ((empty_step env d a).mpr hd)

/-- Every credential is readable at every step of the run. -/
def ReadableThroughout (env : Environment) (d : Deployment) (steps : List RotationStep) : Prop :=
  ∀ done, done <+: steps → (run (Deployment.step env) d done).Readable env

theorem readableThroughout_cons {d : Deployment} {a : RotationStep} {steps : List RotationStep} :
    ReadableThroughout env d (a :: steps) ↔
      d.Readable env ∧ ReadableThroughout env (d.step env a) steps := by
  constructor
  · intro h
    exact ⟨h [] List.nil_prefix, fun done hdone => h (a :: done) (List.prefix_cons_inj a |>.mpr hdone)⟩
  · rintro ⟨hd, hrest⟩ done hdone
    rcases List.prefix_cons_iff.mp hdone with rfl | ⟨rest, rfl, hprefix⟩
    · exact hd
    · exact hrest rest hprefix

/-- **The credentials stay readable** exactly if there are none, or no other
key is ever put in front. -/
theorem readableThroughout_iff (h : IdealFernet env.fernet) {d : Deployment} (hd : d.Sealed env)
    (steps : List RotationStep) :
    ReadableThroughout env d steps ↔ d.Empty ∨ ∀ a ∈ steps, a.Keeps d.first := by
  induction steps generalizing d with
  | nil =>
    refine ⟨fun _ => .inr fun _ ha => (nomatch ha), fun _ done hdone => ?_⟩
    rw [List.prefix_nil.mp hdone]
    exact hd.readable h
  | cons a steps ih =>
    rw [readableThroughout_cons, List.forall_mem_cons]
    by_cases ha : a.Keeps d.first
    · obtain ⟨hnext, hfirst⟩ := hd.step h ha
      rw [ih hnext, hfirst, empty_step]
      constructor
      · exact fun ⟨_, hrest⟩ => hrest.imp_right fun hrest => ⟨ha, hrest⟩
      · exact fun hrest => ⟨hd.readable h, hrest.imp_right And.right⟩
    · constructor
      · rintro ⟨-, hrest⟩
        cases a with
        | prepend key => exact .inl (not_readable_prepend h hd ha (hrest [] List.nil_prefix))
        | rewrap site org nonce => exact absurd trivial ha
        | drop old => exact absurd trivial ha
      · rintro (hempty | ⟨hkeeps, -⟩)
        · exact ⟨hempty.readable, fun done _ =>
            Deployment.Empty.readable (((empty_step env d a).mpr hempty).run done)⟩
        · exact absurd hkeeps ha

/-- **Rotation.** A list of master keys serves exactly if it lists one key;
and the credentials stay readable in a rotation exactly if there are none,
or the key that is put in front is the one that is there. -/
theorem rotation_iff (h : IdealFernet env.fernet) :
    (∀ first older, KeysServe env first older ↔ ∀ key ∈ older, key = first) ∧
      ∀ d steps, Deployment.Sealed env d →
        (ReadableThroughout env d steps ↔
          d.Empty ∨ ∀ key, RotationStep.prepend key ∈ steps → key = d.first) := by
  refine ⟨keysServe_iff h, fun d steps hd => ?_⟩
  rw [readableThroughout_iff h hd]
  refine or_congr_right ⟨fun hkeeps key hkey => hkeeps (.prepend key) hkey, fun hsame a ha => ?_⟩
  cases a with
  | prepend key => exact hsame key ha
  | rewrap site org nonce => trivial
  | drop old => trivial

/-! ## Two keys -/

def oldKey : MasterKey := ⟨List.replicate 32 0, by decide⟩

def newKey : MasterKey := ⟨List.replicate 32 1, by decide⟩

/-- An environment with an ideal Fernet. -/
def plainEnvironment : Environment where
  kmsMasterKey := []
  fernet := plainFernet
  nonce := []
  ids := ⟨11, 12, 13, 14, 15⟩
  tokenBytes := 0
  now := 0
  verifyOwnership _ _ _ := .ok ⟨false, []⟩
  bindUuid := uuidOfText

/-- An organisation whose data key the old key has wrapped, with one
credential. -/
def rotatedOrg : StoredOrg where
  dataKey := newKey.encoded
  wrapped := plainFernet.encrypt oldKey.encoded [] newKey.encoded
  credentials := [(plainFernet.encrypt newKey.encoded [] (encodeStrict "hunter2".toList),
    "hunter2".toList)]

theorem rotatedOrg_sealed : rotatedOrg.SealedUnder plainFernet oldKey where
  isKey := plainFernet_ideal.isKey_of_decode (decode_encoded newKey)
  wrapped := ⟨oldKey.encoded, [], decode_encoded oldKey, rfl⟩
  credentials c hc := by
    rw [List.mem_singleton.mp hc]
    exact ⟨[], rfl⟩

/-- One key, put in front once more. -/
theorem rotation_iff_oneKey :
    KeysServe plainEnvironment oldKey [oldKey] ∧
      ReadableThroughout plainEnvironment ⟨oldKey, [], [rotatedOrg]⟩
        [.prepend oldKey, .rewrap .api 0 [], .drop 0] := by
  have hideal : IdealFernet plainEnvironment.fernet := plainFernet_ideal
  obtain ⟨hserve, hrun⟩ := rotation_iff hideal
  refine ⟨(hserve oldKey [oldKey]).mpr (by simp), (hrun _ _ ?_).mpr (.inr (by simp))⟩
  intro o ho
  rw [List.mem_singleton.mp ho]
  exact rotatedOrg_sealed

/-- The rotation of the provider's documentation: with the new key in front
of the old one neither site unwraps the data key that the old one wrapped. -/
theorem newKeyInFront_serves_not :
    (∀ site : CryptoSite, site.unwrapDataKey (plainEnvironment.withKeys [newKey, oldKey])
        rotatedOrg.wrapped = .error .uncaught) ∧
      ¬ KeysServe plainEnvironment newKey [oldKey] ∧
      ¬ ReadableThroughout plainEnvironment ⟨oldKey, [], [rotatedOrg]⟩ [.prepend newKey] := by
  have hkeys : oldKey ≠ newKey := by decide
  have hfails : ∀ site : CryptoSite,
      site.unwrapDataKey (plainEnvironment.withKeys [newKey, oldKey]) rotatedOrg.wrapped =
        .error .uncaught := by
    intro site
    cases site <;> decide +kernel
  refine ⟨hfails, fun h => ?_, fun h => ?_⟩
  · exact nomatch (hfails .api).symm.trans
      (h.unwraps .api oldKey (List.mem_cons_of_mem _ List.mem_cons_self) [] newKey.encoded)
  · have hsealed : Deployment.Sealed plainEnvironment ⟨oldKey, [], [rotatedOrg]⟩ := by
      intro o ho
      rw [List.mem_singleton.mp ho]
      exact rotatedOrg_sealed
    have hempty := not_readable_prepend plainFernet_ideal hsealed hkeys.symm
      (h [.prepend newKey] (List.prefix_refl _))
    exact nomatch hempty rotatedOrg (List.mem_singleton_self _)

end Sentinel.Api
