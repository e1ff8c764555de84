/-
Sentinel.Core.MasterKeys — the master keys of a configuration.

A master key is written as url-safe base 64, and several of them with
commas between. `Fernet` decodes what it is given; behind the padding of
the first key it reads nothing, so that the whole text is that key
(`decode_masterKeyText`).
-/
import Sentinel.Core.Crypto
import Sentinel.Delimited.Join
import Sentinel.Py.Base64

namespace Sentinel.Core

open Sentinel.Py Sentinel.Delimited

/-- A master key: 32 bytes. -/
structure MasterKey where
  material : Bytes
  length_eq : material.length = 32
  deriving DecidableEq

/-- The key as `Fernet.generate_key` writes it. -/
def MasterKey.text (key : MasterKey) : Str := urlsafeB64encode key.material

/-- The text as `Fernet` gets it. -/
def MasterKey.encoded (key : MasterKey) : Bytes := encodeStrict key.text

/-- `KMS_MASTER_KEY` with these keys. -/
def masterKeyText (keys : List MasterKey) : Str := join ',' (keys.map MasterKey.text)

/-- `LocalMasterKeyProvider(master_keys).wrap(data_key)`: every key is
checked, then the first one encrypts. -/
def Fernet.wrap (f : Fernet) (masterKeys : List Bytes) (nonce : Str) (dataKey : Bytes) :
    Except CryptoError Str :=
  match masterKeys with
  | [] => .error .valueError
  | first :: rest =>
      if (first :: rest).any (fun key => !f.isKey key) = true then .error .valueError
      else .ok (f.encrypt first nonce dataKey)

/-- An ideal Fernet: a key is what decodes to 32 bytes, and a token decrypts
with the key that made it and with no other. -/
structure IdealFernet (f : Fernet) : Prop where
  isKey_iff : ∀ key, f.isKey key = true ↔
    ∃ material, urlsafeB64decode key = some material ∧ material.length = 32
  decrypt_encrypt : ∀ key key' nonce plaintext, f.isKey key = true → f.isKey key' = true →
    f.decrypt key (f.encrypt key' nonce plaintext) =
      if urlsafeB64decode key = urlsafeB64decode key' then some plaintext else none

/-! ## What a text of keys decodes to -/

theorem masterKeyText_ascii (keys : List MasterKey) : ∀ c ∈ masterKeyText keys, c.toNat < 128 := by
  induction keys with
  | nil => exact fun _ h => (nomatch h)
  | cons key rest ih =>
    cases rest with
    | nil =>
      intro c hc
      rw [masterKeyText, List.map_singleton, join_singleton] at hc
      exact urlsafeB64encode_ascii key.material c hc
    | cons second rest =>
      intro c hc
      rw [masterKeyText, List.map_cons, List.map_cons, join_cons_cons] at hc
      rcases List.mem_append.mp hc with hc | hc
      · exact urlsafeB64encode_ascii key.material c hc
      · rcases List.mem_cons.mp hc with rfl | hc
        · decide
        · exact ih c hc

theorem masterKeyText_cons (first : MasterKey) (older : List MasterKey) :
    ∃ rest, masterKeyText (first :: older) = first.text ++ rest ∧ ∀ c ∈ rest, c.toNat < 128 := by
  have hascii := masterKeyText_ascii (first :: older)
  cases older with
  | nil => exact ⟨[], by simp [masterKeyText], fun _ h => (nomatch h)⟩
  | cons second older =>
    have htext : masterKeyText (first :: second :: older) =
        first.text ++ ',' :: masterKeyText (second :: older) := join_cons_cons ..
    rw [htext] at hascii ⊢
    exact ⟨_, rfl, fun c hc => hascii c (List.mem_append_right _ hc)⟩

/-- **Several keys are read as the first of them.** -/
theorem decode_masterKeyText (first : MasterKey) (older : List MasterKey) :
    urlsafeB64decode (encodeStrict (masterKeyText (first :: older))) = some first.material := by
  obtain ⟨rest, htext, hascii⟩ := masterKeyText_cons first older
  rw [htext]
  exact urlsafeB64decode_append (by rw [first.length_eq]; decide) hascii

theorem decode_encoded (key : MasterKey) : urlsafeB64decode key.encoded = some key.material := by
  have h := decode_masterKeyText key []
  rwa [masterKeyText, List.map_singleton, join_singleton] at h

theorem MasterKey.ext_material {key key' : MasterKey} (h : key.material = key'.material) :
    key = key' := by
  cases key
  cases key'
  cases h
  rfl

/-! ## Wrapping with an ideal Fernet -/

section

variable {f : Fernet}

theorem IdealFernet.isKey_of_decode (h : IdealFernet f) {bytes : Bytes} {key : MasterKey}
    (hbytes : urlsafeB64decode bytes = some key.material) : f.isKey bytes = true :=
  (h.isKey_iff bytes).mpr ⟨key.material, hbytes, key.length_eq⟩

theorem IdealFernet.isKey_text (h : IdealFernet f) (first : MasterKey) (older : List MasterKey) :
    f.isKey (encodeStrict (masterKeyText (first :: older))) = true :=
  h.isKey_of_decode (decode_masterKeyText first older)

/-- What the one key wrapped, another unwraps exactly if it is the same. -/
theorem IdealFernet.unwrap_encrypt (h : IdealFernet f) {bytes bytes' : Bytes} {key key' : MasterKey}
    (hbytes : urlsafeB64decode bytes = some key.material)
    (hbytes' : urlsafeB64decode bytes' = some key'.material) (nonce : Str) (dataKey : Bytes) :
    f.unwrap [bytes] (f.encrypt bytes' nonce dataKey) =
      if key' = key then .ok dataKey else .error .invalidToken := by
  have hkey := h.isKey_of_decode hbytes
  have hchecked : ¬ ([bytes] = [] ∨ [bytes].any (fun key => !f.isKey key) = true) := by simp [hkey]
  rw [Fernet.unwrap, if_neg hchecked, List.findSome?_cons,
    h.decrypt_encrypt bytes bytes' nonce dataKey hkey (h.isKey_of_decode hbytes'), hbytes, hbytes']
  by_cases hsame : key' = key
  · rw [hsame, if_pos rfl, if_pos rfl]
  · have hmaterial : some key.material ≠ some key'.material := fun heq =>
      hsame (MasterKey.ext_material (Option.some.inj heq).symm)
    rw [if_neg hsame, if_neg hmaterial]
    rfl

theorem wrap_of_isKey {key : Bytes} (hkey : f.isKey key = true) (nonce : Str) (dataKey : Bytes) :
    f.wrap [key] nonce dataKey = .ok (f.encrypt key nonce dataKey) := by
  simp [Fernet.wrap, hkey]

end

/-! ## One that is ideal -/

/-- A Fernet whose token is the key and the plaintext. -/
def plainFernet : Fernet where
  isKey key := (urlsafeB64decode key).any fun material => material.length = 32
  encrypt key _ plaintext :=
    ((urlsafeB64decode key).getD [] ++ plaintext).map fun b => Char.ofNat b.toNat
  decrypt key token :=
    let bytes := token.map fun c => UInt8.ofNat c.toNat
    (urlsafeB64decode key).bind fun material =>
      if material.isPrefixOf bytes then some (bytes.drop material.length) else none

theorem ofNat_toNat_of_lt : ∀ n < 256, (Char.ofNat n).toNat = n := by decide +kernel

theorem map_ofNat_toNat (bytes : Bytes) :
    (bytes.map fun b => Char.ofNat b.toNat).map (fun c => UInt8.ofNat c.toNat) = bytes := by
  rw [List.map_map]
  refine (List.map_congr_left fun b _ => ?_).trans (List.map_id _)
  show UInt8.ofNat (Char.ofNat b.toNat).toNat = b
  rw [ofNat_toNat_of_lt b.toNat b.toNat_lt, UInt8.ofNat_toNat]

theorem plainFernet_ideal : IdealFernet plainFernet where
  isKey_iff key := by
    simp [plainFernet, Option.any_eq_true]
  decrypt_encrypt key key' nonce plaintext hkey hkey' := by
    obtain ⟨material, hdecode, hlength⟩ := Option.any_eq_true _ _ |>.mp hkey
    obtain ⟨material', hdecode', hlength'⟩ := Option.any_eq_true _ _ |>.mp hkey'
    simp only [decide_eq_true_eq] at hlength hlength'
    simp only [plainFernet, hdecode, hdecode', Option.getD_some, Option.bind_some,
      map_ofNat_toNat, Option.some.injEq]
    by_cases hsame : material = material'
    · subst hsame
      simp
    · have hnot : ¬ material <+: material' ++ plaintext := by
        intro hprefix
        exact hsame ((List.prefix_of_prefix_length_le hprefix (List.prefix_append _ _)
          (by omega)).eq_of_length (by omega))
      simp [hsame, hnot]

end Sentinel.Core
