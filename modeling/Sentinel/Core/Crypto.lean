/-
Sentinel.Core.Crypto — `sentinel_core.crypto`: envelope encryption.

Fernet is third-party code and a parameter. Keys and plaintexts are bytes;
a token is the ASCII text of its bytes.
-/
import Sentinel.Core.HttpClient

namespace Sentinel.Core

open Sentinel.Py

/-- `cryptography.fernet`. `nonce` is the time and the random block that go
into a token; `decrypt` answers `none` for `InvalidToken`. -/
structure Fernet where
  isKey : Bytes → Bool
  encrypt : (key : Bytes) → (nonce : Str) → (plaintext : Bytes) → Str
  decrypt : (key : Bytes) → (token : Str) → Option Bytes

inductive CryptoError where
  /-- `Fernet(key)` of something that is no key. -/
  | valueError
  | invalidToken
  deriving DecidableEq, Repr

/-- `Fernet(key).decrypt(token)`. -/
def Fernet.decryptWith (f : Fernet) (key : Bytes) (token : Str) : Except CryptoError Bytes :=
  if !f.isKey key then .error .valueError
  else
    match f.decrypt key token with
    | some plaintext => .ok plaintext
    | none => .error .invalidToken

/-- `LocalMasterKeyProvider(master_keys).unwrap(wrapped)`: every key is
checked, then the keys are tried in order. -/
def Fernet.unwrap (f : Fernet) (masterKeys : List Bytes) (wrapped : Str) :
    Except CryptoError Bytes :=
  if masterKeys = [] ∨ masterKeys.any (fun key => !f.isKey key) = true then .error .valueError
  else
    match masterKeys.findSome? fun key => f.decrypt key wrapped with
    | some dataKey => .ok dataKey
    | none => .error .invalidToken

/-- `EnvelopeCrypto.encrypt`. -/
def Fernet.encryptWith (f : Fernet) (dataKey : Bytes) (nonce : Str) (plaintext : Bytes) :
    Except CryptoError Str :=
  if !f.isKey dataKey then .error .valueError else .ok (f.encrypt dataKey nonce plaintext)

/-- What decrypts with a key has a key to encrypt with. -/
theorem Fernet.encryptWith_of_decryptWith {f : Fernet} {dataKey plaintext : Bytes} {token : Str}
    (h : f.decryptWith dataKey token = .ok plaintext) (nonce : Str) (state : Bytes) :
    f.encryptWith dataKey nonce state = .ok (f.encrypt dataKey nonce state) := by
  unfold decryptWith at h
  unfold encryptWith
  cases hkey : f.isKey dataKey with
  | true => rfl
  | false =>
    rw [hkey] at h
    exact nomatch h

end Sentinel.Core
