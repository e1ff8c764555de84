/-
Sentinel.Db.Fingerprint — `Finding.compute_fingerprint`.

The four fields are written one after another with `|` between them and
hashed. Templates and parameter names come from the scanned site and may
have a `|` in them, so `identifies_iff` is about the text that is hashed:
SHA-256 is taken not to collide on it. The characters of a text are Unicode
scalar values; on a lone surrogate `encode` raises.
-/
import Sentinel.Core.TranscriptStore
import Sentinel.Delimited.Join

namespace Sentinel.Db

open Sentinel.Py Sentinel.Core Sentinel.Delimited

/-- The arguments of `compute_fingerprint`. -/
structure FindingKey where
  ruleId : Str
  endpointTemplate : Str
  param : Str
  personaPair : Str
  deriving DecidableEq, Repr

/-- The text that is hashed. -/
def FindingKey.raw (k : FindingKey) : Str :=
  k.ruleId ++ "|".toList ++ k.endpointTemplate ++ "|".toList ++ k.param ++ "|".toList ++
    k.personaPair

/-- The fields in their order. -/
def FindingKey.fields (k : FindingKey) : List Str :=
  [k.ruleId, k.endpointTemplate, k.param, k.personaPair]

theorem FindingKey.raw_eq_join (k : FindingKey) : k.raw = join '|' k.fields := by
  simp [FindingKey.raw, FindingKey.fields]

theorem FindingKey.fields_inj {k k' : FindingKey} (h : k.fields = k'.fields) : k = k' := by
  cases k
  cases k'
  simpa [FindingKey.fields] using h

/-- Four texts are the fields of a key. -/
theorem FindingKey.exists_fields {texts : List Str} (h : texts.length = 4) :
    ∃ k : FindingKey, k.fields = texts := by
  match texts, h with
  | [ruleId, endpointTemplate, param, personaPair], _ =>
    exact ⟨⟨ruleId, endpointTemplate, param, personaPair⟩, rfl⟩

section

variable [Sha256]

/-- `Finding.compute_fingerprint`. -/
def computeFingerprint (k : FindingKey) : Str := (Sha256.hexdigest (encodeStrict k.raw)).text

/-- SHA-256 does not collide on these two. -/
def Collisionless (content content' : List UInt8) : Prop :=
  Sha256.hexdigest content = Sha256.hexdigest content' → content = content'

/-- No other finding has the fingerprint of this one, as far as it is up to
the text that is hashed. -/
def Identifies (k : FindingKey) : Prop :=
  ∀ k' : FindingKey, Collisionless (encodeStrict k.raw) (encodeStrict k'.raw) →
    (computeFingerprint k = computeFingerprint k' ↔ k = k')

theorem raw_eq_of_fingerprint {k k' : FindingKey}
    (hcollision : Collisionless (encodeStrict k.raw) (encodeStrict k'.raw))
    (h : computeFingerprint k = computeFingerprint k') : k.raw = k'.raw := by
  have hdigest : Sha256.hexdigest (encodeStrict k.raw) = Sha256.hexdigest (encodeStrict k'.raw) := by
    unfold computeFingerprint at h
    generalize Sha256.hexdigest (encodeStrict k.raw) = id at h
    generalize Sha256.hexdigest (encodeStrict k'.raw) = id' at h
    cases id
    cases id'
    simpa using h
  exact encodeStrict_inj (hcollision hdigest)

/-- **Which findings their fingerprint identifies**: those without a `|` in
any field. -/
theorem identifies_iff (k : FindingKey) : Identifies k ↔ ∀ field ∈ k.fields, '|' ∉ field := by
  have htwo : 2 ≤ k.fields.length := by simp [FindingKey.fields]
  rw [← join_unique_iff htwo]
  constructor
  · intro h texts hlength hjoin
    obtain ⟨k', rfl⟩ := FindingKey.exists_fields hlength
    have hraw : k.raw = k'.raw := by rw [k.raw_eq_join, k'.raw_eq_join, hjoin]
    have hsame : computeFingerprint k = computeFingerprint k' := by
      unfold computeFingerprint
      rw [hraw]
    rw [(h k' fun _ => by rw [hraw]).mp hsame]
  · intro h k' hcollision
    constructor
    · intro hsame
      have hraw := raw_eq_of_fingerprint hcollision hsame
      rw [k.raw_eq_join, k'.raw_eq_join] at hraw
      exact (FindingKey.fields_inj (h k'.fields rfl hraw.symm)).symm
    · rintro rfl
      rfl

end

/-- A template of the scanned site with a `|` in it. -/
def barInTemplate : FindingKey :=
  ⟨"authz.horizontal.idor".toList, "/search|q".toList, "id".toList, "viewer/admin".toList⟩

/-- Another endpoint, with another parameter. -/
def barInParam : FindingKey :=
  ⟨"authz.horizontal.idor".toList, "/search".toList, "q|id".toList, "viewer/admin".toList⟩

/-- Two findings, one fingerprint. -/
theorem fingerprint_shared :
    let _ := knownDigests
    ¬ ∀ k k' : FindingKey, Collisionless (encodeStrict k.raw) (encodeStrict k'.raw) →
      (computeFingerprint k = computeFingerprint k' ↔ k = k') := by
  intro digests h
  have hraw : barInTemplate.raw = barInParam.raw := by decide +kernel
  have hsame : computeFingerprint barInTemplate = computeFingerprint barInParam := by
    unfold computeFingerprint
    rw [hraw]
  have hequal := (h barInTemplate barInParam fun _ => by rw [hraw]).mp hsame
  exact absurd hequal (by decide +kernel)

end Sentinel.Db
