/-
Sentinel.Core.TranscriptBodies — the bytes `_serialise` stores, and which
bodies can be read back from them.

The document shows everything about a body but one thing: whether a text
that starts with `base64:` was a text. `storedBytes_bodies` says so for any
two transcripts, and `mistakable` pairs are all that is lost.
-/
import Sentinel.Core.Transcript
import Sentinel.Py.Json
import Mathlib.Data.List.Sort
import Mathlib.Data.String.Basic

namespace Sentinel.Core

open Sentinel.Py

/-! ## The stored bytes -/

/-- Headers as `sort_keys` orders them. -/
def headersJson (headers : Dict) : Json :=
  .obj ((headers.insertionSort fun a b => a.1 ≤ b.1).map fun kv => (kv.1, .str kv.2))

/-- The field of a body. -/
def bodyJson (body : Option BodyField) : Json := .ofOption (body.map BodyField.render)

section

variable [FloatRepr]

/-- The dictionary of a document, its keys in the order of `sort_keys`. -/
def Document.toJson (d : Document) : Json :=
  .obj [
    ("error".toList, .ofOption d.error),
    ("persona_id".toList, .ofOption d.personaId),
    ("recorded_at".toList, .str d.recordedAt),
    ("request".toList, .obj [
      ("body".toList, bodyJson d.request.body),
      ("headers".toList, headersJson d.request.headers),
      ("method".toList, .str d.request.method),
      ("url".toList, .str d.request.url)]),
    ("response".toList, match d.response with
      | none => .null
      | some response => .obj [
        ("body".toList, bodyJson response.body),
        ("elapsed_ms".toList, .num (FloatRepr.repr response.elapsedMs)),
        ("headers".toList, headersJson response.headers),
        ("status_code".toList, .num (intText response.statusCode))]),
    ("scan_id".toList, .str d.scanId)]

/-- `_serialise`. -/
def storedBytes (t : Transcript) : Bytes := encodeStrict (dumps (serialise t).toJson)

end

/-! ## Bodies -/

/-- The two bodies of a transcript; without a response there is one. -/
structure Bodies where
  request : Option Bytes
  response : Option Bytes
  deriving DecidableEq, Repr

def Transcript.bodies (t : Transcript) : Bodies := ⟨t.request.body, t.response.bind (·.body)⟩

/-- The transcript with other bodies. -/
def Transcript.withBodies (t : Transcript) (bodies : Bodies) : Transcript :=
  { t with
    request := { t.request with body := bodies.request }
    response := t.response.map fun response => { response with body := bodies.response } }

/-- The ASCII text that is stored for bytes that are no text. -/
def base64Text (payload : Bytes) : Str := "base64:".toList ++ b64encode payload

/-- One of the bodies is no text, the other is the text stored for it. -/
def Mistakable (x y : Option Bytes) : Prop :=
  ∃ payload, decodeStrict payload = none ∧
    ((x = some payload ∧ y = some (encodeStrict (base64Text payload))) ∨
      (y = some payload ∧ x = some (encodeStrict (base64Text payload))))

/-- The field of a body as the document has it. -/
def storedBody (body : Option Bytes) : Json := bodyJson (body.map bodyField)

theorem storedBody_some (bytes : Bytes) : storedBody (some bytes) = .str (bodyField bytes).render :=
  rfl

theorem render_text {bytes : Bytes} {text : Str} (h : decodeStrict bytes = some text) :
    (bodyField bytes).render = text := by
  rw [bodyField, h]
  rfl

theorem render_base64 {bytes : Bytes} (h : decodeStrict bytes = none) :
    (bodyField bytes).render = base64Text bytes := by
  rw [bodyField, h]
  rfl

/-- Two bodies with one field. -/
theorem render_eq {x y : Bytes} (h : (bodyField x).render = (bodyField y).render) :
    x = y ∨ Mistakable (some x) (some y) := by
  cases hx : decodeStrict x with
  | some text =>
    cases hy : decodeStrict y with
    | some text' =>
      rw [render_text hx, render_text hy] at h
      left
      rw [← encodeStrict_of_decodeStrict hx, ← encodeStrict_of_decodeStrict hy, h]
    | none =>
      rw [render_text hx, render_base64 hy] at h
      refine .inr ⟨y, hy, .inr ⟨rfl, ?_⟩⟩
      rw [← h, encodeStrict_of_decodeStrict hx]
  | none =>
    cases hy : decodeStrict y with
    | some text' =>
      rw [render_base64 hx, render_text hy] at h
      refine .inr ⟨x, hx, .inl ⟨rfl, ?_⟩⟩
      rw [h, encodeStrict_of_decodeStrict hy]
    | none =>
      rw [render_base64 hx, render_base64 hy] at h
      exact .inl (b64encode_inj x y (List.append_cancel_left h))

/-- A mistakable pair has one field. -/
theorem Mistakable.storedBody_eq {x y : Option Bytes} (h : Mistakable x y) :
    storedBody x = storedBody y := by
  obtain ⟨payload, hpayload, ⟨rfl, rfl⟩ | ⟨rfl, rfl⟩⟩ := h
  all_goals
    simp only [storedBody_some, render_base64 hpayload, render_text (decodeStrict_encodeStrict _)]

/-- **What the field of a body tells.** -/
theorem storedBody_eq_iff {x y : Option Bytes} :
    storedBody x = storedBody y ↔ x = y ∨ Mistakable x y := by
  constructor
  · intro h
    cases x with
    | none =>
      cases y with
      | none => exact .inl rfl
      | some y => cases h
    | some x =>
      cases y with
      | none => cases h
      | some y =>
        rw [storedBody_some, storedBody_some, Json.str.injEq] at h
        rcases render_eq h with rfl | h
        · exact .inl rfl
        · exact .inr h
  · rintro (rfl | h)
    · rfl
    · exact h.storedBody_eq

/-! ## Documents -/

section

variable [FloatRepr]

theorem storedBytes_eq_iff {t t' : Transcript} :
    storedBytes t = storedBytes t' ↔ (serialise t).toJson = (serialise t').toJson := by
  constructor
  · exact fun h => dumps_inj (encodeStrict_inj h)
  · intro h
    rw [storedBytes, storedBytes, h]

/-- **What a document tells about the bodies** of its transcript. -/
theorem storedBytes_bodies {t t' : Transcript} (h : storedBytes t = storedBytes t') :
    (t.bodies.request = t'.bodies.request ∨ Mistakable t.bodies.request t'.bodies.request) ∧
      (t.bodies.response = t'.bodies.response ∨
        Mistakable t.bodies.response t'.bodies.response) := by
  have hjson := storedBytes_eq_iff.mp h
  simp only [Document.toJson, serialise, Json.obj.injEq, List.cons.injEq, Prod.mk.injEq,
    true_and] at hjson
  obtain ⟨-, -, -, ⟨hrequest, -⟩, hresponse, -⟩ := hjson
  refine ⟨storedBody_eq_iff.mp hrequest, ?_⟩
  unfold Transcript.bodies
  cases hr : t.response with
  | none =>
    cases hr' : t'.response with
    | none => exact .inl rfl
    | some r' => simp [hr, hr'] at hresponse
  | some r =>
    cases hr' : t'.response with
    | none => simp [hr, hr'] at hresponse
    | some r' =>
      simp only [hr, hr', Option.map_some, Json.obj.injEq, List.cons.injEq, Prod.mk.injEq,
        true_and] at hresponse
      exact storedBody_eq_iff.mp hresponse.1

/-- Bodies with the same fields make the same document. -/
theorem storedBytes_withBodies {t : Transcript} {bodies : Bodies}
    (hrequest : storedBody (t.withBodies bodies).bodies.request = storedBody t.bodies.request)
    (hresponse : storedBody (t.withBodies bodies).bodies.response =
      storedBody t.bodies.response) :
    storedBytes (t.withBodies bodies) = storedBytes t := by
  have hrequest : bodyJson (bodies.request.map bodyField) =
      bodyJson (t.request.body.map bodyField) := hrequest
  refine storedBytes_eq_iff.mpr ?_
  cases hr : t.response with
  | none => simp only [Document.toJson, serialise, Transcript.withBodies, hr, hrequest,
    Option.map_none]
  | some r =>
    have hresponse : bodyJson (bodies.response.map bodyField) = bodyJson (r.body.map bodyField) := by
      simpa only [storedBody, Transcript.bodies, Transcript.withBodies, hr, Option.map_some,
        Option.bind_some] using hresponse
    simp only [Document.toJson, serialise, Transcript.withBodies, hr, Option.map_some, hrequest,
      hresponse]

/-- **Two transcripts that differ only in bodies are told apart** unless
every body in which they differ is mistakable. -/
theorem bodies_distinguished_iff (t : Transcript) (bodies : Bodies) :
    (storedBytes (t.withBodies bodies) = storedBytes t → (t.withBodies bodies).bodies = t.bodies) ↔
      (t.withBodies bodies).bodies = t.bodies ∨
      ((t.withBodies bodies).bodies.request ≠ t.bodies.request ∧
        ¬ Mistakable (t.withBodies bodies).bodies.request t.bodies.request) ∨
      ((t.withBodies bodies).bodies.response ≠ t.bodies.response ∧
        ¬ Mistakable (t.withBodies bodies).bodies.response t.bodies.response) := by
  constructor
  · intro htold
    by_contra hnone
    simp only [not_or, not_and_or, not_not] at hnone
    obtain ⟨hdiffer, hrequest, hresponse⟩ := hnone
    exact hdiffer (htold (storedBytes_withBodies (storedBody_eq_iff.mpr hrequest)
      (storedBody_eq_iff.mpr hresponse)))
  · rintro (hsame | ⟨hne, hclear⟩ | ⟨hne, hclear⟩) hstored
    · exact hsame
    · rcases (storedBytes_bodies hstored).1 with h | h
      · exact absurd h hne
      · exact absurd h hclear
    · rcases (storedBytes_bodies hstored).2 with h | h
      · exact absurd h hne
      · exact absurd h hclear

end

def uploadRequest : RecordedRequest where
  method := "POST".toList
  url := "https://app.acme.test/".toList
  headers := []
  body := some [0xFF]

/-- A request that uploads one byte that is no text. -/
def binaryUpload : Transcript where
  scanId := "s1".toList
  personaId := none
  request := uploadRequest
  response := none
  error := none
  recordedAt := "2025-01-01T00:00:00+00:00".toList

/-- The same request with the text `base64:/w==`. -/
def textUpload : Transcript :=
  binaryUpload.withBodies ⟨some (encodeStrict "base64:/w==".toList), none⟩

theorem uploads_mistakable : Mistakable textUpload.bodies.request binaryUpload.bodies.request :=
  ⟨[0xFF], by decide +kernel, .inr ⟨rfl, by decide +kernel⟩⟩

/-- The uploads have no float in them. -/
@[reducible] def onlyZero : FloatRepr where
  repr _ := {
    text := ['0', '.', '0']
    start := ⟨'0', ['.', '0'], rfl, by simp [valueStarts]⟩
    plain := by simp [valueEnds] }

/-- The two uploads have one document, so no decoder gets both bodies back. -/
theorem uploads_stored_alike : let _ := onlyZero
    storedBytes textUpload = storedBytes binaryUpload ∧
      textUpload.bodies ≠ binaryUpload.bodies ∧
      ¬ ∃ decode : Bytes → Bodies, ∀ t, decode (storedBytes t) = t.bodies := by
  intro repr
  have hstored : storedBytes textUpload = storedBytes binaryUpload :=
    storedBytes_withBodies uploads_mistakable.storedBody_eq rfl
  have hdiffer : textUpload.bodies ≠ binaryUpload.bodies := by decide +kernel
  refine ⟨hstored, hdiffer, ?_⟩
  rintro ⟨decode, hdecode⟩
  exact hdiffer (by rw [← hdecode textUpload, hstored, hdecode binaryUpload])

end Sentinel.Core
