/-
Sentinel.Core.TranscriptTheorems — where a known secret can still stand in
a stored document.

The text scrubber is sound: a text it has gone over has no known secret in
it, whatever was replaced before or after. Three fields it never sees and
the bytes it cannot read are what is left, and `record_hides_iff` says that
nothing else is.
-/
import Sentinel.Core.Transcript

namespace Sentinel.Core

open Sentinel.Py Sentinel.Redaction

/-! ## Scrubbed texts -/

/-- A secret the marker cannot spell: it has neither guillemet and is no
part of the word between them. -/
abbrev Scrubbable (secret : Str) : Prop := Foreign '«' "redacted".toList '»' secret

theorem Scrubbable.not_in_redacted {secret : Str} (h : Scrubbable secret) :
    ¬ secret <:+: redacted := by
  rw [redacted_eq_mark]
  exact h.not_infix_mark

/-- `replace` brings in no secret. -/
theorem replace_brings_none {secret old text : Str} (hsecret : Scrubbable secret) (hold : old ≠ [])
    (htext : ¬ secret <:+: text) : ¬ secret <:+: replace text old redacted := by
  rw [replace, if_neg hold, redacted_eq_mark]
  exact fun h => htext ((replaceMatches_spliced (wordAt old) _ text).old_word hsecret h)

/-- `replace` of a secret leaves none of it. -/
theorem replace_removes {secret : Str} (hsecret : Scrubbable secret) (text : Str) :
    ¬ secret <:+: replace text secret redacted := by
  rw [replace, if_neg hsecret.ne_nil, redacted_eq_mark]
  exact not_infix_replaceAll hsecret text

/-- The secret loop brings in no secret, and removes those it runs over. -/
theorem replaceAll_absent {secret : Str} (hsecret : Scrubbable secret) (knownSecrets : List Str)
    {text : Str} (h : secret ∈ knownSecrets ∨ ¬ secret <:+: text) :
    ¬ secret <:+: knownSecrets.foldl
      (fun text secret => if secret = [] then text else replace text secret redacted) text := by
  induction knownSecrets generalizing text with
  | nil => exact h.resolve_left List.not_mem_nil
  | cons old rest ih =>
    rw [List.foldl_cons]
    refine ih ?_
    by_cases hmem : secret ∈ rest
    · exact .inl hmem
    · right
      by_cases hnil : old = []
      · rw [if_pos hnil]
        exact h.resolve_left fun hin => (List.mem_cons.mp hin).elim
          (fun heq => hsecret.ne_nil (heq.trans hnil)) hmem
      · rw [if_neg hnil]
        by_cases heq : secret = old
        · rw [← heq]
          exact replace_removes hsecret text
        · exact replace_brings_none hsecret hnil
            (h.resolve_left fun hin => (List.mem_cons.mp hin).elim heq hmem)

/-! ## Bodies as they are stored -/

/-- The body has the secret in it: in the stored string, or in the bytes
the string is the base 64 of. -/
def BodyField.Contains (field : BodyField) (secret : Str) : Prop :=
  secret <:+: field.render ∨ ∃ payload, field = .base64 payload ∧ encodeStrict secret <:+: payload

/-- The body is no text, and has the secret in it all the same. -/
def OpaqueContains (body : Bytes) (secret : Str) : Prop :=
  decodeStrict body = none ∧
    (secret <:+: "base64:".toList ++ b64encode body ∨ encodeStrict secret <:+: body)

theorem bodyField_text {bytes : Bytes} {text : Str} (h : decodeStrict bytes = some text) :
    bodyField bytes = .text text := by
  rw [bodyField, h]

theorem bodyField_base64 {bytes : Bytes} (h : decodeStrict bytes = none) :
    bodyField bytes = .base64 bytes := by
  rw [bodyField, h]

theorem contains_text {secret t : Str} :
    (BodyField.text t).Contains secret ↔ secret <:+: t :=
  ⟨fun h => h.elim id fun ⟨_, heq, _⟩ => (nomatch heq), .inl⟩

theorem contains_base64 {secret : Str} {payload : Bytes} :
    (BodyField.base64 payload).Contains secret ↔
      secret <:+: "base64:".toList ++ b64encode payload ∨ encodeStrict secret <:+: payload := by
  refine or_congr_right ⟨?_, fun h => ⟨payload, rfl, h⟩⟩
  rintro ⟨_, heq, h⟩
  rwa [BodyField.base64.inj heq]

/-- Some body has the secret in it. -/
def bodyContains (body : Option BodyField) (secret : Str) : Prop :=
  ∃ field, body = some field ∧ field.Contains secret

variable [PyRuntime]

/-- `sub` brings in no secret. -/
theorem sub_brings_none {secret text : Str} (hsecret : Scrubbable secret) (pattern : Regex)
    (htext : ¬ secret <:+: text) : ¬ secret <:+: pattern.sub redacted text := by
  rw [Regex.sub, redacted_eq_mark]
  exact fun h => htext ((replaceMatches_spliced pattern.matchLength _ text).old_word hsecret h)

/-- The pattern loop brings in no secret. -/
theorem subAll_brings_none {secret : Str} (hsecret : Scrubbable secret) (patterns : List Regex)
    {text : Str} (htext : ¬ secret <:+: text) :
    ¬ secret <:+: patterns.foldl (fun text pattern => pattern.sub redacted text) text := by
  induction patterns generalizing text with
  | nil => exact htext
  | cons pattern patterns ih => exact ih (sub_brings_none hsecret pattern htext)

/-- A scrubbed text has no known secret in it. -/
theorem scrubText_absent {secret : Str} (hsecret : Scrubbable secret) {knownSecrets : List Str}
    {text : Str} (h : secret ∈ knownSecrets ∨ ¬ secret <:+: text) :
    ¬ secret <:+: scrubText knownSecrets text :=
  subAll_brings_none hsecret secretPatterns (replaceAll_absent hsecret knownSecrets h)

/-! ## Headers and bodies -/

/-- Some header value has the secret in it. -/
def headersContain (headers : Dict) (secret : Str) : Prop := ∃ h ∈ headers, secret <:+: h.2

theorem headersContain_scrub {secret : Str} (hsecret : Scrubbable secret) (headers : Dict) :
    headersContain (scrubHeaders headers) secret ↔
      ∃ h ∈ headers, isSensitiveHeader h.1 = false ∧ secret <:+: h.2 := by
  constructor
  · rintro ⟨_, hmem, hin⟩
    obtain ⟨⟨name, value⟩, hgiven, rfl⟩ := List.mem_map.mp hmem
    dsimp only at hin
    cases hsensitive : isSensitiveHeader name with
    | true =>
      rw [hsensitive, if_pos rfl] at hin
      exact absurd hin hsecret.not_in_redacted
    | false =>
      rw [hsensitive, if_neg Bool.false_ne_true] at hin
      exact ⟨(name, value), hgiven, hsensitive, hin⟩
  · rintro ⟨⟨name, value⟩, hmem, hsensitive, hin⟩
    refine ⟨_, List.mem_map_of_mem hmem, ?_⟩
    dsimp only at hsensitive ⊢
    rwa [hsensitive, if_neg Bool.false_ne_true]

/-- A scrubbed body that is a text is stored as the scrubbed text. -/
theorem bodyField_scrub_text {bytes : Bytes} {text : Str} (h : decodeStrict bytes = some text)
    (knownSecrets : List Str) :
    (scrubBody (some bytes) knownSecrets).map bodyField =
      some (.text (scrubText knownSecrets text)) := by
  rw [scrubBody, Option.map_some, h]
  exact congrArg some (bodyField_text (decodeStrict_encodeStrict _))

/-- A body that is no text is stored as it came. -/
theorem bodyField_scrub_base64 {bytes : Bytes} (h : decodeStrict bytes = none)
    (knownSecrets : List Str) :
    (scrubBody (some bytes) knownSecrets).map bodyField = some (.base64 bytes) := by
  rw [scrubBody, Option.map_some, h]
  exact congrArg some (bodyField_base64 h)

theorem bodyContains_scrub {secret : Str} (hsecret : Scrubbable secret) {knownSecrets : List Str}
    (hknown : secret ∈ knownSecrets) (body : Option Bytes) :
    bodyContains ((scrubBody body knownSecrets).map bodyField) secret ↔
      ∃ bytes, body = some bytes ∧ OpaqueContains bytes secret := by
  cases body with
  | none => exact ⟨fun ⟨_, h, _⟩ => (nomatch h), fun ⟨_, h, _⟩ => (nomatch h)⟩
  | some bytes =>
    cases htext : decodeStrict bytes with
    | some text =>
      rw [bodyField_scrub_text htext]
      constructor
      · rintro ⟨_, hfield, hin⟩
        obtain rfl := Option.some.inj hfield
        exact absurd (contains_text.mp hin) (scrubText_absent hsecret (.inl hknown))
      · rintro ⟨_, hbytes, hnone, -⟩
        obtain rfl := Option.some.inj hbytes
        exact absurd (htext.symm.trans hnone) (Option.some_ne_none text)
    | none =>
      rw [bodyField_scrub_base64 htext]
      constructor
      · rintro ⟨_, hfield, hin⟩
        obtain rfl := Option.some.inj hfield
        exact ⟨bytes, rfl, htext, contains_base64.mp hin⟩
      · rintro ⟨_, hbytes, -, hin⟩
        obtain rfl := Option.some.inj hbytes
        exact ⟨_, rfl, contains_base64.mpr hin⟩

/-! ## Documents -/

/-- The secret is in no field of the document. -/
structure Document.Free (d : Document) (secret : Str) : Prop where
  url : ¬ secret <:+: d.request.url
  error : ∀ error, d.error = some error → ¬ secret <:+: error
  requestHeaders : ¬ headersContain d.request.headers secret
  requestBody : ¬ bodyContains d.request.body secret
  responseHeaders : ∀ r, d.response = some r → ¬ headersContain r.headers secret
  responseBody : ∀ r, d.response = some r → ¬ bodyContains r.body secret

/-- The secret is in headers of a sensitive name only. -/
def SensitiveOnly (headers : Dict) (secret : Str) : Prop :=
  ∀ h ∈ headers, secret <:+: h.2 → isSensitiveHeader h.1 = true

/-- What is handed to `record` has the secret only where the scrubber gets
at it: in headers of a sensitive name and in bodies that are texts. -/
structure TranscriptArgs.Scrubs (args : TranscriptArgs) (secret : Str) : Prop where
  url : ¬ secret <:+: args.request.url
  error : ∀ error, args.error = some error → ¬ secret <:+: error
  requestHeaders : SensitiveOnly args.request.headers secret
  requestBody : ∀ body, args.request.body = some body → ¬ OpaqueContains body secret
  responseHeaders : ∀ r, args.response = some r → SensitiveOnly r.headers secret
  responseBody : ∀ r, args.response = some r →
    ∀ body, r.body = some body → ¬ OpaqueContains body secret

theorem headers_free_iff {secret : Str} (hsecret : Scrubbable secret) (headers : Dict) :
    ¬ headersContain (scrubHeaders headers) secret ↔ SensitiveOnly headers secret := by
  rw [headersContain_scrub hsecret]
  constructor
  · intro h kv hmem hin
    exact Bool.not_eq_false _ |>.mp fun hplain => h ⟨kv, hmem, hplain, hin⟩
  · rintro h ⟨kv, hmem, hplain, hin⟩
    rw [h kv hmem hin] at hplain
    exact Bool.noConfusion hplain

theorem body_free_iff {secret : Str} (hsecret : Scrubbable secret) {knownSecrets : List Str}
    (hknown : secret ∈ knownSecrets) (body : Option Bytes) :
    ¬ bodyContains ((scrubBody body knownSecrets).map bodyField) secret ↔
      ∀ bytes, body = some bytes → ¬ OpaqueContains bytes secret := by
  rw [bodyContains_scrub hsecret hknown]
  exact ⟨fun h bytes hbytes hin => h ⟨bytes, hbytes, hin⟩,
    fun h ⟨bytes, hbytes, hin⟩ => h bytes hbytes hin⟩

/-- Field by field: what the recorder stores is free of a known secret
exactly if the scrubber gets at it wherever it is. -/
theorem record_free_iff {r : TranscriptRecorder} {secret : Str} (hsecret : Scrubbable secret)
    (hknown : secret ∈ r.knownSecrets) (args : TranscriptArgs) (now : Str) :
    (r.record args now).Free secret ↔ args.Scrubs secret := by
  obtain ⟨scanId, personaId, request, response, error⟩ := args
  have hheaders := fun headers => headers_free_iff hsecret headers
  have hbody := fun body => body_free_iff hsecret hknown body
  cases response with
  | none =>
    constructor
    · intro h
      exact ⟨h.url, h.error, (hheaders _).mp h.requestHeaders, (hbody _).mp h.requestBody,
        fun _ hr => (nomatch hr), fun _ hr => (nomatch hr)⟩
    · intro h
      exact ⟨h.url, h.error, (hheaders _).mpr h.requestHeaders, (hbody _).mpr h.requestBody,
        fun _ hr => (nomatch hr), fun _ hr => (nomatch hr)⟩
  | some response =>
    constructor
    · intro h
      refine ⟨h.url, h.error, (hheaders _).mp h.requestHeaders, (hbody _).mp h.requestBody,
        fun _ hr => ?_, fun _ hr => ?_⟩ <;> obtain rfl := Option.some.inj hr
      · exact (hheaders _).mp (h.responseHeaders _ rfl)
      · exact (hbody _).mp (h.responseBody _ rfl)
    · intro h
      refine ⟨h.url, h.error, (hheaders _).mpr h.requestHeaders, (hbody _).mpr h.requestBody,
        fun _ hr => ?_, fun _ hr => ?_⟩ <;> obtain rfl := Option.some.inj hr
      · exact (hheaders _).mpr (h.responseHeaders _ rfl)
      · exact (hbody _).mpr (h.responseBody _ rfl)

/-- **No known secret reaches evidence storage**, exactly if none is in a
URL, in an error text, under a header name that is not sensitive, or in a
body that is no UTF-8. -/
theorem record_secret_free_iff (r : TranscriptRecorder)
    (hsecrets : ∀ secret ∈ r.knownSecrets, Scrubbable secret) (args : TranscriptArgs) (now : Str) :
    (∀ secret ∈ r.knownSecrets, (r.record args now).Free secret) ↔
      ∀ secret ∈ r.knownSecrets, args.Scrubs secret :=
  forall₂_congr fun secret hknown => record_free_iff (hsecrets secret hknown) hknown args now

/-- The call of the repository's test of the recorder. -/
def loginArgs : TranscriptArgs where
  scanId := "scan-1".toList
  personaId := some "persona-admin".toList
  request := ⟨"POST".toList, "https://app.acme.test/login".toList,
    [("Authorization".toList, "Bearer super-secret-password".toList),
      ("Content-Type".toList, "application/json".toList)],
    some (encodeStrict "\x7b\"password\": \"super-secret-password\"\x7d".toList)⟩
  response := some ⟨200, [("Set-Cookie".toList, "sid=abc".toList)],
    some (encodeStrict "\x7b\"ok\": true\x7d".toList), 12⟩
  error := none

/-- The recorder of that test. -/
def passwordRecorder : TranscriptRecorder := .init (some ["super-secret-password".toList])

omit [PyRuntime] in
theorem passwordRecorder_scrubbable :
    ∀ secret ∈ passwordRecorder.knownSecrets, Scrubbable secret := by
  intro secret hmem
  obtain rfl := List.mem_singleton.mp hmem
  exact ⟨by decide +kernel, by decide +kernel, by decide +kernel⟩

omit [PyRuntime] in
/-- The test's transcript: the password is in a sensitive header and in a
JSON body, and neither reaches the document. -/
theorem loginArgs_secret_free :
    let _ := PyRuntime.ascii
    ∀ secret ∈ passwordRecorder.knownSecrets,
      (passwordRecorder.record loginArgs "2026-01-01T00:00:00+00:00".toList).Free secret := by
  intro runtime
  refine (record_secret_free_iff passwordRecorder passwordRecorder_scrubbable loginArgs _).mpr ?_
  intro secret hmem
  obtain rfl := List.mem_singleton.mp hmem
  have htext : ∀ text secret, ¬ OpaqueContains (encodeStrict text) secret := fun text _ h =>
    absurd ((decodeStrict_encodeStrict text).symm.trans h.1) (Option.some_ne_none text)
  refine ⟨by decide +kernel, fun _ h => (nomatch h), by unfold SensitiveOnly; decide +kernel,
    fun _ h => ?_, fun _ h => ?_, fun _ h => ?_⟩
  · exact Option.some.inj h ▸ htext _ _
  · obtain rfl := Option.some.inj h
    unfold SensitiveOnly
    decide +kernel
  · obtain rfl := Option.some.inj h
    exact fun _ hbody => Option.some.inj hbody ▸ htext _ _

omit [PyRuntime] in
/-- A password in the query of a link is stored with the URL. -/
theorem record_leaks_url :
    let _ := PyRuntime.ascii
    (∀ secret ∈ passwordRecorder.knownSecrets, Scrubbable secret) ∧
      ¬ ∀ secret ∈ passwordRecorder.knownSecrets,
        (passwordRecorder.record
          { loginArgs with request :=
              ⟨"GET".toList, "https://app.acme.test/in?p=super-secret-password".toList, [], none⟩ }
          "2026-01-01T00:00:00+00:00".toList).Free secret := by
  intro runtime
  refine ⟨passwordRecorder_scrubbable, fun h => ?_⟩
  exact (h "super-secret-password".toList List.mem_cons_self).url (by decide +kernel)

end Sentinel.Core
