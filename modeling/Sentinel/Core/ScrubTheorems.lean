/-
Sentinel.Core.ScrubTheorems — what `scrub_body` leaves of a text.

`scrub_body` runs over a text once for every known secret and then once
for every pattern. None of these passes makes an occurrence of a secret
that was not there before: the marker has a letter no secret has at either
end (`Redaction.Spliced.old_word`). So what one pass has removed stays
removed, through the other secrets and through the patterns
(`scrubBody_removes`).
-/
import Sentinel.Core.TranscriptTheorems

namespace Sentinel.Core

open Sentinel.Py Sentinel.Redaction

/-- The first loop of `scrub_body`. -/
def replaceSecrets (knownSecrets : List Str) (text : Str) : Str :=
  knownSecrets.foldl
    (fun text secret => if secret = [] then text else replace text secret redacted) text

/-- A text without the secrets is left alone by the loop over them. -/
theorem replaceSecrets_of_absent {knownSecrets : List Str} {text : Str}
    (h : ∀ secret ∈ knownSecrets, secret ≠ [] → ¬ secret <:+: text) :
    replaceSecrets knownSecrets text = text := by
  unfold replaceSecrets
  induction knownSecrets with
  | nil => rfl
  | cons secret rest ih =>
    obtain ⟨hsecret, hrest⟩ := List.forall_mem_cons.mp h
    rw [List.foldl_cons]
    by_cases hnil : secret = []
    · rw [if_pos hnil]
      exact ih hrest
    · rw [if_neg hnil, replace, if_neg hnil, replaceAll_of_not_infix _ (hsecret hnil)]
      exact ih hrest

variable [PyRuntime]

/-- The second loop, over some of the patterns. -/
def subPatterns (patterns : List Regex) (text : Str) : Str :=
  patterns.foldl (fun text pattern => pattern.sub redacted text) text

theorem scrubText_eq (knownSecrets : List Str) (text : Str) :
    scrubText knownSecrets text = subPatterns secretPatterns (replaceSecrets knownSecrets text) :=
  rfl

theorem scrubBody_text {bytes : Bytes} {text : Str} (h : decodeStrict bytes = some text)
    (knownSecrets : List Str) :
    scrubBody (some bytes) knownSecrets = some (encodeStrict (scrubText knownSecrets text)) := by
  rw [scrubBody, Option.map_some, h]

/-- **Every known secret is removed** from a body that is UTF-8, and for
good: of its two loops, no secret that the first has run over occurs in the
text at any later point, neither among the other secrets nor between the
patterns of the second, and in the result there is nothing left to replace. -/
theorem scrubBody_removes {knownSecrets : List Str}
    (hsecrets : ∀ secret ∈ knownSecrets, Scrubbable secret) {bytes : Bytes} {text : Str}
    (hbody : decodeStrict bytes = some text) :
    scrubBody (some bytes) knownSecrets =
        some (encodeStrict (subPatterns secretPatterns (replaceSecrets knownSecrets text))) ∧
      (∃ out result, scrubBody (some bytes) knownSecrets = some out ∧
        decodeStrict out = some result ∧ (∀ secret ∈ knownSecrets, ¬ secret <:+: result) ∧
        replaceSecrets knownSecrets result = result) ∧
      (∀ run rest, knownSecrets = run ++ rest →
        ∀ secret ∈ run, ¬ secret <:+: replaceSecrets run text) ∧
      ∀ run rest, secretPatterns = run ++ rest →
        ∀ secret ∈ knownSecrets, ¬ secret <:+: subPatterns run (replaceSecrets knownSecrets text) := by
  have hloop : ∀ run rest, knownSecrets = run ++ rest →
      ∀ secret ∈ run, ¬ secret <:+: replaceSecrets run text := by
    intro run rest hsplit secret hsecret
    have hknown : secret ∈ knownSecrets := hsplit ▸ List.mem_append_left rest hsecret
    exact replaceAll_absent (hsecrets secret hknown) run (.inl hsecret)
  have hpatterns : ∀ run, ∀ secret ∈ knownSecrets,
      ¬ secret <:+: subPatterns run (replaceSecrets knownSecrets text) := by
    intro run secret hsecret
    exact subAll_brings_none (hsecrets secret hsecret) run
      (hloop knownSecrets [] (List.append_nil _).symm secret hsecret)
  have hscrubbed := scrubBody_text hbody knownSecrets
  refine ⟨hscrubbed, ⟨_, _, hscrubbed, decodeStrict_encodeStrict _, ?_, ?_⟩, hloop,
    fun run _ _ => hpatterns run⟩
  · exact hpatterns secretPatterns
  · exact replaceSecrets_of_absent fun secret hsecret _ => hpatterns secretPatterns secret hsecret

/-- An old password and the one it was extended to. -/
def twoPasswords : List Str := ["hunter2".toList, "hunter2023".toList]

omit [PyRuntime] in
/-- Both passwords in one body: the result has neither. -/
theorem twoPasswords_removed :
    let _ := PyRuntime.ascii
    ∃ out result, scrubBody (some (encodeStrict "a=hunter2&b=hunter2023".toList)) twoPasswords =
        some out ∧ decodeStrict out = some result ∧
      ∀ secret ∈ twoPasswords, ¬ secret <:+: result := by
  intro runtime
  have hsecrets : ∀ secret ∈ twoPasswords, Scrubbable secret := by
    intro secret hmem
    rcases List.mem_cons.mp hmem with rfl | hmem
    · exact ⟨by decide +kernel, by decide +kernel, by decide +kernel⟩
    · obtain rfl := List.mem_singleton.mp hmem
      exact ⟨by decide +kernel, by decide +kernel, by decide +kernel⟩
  obtain ⟨-, ⟨out, result, hout, hresult, hnone, -⟩, -⟩ :=
    scrubBody_removes hsecrets (decodeStrict_encodeStrict "a=hunter2&b=hunter2023".toList)
  exact ⟨out, result, hout, hresult, hnone⟩

end Sentinel.Core
