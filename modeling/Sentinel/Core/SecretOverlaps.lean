/-
Sentinel.Core.SecretOverlaps — what `scrub_body` leaves of secrets that
overlap.

To say which characters of a body are removed, the text is scrubbed with
its places written on the characters (`scrubPlaced`): the passes read the
characters only, and the places that are left are those of the characters
that were not removed (`survivors`). The secrets are replaced one after
another, each in what the earlier ones have left of the body. Where each of
them would cut out other characters of the body than the rest, this makes
no difference (`FoundOnce.secretsRemoved`); where two share a character,
the one listed first breaks up the other (`splitPassword_survives`).
-/
import Sentinel.Core.ScrubTheorems
import Sentinel.Redaction.Cuts

namespace Sentinel.Core

open Sentinel.Py Sentinel.Redaction

/-! ## Scrubbing with places -/

/-- The characters of a text, each with its place. -/
def placed (text : Str) : List (Char × Option Nat) := text.zipIdx.map fun p => (p.1, some p.2)

/-- The marker, whose characters come from no place. -/
def placedRedacted : List (Char × Option Nat) := redacted.map fun c => (c, none)

theorem placed_fst (text : Str) : (placed text).map Prod.fst = text := by
  rw [placed, List.map_map]
  exact List.zipIdx_map_fst 0 text

theorem placed_getElem? (text : Str) (j : Nat) :
    (placed text)[j]?.bind Prod.snd = if j < text.length then some j else none := by
  simp only [placed, List.getElem?_map, List.getElem?_zipIdx]
  split <;> rename_i h
  · simp [List.getElem?_eq_getElem h]
  · simp [List.getElem?_eq_none (Nat.le_of_not_lt h)]

theorem placedRedacted_fst : placedRedacted.map Prod.fst = redacted := by
  rw [placedRedacted, List.map_map]
  exact List.map_id redacted

theorem placedRedacted_mark :
    placedRedacted.map Prod.fst = mark '«' "redacted".toList '»' := by
  rw [placedRedacted_fst, redacted_eq_mark]

theorem placedRedacted_labels : labels Prod.snd placedRedacted = [] := by decide +kernel

theorem replaceSecrets_cons (secret : Str) (rest : List Str) (text : Str) :
    replaceSecrets (secret :: rest) text =
      replaceSecrets rest (if secret = [] then text else replace text secret redacted) :=
  rfl

/-- The loop over the secrets reads the characters only. -/
theorem replaceEach_fst (knownSecrets : List Str) (text : List (Char × Option Nat)) :
    (replaceEach Prod.fst placedRedacted knownSecrets text).map Prod.fst =
      replaceSecrets knownSecrets (text.map Prod.fst) := by
  induction knownSecrets generalizing text with
  | nil => rfl
  | cons secret rest ih =>
    rw [replaceEach, List.foldl_cons, ← replaceEach, ih, replaceSecrets_cons]
    by_cases hnil : secret = []
    · rw [if_pos hnil, replaceMatches_absent (.inl hnil)]
    · rw [if_neg hnil, map_replaceMatches, placedRedacted_fst, replace, if_neg hnil, replaceAll]

section

variable [PyRuntime]

/-- `subPatterns` of a text whose characters carry places. -/
def subPlaced (patterns : List Regex) (text : List (Char × Option Nat)) :
    List (Char × Option Nat) :=
  patterns.foldl
    (fun text pattern => replaceMatches (reading Prod.fst pattern.matchLength) placedRedacted text)
    text

theorem subPlaced_fst (patterns : List Regex) (text : List (Char × Option Nat)) :
    (subPlaced patterns text).map Prod.fst = subPatterns patterns (text.map Prod.fst) := by
  induction patterns generalizing text with
  | nil => rfl
  | cons pattern patterns ih =>
    rw [subPlaced, List.foldl_cons, ← subPlaced, ih, map_replaceMatches, placedRedacted_fst]
    rfl

/-- The patterns bring no place in. -/
theorem subPlaced_labels (patterns : List Regex) (text : List (Char × Option Nat)) :
    (labels Prod.snd (subPlaced patterns text)).Sublist (labels Prod.snd text) := by
  induction patterns generalizing text with
  | nil => exact List.Sublist.refl _
  | cons pattern patterns ih =>
    exact (ih _).trans (labels_replaceMatches Prod.snd placedRedacted_labels _ text)

/-- `scrubText` of a text whose characters carry places. -/
def scrubPlaced (knownSecrets : List Str) (text : List (Char × Option Nat)) :
    List (Char × Option Nat) :=
  subPlaced secretPatterns (replaceEach Prod.fst placedRedacted knownSecrets text)

/-- The places make no difference to the characters. -/
theorem scrubPlaced_fst (knownSecrets : List Str) (text : List (Char × Option Nat)) :
    (scrubPlaced knownSecrets text).map Prod.fst = scrubText knownSecrets (text.map Prod.fst) := by
  rw [scrubPlaced, subPlaced_fst, replaceEach_fst, scrubText_eq]

/-- The places of the characters of a text that scrubbing does not remove. -/
def survivors (knownSecrets : List Str) (text : Str) : List Nat :=
  labels Prod.snd (scrubPlaced knownSecrets (placed text))

/-- What the loop over the secrets has removed stays removed. -/
theorem survivors_sublist (knownSecrets : List Str) (text : Str) :
    (survivors knownSecrets text).Sublist
      (labels Prod.snd (replaceEach Prod.fst placedRedacted knownSecrets (placed text))) :=
  subPlaced_labels secretPatterns _

end

/-! ## What is inside a secret -/

/-- The character at `i` is inside an occurrence of a known secret. -/
def InSecret (knownSecrets : List Str) (text : Str) (i : Nat) : Prop :=
  ∃ secret ∈ knownSecrets, ∃ start,
    secret <+: text.drop start ∧ start ≤ i ∧ i < start + secret.length

/-- An occurrence is part of the text. -/
theorem end_le_of_prefix_drop {secret text : Str} {start i : Nat} (hat : secret <+: text.drop start)
    (hfrom : start ≤ i) (hto : i < start + secret.length) : i < text.length := by
  have hlen := hat.length_le
  rw [List.length_drop] at hlen
  omega

theorem InSecret.lt_length {knownSecrets : List Str} {text : Str} {i : Nat}
    (h : InSecret knownSecrets text i) : i < text.length := by
  obtain ⟨_, _, _, hat, hfrom, hto⟩ := h
  exact end_le_of_prefix_drop hat hfrom hto

instance (knownSecrets : List Str) (text : Str) (i : Nat) :
    Decidable (InSecret knownSecrets text i) :=
  decidable_of_iff (∃ secret ∈ knownSecrets, ∃ start < text.length,
      secret <+: text.drop start ∧ start ≤ i ∧ i < start + secret.length) <| by
    constructor
    · rintro ⟨secret, hsecret, start, -, hat⟩
      exact ⟨secret, hsecret, start, hat⟩
    · rintro ⟨secret, hsecret, start, hat, hfrom, hto⟩
      have hi := end_le_of_prefix_drop hat hfrom hto
      exact ⟨secret, hsecret, start, by omega, hat, hfrom, hto⟩

/-- Nothing of a secret is left, whatever the order of the list. -/
structure SecretsRemoved [PyRuntime] (knownSecrets : List Str) (bytes : Bytes) (text : Str) :
    Prop where
  removed : ∀ i, InSecret knownSecrets text i → i ∉ survivors knownSecrets text
  anyOrder : ∀ order : List Str, order.Perm knownSecrets →
    scrubBody (some bytes) order = scrubBody (some bytes) knownSecrets

/-! ## What each secret would cut out -/

/-- `text.replace(secret, …)` would cut out the character at `i`. -/
def FoundBy (secret text : Str) (i : Nat) : Prop :=
  ∃ fate, (wordFates secret text)[i]? = some fate ∧ fate ≠ .kept

theorem FoundBy.lt_length {secret text : Str} {i : Nat} (h : FoundBy secret text i) :
    i < text.length := by
  obtain ⟨_, hfate, -⟩ := h
  rw [← length_wordFates secret text]
  exact (List.getElem?_eq_some_iff.mp hfate).1

instance (secret text : Str) (i : Nat) : Decidable (FoundBy secret text i) :=
  decidable_of_iff (∃ fate ∈ [Fate.head, Fate.body], (wordFates secret text)[i]? = some fate) <| by
    constructor
    · rintro ⟨fate, hfate, hat⟩
      exact ⟨fate, hat, by rintro rfl; simp at hfate⟩
    · rintro ⟨fate, hat, hcut⟩
      exact ⟨fate, by cases fate <;> simp at hcut ⊢, hat⟩

/-- What is found occurs. -/
theorem FoundBy.occurs {secret text : Str} {i : Nat} (h : FoundBy secret text i) :
    secret ≠ [] ∧ secret <:+: text := by
  obtain ⟨fate, hfate, hcut⟩ := h
  by_contra hnone
  have habsent : secret = [] ∨ ¬ secret <:+: text := by
    rwa [not_and_or, not_not] at hnone
  rw [wordFates_of_absent habsent, List.getElem?_replicate] at hfate
  split at hfate
  · exact hcut (Option.some.inj hfate).symm
  · cases hfate

/-- Each character inside a secret is found by one of the secrets alone,
and where one secret is found no other one is part of the marker's word. -/
structure FoundOnce (knownSecrets : List Str) (text : Str) : Prop where
  found : ∀ i, InSecret knownSecrets text i → ∃ secret ∈ knownSecrets, FoundBy secret text i
  once : ∀ secret ∈ knownSecrets, ∀ other ∈ knownSecrets, secret ≠ other →
    ∀ i, FoundBy secret text i → ¬ FoundBy other text i
  marker : ∀ secret ∈ knownSecrets, secret ≠ [] → secret <:+: text →
    ∀ other ∈ knownSecrets, other ≠ [] → other ≠ secret → ¬ other <:+: "redacted".toList

set_option synthInstance.maxSize 512 in
instance (knownSecrets : List Str) (text : Str) : Decidable (FoundOnce knownSecrets text) :=
  decidable_of_iff
    ((∀ i < text.length, InSecret knownSecrets text i →
        ∃ secret ∈ knownSecrets, FoundBy secret text i) ∧
      (∀ secret ∈ knownSecrets, ∀ other ∈ knownSecrets, secret ≠ other →
        ∀ i < text.length, FoundBy secret text i → ¬ FoundBy other text i) ∧
      ∀ secret ∈ knownSecrets, secret ≠ [] → secret <:+: text →
        ∀ other ∈ knownSecrets, other ≠ [] → other ≠ secret →
          ¬ other <:+: "redacted".toList) <| by
    constructor
    · rintro ⟨hfound, honce, hmarker⟩
      exact ⟨fun i hin => hfound i hin.lt_length hin,
        fun secret hsecret other hother hdiff i hat =>
          honce secret hsecret other hother hdiff i hat.lt_length hat, hmarker⟩
    · intro h
      exact ⟨fun i _ => h.found i,
        fun secret hsecret other hother hdiff i _ => h.once secret hsecret other hother hdiff i,
        h.marker⟩

/-- No secret has one of the marker's brackets. -/
def NoGuillemets (knownSecrets : List Str) : Prop :=
  ∀ secret ∈ knownSecrets, '«' ∉ secret ∧ '»' ∉ secret

namespace FoundOnce

variable {knownSecrets : List Str} {text : Str}

/-- Next to a secret that occurs, the others cannot be spelled by the marker. -/
theorem scrubbable (h : FoundOnce knownSecrets text) (hclean : NoGuillemets knownSecrets)
    {secret other : Str} (hsecret : secret ∈ knownSecrets) (hne : secret ≠ [])
    (hin : secret <:+: text) (hother : other ∈ knownSecrets) (hother' : other ≠ [])
    (hdiff : other ≠ secret) : Scrubbable other where
  opening := (hclean other hother).1
  closing := (hclean other hother).2
  inside := h.marker secret hsecret hne hin other hother hother' hdiff

theorem apart (h : FoundOnce knownSecrets text) {secret other : Str}
    (hsecret : secret ∈ knownSecrets) (hother : other ∈ knownSecrets) (hdiff : secret ≠ other) :
    Apart (wordFates secret text) (wordFates other text) := by
  intro i f g hf hg
  by_contra hcut
  obtain ⟨hf', hg'⟩ := not_or.mp hcut
  exact h.once secret hsecret other hother hdiff i ⟨f, hf, hf'⟩ ⟨g, hg, hg'⟩

theorem perm (h : FoundOnce knownSecrets text) {order : List Str}
    (hperm : order.Perm knownSecrets) : FoundOnce order text where
  found i hin := by
    obtain ⟨secret, hsecret, hat⟩ := hin
    obtain ⟨finder, hfinder, hfound⟩ := h.found i ⟨secret, hperm.mem_iff.mp hsecret, hat⟩
    exact ⟨finder, hperm.mem_iff.mpr hfinder, hfound⟩
  once secret hsecret other hother :=
    h.once secret (hperm.mem_iff.mp hsecret) other (hperm.mem_iff.mp hother)
  marker secret hsecret hne hin other hother :=
    h.marker secret (hperm.mem_iff.mp hsecret) hne hin other (hperm.mem_iff.mp hother)

/-- **Secrets that are all out of the marker's reach** are cut out at once. -/
theorem replaceEach_eq (h : FoundOnce knownSecrets text)
    (hscrub : ∀ secret ∈ knownSecrets, secret ≠ [] → Scrubbable secret) :
    replaceEach Prod.fst placedRedacted knownSecrets (placed text) =
      render placedRedacted (placed text) (cutBy knownSecrets text) := by
  have hcut := replaceEach_eq_render placedRedacted_mark (placed text) hscrub
    fun secret hsecret other hother hdiff => by
      rw [placed_fst]
      exact h.apart hsecret hother hdiff
  rwa [placed_fst] at hcut

/-- With one secret that occurs, the loop removes what that secret would. -/
theorem labels_replaceEach_only {secret : Str} (hsecret : secret ∈ knownSecrets)
    (hothers : ∀ other ∈ knownSecrets, other ≠ secret → other = [] ∨ ¬ other <:+: text) :
    (labels Prod.snd (replaceEach Prod.fst placedRedacted knownSecrets (placed text))).Sublist
      (labels Prod.snd (render placedRedacted (placed text) (wordFates secret text))) := by
  induction knownSecrets with
  | nil => exact absurd hsecret List.not_mem_nil
  | cons first rest ih =>
    obtain ⟨hfirst, hrest⟩ := List.forall_mem_cons.mp hothers
    by_cases heq : first = secret
    · have hpass := pass_reading Prod.fst (wordAt first) placedRedacted [] 0 (placed text)
      rw [placed_fst, List.map_nil, heq] at hpass
      rw [wordFates, ← hpass, ← heq]
      exact labels_replaceEach Prod.snd placedRedacted_labels rest _
    · have habsent : first = [] ∨ ¬ first <:+: (placed text).map Prod.fst := by
        rw [placed_fst]
        exact hfirst heq
      rw [replaceEach, List.foldl_cons, replaceMatches_absent habsent]
      exact ih ((List.mem_cons.mp hsecret).resolve_left fun h => heq h.symm) hrest

/-- With one secret that occurs, the loop replaces it as often as it is
listed, wherever it is listed. -/
theorem replaceSecrets_only {secret : Str} (hne : secret ≠ [])
    (hothers : ∀ other ∈ knownSecrets, other ≠ secret →
      other = [] ∨ Scrubbable other ∧ ¬ other <:+: text) :
    replaceSecrets knownSecrets text =
      (fun text => replace text secret redacted)^[knownSecrets.count secret] text := by
  induction knownSecrets generalizing text with
  | nil => rfl
  | cons first rest ih =>
    obtain ⟨hfirst, hrest⟩ := List.forall_mem_cons.mp hothers
    rw [replaceSecrets_cons]
    by_cases heq : first = secret
    · rw [heq, if_neg hne, List.count_cons_self, Function.iterate_succ_apply]
      refine ih fun other hother hdiff => ?_
      rcases hrest other hother hdiff with hnil | ⟨hscrub, habsent⟩
      · exact .inl hnil
      · exact .inr ⟨hscrub, replace_brings_none hscrub hne habsent⟩
    · rw [List.count_cons_of_ne heq]
      rcases hfirst heq with hnil | ⟨hscrub, habsent⟩
      · rw [if_pos hnil]
        exact ih hrest
      · rw [if_neg hscrub.ne_nil, replace, if_neg hscrub.ne_nil, replaceAll_of_not_infix _ habsent]
        exact ih hrest

/-- A place the secrets find is none of those kept. -/
theorem not_mem_of_found {secret : Str} {i : Nat} {fs : List Fate} (hfound : FoundBy secret text i)
    (hfs : fs[i]? = some .kept → (wordFates secret text)[i]? = some .kept) :
    i ∉ labels Prod.snd (render placedRedacted (placed text) fs) := by
  intro hmem
  obtain ⟨j, hlabel, hkept⟩ := mem_labels_render Prod.snd placedRedacted_labels hmem
  rw [placed_getElem?] at hlabel
  obtain rfl : j = i := by
    split at hlabel
    · exact Option.some.inj hlabel
    · cases hlabel
  obtain ⟨fate, hfate, hcut⟩ := hfound
  exact hcut (Option.some.inj (hfate.symm.trans (hfs hkept)))

/-- Where a secret occurs, either no secret at all can be spelled by the
marker, or it is the only one that occurs. -/
theorem scrubbable_or_only (h : FoundOnce knownSecrets text) (hclean : NoGuillemets knownSecrets)
    {secret : Str} (hsecret : secret ∈ knownSecrets) (hne : secret ≠ [])
    (hoccurs : secret <:+: text) :
    (∀ known ∈ knownSecrets, known ≠ [] → Scrubbable known) ∨
      ∀ other ∈ knownSecrets, other ≠ secret →
        other = [] ∨ Scrubbable other ∧ ¬ other <:+: text := by
  by_cases hmore : ∃ other ∈ knownSecrets, other ≠ secret ∧ other ≠ [] ∧ other <:+: text
  · obtain ⟨other, hother, hdiff, hne', hoccurs'⟩ := hmore
    refine .inl fun known hknown hnil => ?_
    by_cases heq : known = secret
    · exact h.scrubbable hclean hother hne' hoccurs' hknown hnil (heq ▸ hdiff.symm)
    · exact h.scrubbable hclean hsecret hne hoccurs hknown hnil heq
  · refine .inr fun other hother hdiff => ?_
    by_cases hnil : other = []
    · exact .inl hnil
    · exact .inr ⟨h.scrubbable hclean hsecret hne hoccurs hother hnil hdiff,
        fun hin => hmore ⟨other, hother, hdiff, hnil, hin⟩⟩

variable [PyRuntime]

theorem removed (h : FoundOnce knownSecrets text) (hclean : NoGuillemets knownSecrets) {i : Nat}
    (hin : InSecret knownSecrets text i) : i ∉ survivors knownSecrets text := by
  intro hleft
  have hloop := (survivors_sublist knownSecrets text).subset hleft
  obtain ⟨secret, hsecret, hfound⟩ := h.found i hin
  obtain ⟨hne, hoccurs⟩ := hfound.occurs
  rcases h.scrubbable_or_only hclean hsecret hne hoccurs with hscrub | honly
  · rw [h.replaceEach_eq hscrub] at hloop
    exact not_mem_of_found hfound (fun hkept => kept_of_cutBy hkept secret hsecret) hloop
  · have hothers : ∀ other ∈ knownSecrets, other ≠ secret → other = [] ∨ ¬ other <:+: text :=
      fun other hother hdiff => (honly other hother hdiff).imp_right And.right
    exact not_mem_of_found hfound id ((labels_replaceEach_only hsecret hothers).subset hloop)

omit [PyRuntime] in
theorem replaceSecrets_perm (h : FoundOnce knownSecrets text) (hclean : NoGuillemets knownSecrets)
    {order : List Str} (hperm : order.Perm knownSecrets) :
    replaceSecrets order text = replaceSecrets knownSecrets text := by
  by_cases hany : ∃ secret ∈ knownSecrets, secret ≠ [] ∧ secret <:+: text
  · obtain ⟨secret, hsecret, hne, hoccurs⟩ := hany
    rcases h.scrubbable_or_only hclean hsecret hne hoccurs with hscrub | honly
    · have hloop : ∀ secrets : List Str, replaceSecrets secrets text =
          (replaceEach Prod.fst placedRedacted secrets (placed text)).map Prod.fst := by
        intro secrets
        rw [replaceEach_fst, placed_fst]
      have hscrub' : ∀ known ∈ order, known ≠ [] → Scrubbable known :=
        fun known hknown => hscrub known (hperm.mem_iff.mp hknown)
      rw [hloop, hloop, h.replaceEach_eq hscrub, (h.perm hperm).replaceEach_eq hscrub',
        cutBy_perm hperm]
    · rw [replaceSecrets_only hne honly, ← hperm.count_eq]
      exact replaceSecrets_only hne fun other hother => honly other (hperm.mem_iff.mp hother)
  · have habsent : ∀ secret ∈ knownSecrets, secret ≠ [] → ¬ secret <:+: text :=
      fun secret hsecret hne hin => hany ⟨secret, hsecret, hne, hin⟩
    rw [replaceSecrets_of_absent habsent]
    exact replaceSecrets_of_absent fun secret hsecret => habsent secret (hperm.mem_iff.mp hsecret)

/-- **Secrets that share no character are removed**, whatever their order. -/
theorem secretsRemoved (hclean : NoGuillemets knownSecrets) {bytes : Bytes}
    (hbody : decodeStrict bytes = some text) (h : FoundOnce knownSecrets text) :
    SecretsRemoved knownSecrets bytes text where
  removed _ hin := h.removed hclean hin
  anyOrder order hperm := by
    rw [scrubBody_text hbody, scrubBody_text hbody, scrubText_eq, scrubText_eq,
      h.replaceSecrets_perm hclean hperm]

end FoundOnce

/-- A body with both passwords in it, one after the other. -/
theorem bothPasswords_removed :
    let _ := PyRuntime.ascii
    SecretsRemoved ["hunter2".toList, "s3cr3t".toList] (encodeStrict "a=hunter2&b=s3cr3t".toList)
      "a=hunter2&b=s3cr3t".toList := by
  intro runtime
  exact FoundOnce.secretsRemoved (by unfold NoGuillemets; decide +kernel)
    (decodeStrict_encodeStrict _) (by decide +kernel)

/-- The old password is listed first: the end of the new one is left. -/
theorem splitPassword_survives :
    let _ := PyRuntime.ascii
    NoGuillemets twoPasswords ∧
      scrubText twoPasswords "a=hunter2023".toList = "a=«redacted»023".toList ∧
      scrubText twoPasswords.reverse "a=hunter2023".toList = "a=«redacted»".toList ∧
      ¬ SecretsRemoved twoPasswords (encodeStrict "a=hunter2023".toList) "a=hunter2023".toList := by
  intro runtime
  refine ⟨by unfold NoGuillemets; decide +kernel, by decide +kernel, by decide +kernel, ?_⟩
  intro h
  have hin : InSecret twoPasswords "a=hunter2023".toList 9 := by decide +kernel
  have hleft : 9 ∈ survivors twoPasswords "a=hunter2023".toList := by decide +kernel
  exact h.removed 9 hin hleft

end Sentinel.Core
