/-
Sentinel.Core.EquivalentPaths — the guards and two spellings of one
resource.

A client, a browser or a server normalises the path of a URL before it
acts on it; `ScopeGuard` and `DestructiveActionGuard` match the text of
the path as it was written. `evaluatePath_verdict` and `check_isSuspect`
read off what each guard makes of a path, and `judgedAlike_iff` says when
two spellings get the same answers. For URLs whose paths need no
normalisation the answers always agree (`judgedAlike_of_plain`), and for
no other two paths do they agree under every configuration
(`evaluate_alike_iff`).
-/
import Sentinel.Core.Destructive
import Sentinel.Core.ScopeGuardTheorems
import Sentinel.Uri.PathNormal

namespace Sentinel.Core

open Sentinel.Py Sentinel.Uri

variable [PyRuntime]

/-- Two URLs that parse and name one resource: scheme, host and query are
the same and the paths have one normal form. -/
structure SameResource (url₁ url₂ : Str) (parts₁ parts₂ : SplitResult) : Prop where
  parsed₁ : urlsplit url₁ = .ok parts₁
  parsed₂ : urlsplit url₂ = .ok parts₂
  scheme : parts₁.scheme = parts₂.scheme
  host : parts₁.hostname = parts₂.hostname
  query : parts₁.query = parts₂.query
  path : normalizePath parts₁.path = normalizePath parts₂.path

/-- The two guards answer alike for both URLs: the same verdict and the
same `is_suspect`, or the same exception. -/
structure JudgedAlike (g : ScopeGuard) (d : DestructiveActionGuard)
    (method linkText url₁ url₂ : Str) : Prop where
  verdict : (g.evaluate method url₁).map (·.verdict) = (g.evaluate method url₂).map (·.verdict)
  suspect : (d.check method url₁ linkText).map (·.isSuspect) =
    (d.check method url₂ linkText).map (·.isSuspect)

/-! ## The path rules -/

/-- Whether a rule of the list matches the path. -/
def anyPathMatch (path : Str) (rules : List ScopeRule) : Except PyError Bool :=
  (firstPathMatch path rules).map (·.isSome)

/-- The rules make the same of both paths: the same of the exclude rules
and, where these let the paths through, of the include rules. -/
def ScopeGuard.PathRulesAgree (g : ScopeGuard) (path₁ path₂ : Str) : Prop :=
  anyPathMatch path₁ g.pathExcludes = anyPathMatch path₂ g.pathExcludes ∧
    (anyPathMatch path₁ g.pathExcludes = .ok false →
      anyPathMatch path₁ g.pathIncludes = anyPathMatch path₂ g.pathIncludes)

theorem anyPathMatch_cons (path : Str) (r : ScopeRule) (rest : List ScopeRule) :
    anyPathMatch path (r :: rest) = (pathRuleMatches r path >>= fun found =>
      if found then .ok true else anyPathMatch path rest) := by
  unfold anyPathMatch
  rw [firstPathMatch]
  cases pathRuleMatches r path with
  | error e => rfl
  | ok b => cases b <;> rfl

/-- An invalid pattern raises the same, whatever the path. -/
theorem pathRuleMatches_error {r : ScopeRule} {path : Str} {e : PyError}
    (h : pathRuleMatches r path = .error e) (path' : Str) :
    pathRuleMatches r path' = .error e := by
  obtain ⟨kind, pattern, effect, label⟩ := r
  cases kind with
  | pathRegex =>
    simp only [pathRuleMatches, reSearch] at h ⊢
    cases hre : PyRuntime.reCompile pattern false with
    | error e' => rw [hre] at h; exact h
    | ok search => rw [hre] at h; exact nomatch h
  | host => exact nomatch h
  | pathPrefix => exact nomatch h
  | method => exact nomatch h

/-- So a list with an invalid pattern is never passed without a match. -/
theorem anyPathMatch_error {rules : List ScopeRule} {path : Str} {e : PyError}
    (h : anyPathMatch path rules = .error e) (path' : Str) :
    anyPathMatch path' rules ≠ .ok false := by
  induction rules with
  | nil => exact nomatch h
  | cons r rest ih =>
    rw [anyPathMatch_cons] at h ⊢
    cases hr : pathRuleMatches r path with
    | error e' =>
      rw [pathRuleMatches_error hr path']
      exact fun hok => nomatch hok
    | ok b =>
      cases hr' : pathRuleMatches r path' with
      | error e' => exact fun hok => nomatch hok
      | ok b' =>
        cases b with
        | true => rw [hr] at h; exact nomatch h
        | false =>
          rw [hr] at h
          cases b' with
          | true => exact fun hok => nomatch hok
          | false => exact ih h

/-! ## What `evaluate` makes of a path -/

/-- The verdict, given what the exclude rules and the include rules say. -/
def ScopeGuard.pathVerdict (g : ScopeGuard) (method : Str) (included : Bool) : ScopeVerdict :=
  if g.pathIncludes ≠ [] ∧ included = false then .blockedPathNotIncluded
  else (g.evaluateMethod method).verdict

theorem evaluatePath_verdict (g : ScopeGuard) (method path : Str) :
    (g.evaluatePath method path).map (·.verdict) =
      (anyPathMatch path g.pathExcludes >>= fun excluded =>
        if excluded then .ok .blockedPathExcluded
        else (anyPathMatch path g.pathIncludes).map (g.pathVerdict method)) := by
  unfold ScopeGuard.evaluatePath anyPathMatch ScopeGuard.pathVerdict
  cases firstPathMatch path g.pathExcludes with
  | error e => rfl
  | ok excluded =>
    cases excluded with
    | some rule => rfl
    | none =>
      cases firstPathMatch path g.pathIncludes with
      | error e => rfl
      | ok included =>
        by_cases hnone : g.pathIncludes ≠ [] ∧ included = none
        · have hfalse : g.pathIncludes ≠ [] ∧ included.isSome = false :=
            ⟨hnone.1, by rw [hnone.2]; rfl⟩
          simp [bind, Except.bind, pure, Except.pure, Except.map, hnone]
        · have hfalse : ¬(g.pathIncludes ≠ [] ∧ included.isSome = false) := fun h =>
            hnone ⟨h.1, by simpa using h.2⟩
          simp only [bind, Except.bind, pure, Except.pure, Except.map, if_neg hnone, if_neg hfalse]
          rfl

theorem evaluateMethod_verdict (g : ScopeGuard) (method : Str) :
    (g.evaluateMethod method).verdict = .allowed ∨
      (g.evaluateMethod method).verdict = .blockedMethod := by
  unfold ScopeGuard.evaluateMethod
  split
  · exact .inr rfl
  · split
    · exact .inl rfl
    · exact .inr rfl

theorem map_pathVerdict_ne_excluded (g : ScopeGuard) (method : Str)
    (included : Except PyError Bool) :
    included.map (g.pathVerdict method) ≠ .ok .blockedPathExcluded := by
  cases included with
  | error e => exact fun h => nomatch h
  | ok b =>
    intro h
    have hb : g.pathVerdict method b = .blockedPathExcluded := Except.ok.inj h
    unfold ScopeGuard.pathVerdict at hb
    split at hb
    · exact nomatch hb
    · rcases evaluateMethod_verdict g method with hm | hm <;> rw [hm] at hb <;> exact nomatch hb

/-- With include rules, the verdict tells whether one of them matched. -/
theorem pathVerdict_inj {g : ScopeGuard} (hinc : g.pathIncludes ≠ []) {method : Str}
    {included₁ included₂ : Bool}
    (h : g.pathVerdict method included₁ = g.pathVerdict method included₂) :
    included₁ = included₂ := by
  unfold ScopeGuard.pathVerdict at h
  cases included₁ <;> cases included₂ <;>
    rcases evaluateMethod_verdict g method with hm | hm <;> simp_all

/-- Past the exclude rules, the include rules tell the verdicts apart. -/
theorem includes_alike_iff (g : ScopeGuard) (method path₁ path₂ : Str) :
    (anyPathMatch path₁ g.pathIncludes).map (g.pathVerdict method) =
        (anyPathMatch path₂ g.pathIncludes).map (g.pathVerdict method) ↔
      anyPathMatch path₁ g.pathIncludes = anyPathMatch path₂ g.pathIncludes := by
  refine ⟨fun h => ?_, fun h => by rw [h]⟩
  by_cases hinc : g.pathIncludes = []
  · rw [hinc]
    rfl
  · cases h₁ : anyPathMatch path₁ g.pathIncludes with
    | error e₁ =>
      cases h₂ : anyPathMatch path₂ g.pathIncludes with
      | error e₂ => rw [h₁, h₂] at h; exact congrArg _ (Except.error.inj h)
      | ok b₂ => rw [h₁, h₂] at h; exact nomatch h
    | ok b₁ =>
      cases h₂ : anyPathMatch path₂ g.pathIncludes with
      | error e₂ => rw [h₁, h₂] at h; exact nomatch h
      | ok b₂ =>
        rw [h₁, h₂] at h
        rw [pathVerdict_inj hinc (Except.ok.inj h)]

/-- **The path blocks.** Two paths get the same verdict exactly where the
rules make the same of them. -/
theorem evaluatePath_alike_iff (g : ScopeGuard) (method path₁ path₂ : Str) :
    (g.evaluatePath method path₁).map (·.verdict) =
        (g.evaluatePath method path₂).map (·.verdict) ↔
      g.PathRulesAgree path₁ path₂ := by
  rw [evaluatePath_verdict, evaluatePath_verdict]
  unfold ScopeGuard.PathRulesAgree
  cases h₁ : anyPathMatch path₁ g.pathExcludes with
  | error e₁ =>
    cases h₂ : anyPathMatch path₂ g.pathExcludes with
    | error e₂ => simp [bind, Except.bind]
    | ok b₂ =>
      cases b₂ with
      | true => simp [bind, Except.bind]
      | false => exact absurd h₂ (anyPathMatch_error h₁ path₂)
  | ok b₁ =>
    cases h₂ : anyPathMatch path₂ g.pathExcludes with
    | error e₂ =>
      cases b₁ with
      | true => simp [bind, Except.bind]
      | false => exact absurd h₁ (anyPathMatch_error h₂ path₁)
    | ok b₂ =>
      cases b₁ <;> cases b₂
      case true.true => simp [bind, Except.bind]
      case true.false =>
        refine ⟨fun h => ?_, fun h => nomatch h.1⟩
        exact absurd h.symm (map_pathVerdict_ne_excluded g method _)
      case false.true =>
        refine ⟨fun h => ?_, fun h => nomatch h.1⟩
        exact absurd h (map_pathVerdict_ne_excluded g method _)
      case false.false =>
        simp only [bind, Except.bind, Bool.false_eq_true, if_false, true_and, forall_const]
        exact includes_alike_iff g method path₁ path₂

/-! ## The destructive guard -/

/-- The text the patterns are searched in. -/
def haystack (parts : SplitResult) (linkText : Str) : Str :=
  join " ".toList [parts.path, parts.query, linkText]

/-- The method alone makes the request suspect. -/
def DestructiveActionGuard.SuspectsMethod (d : DestructiveActionGuard) (method : Str) : Prop :=
  upper method ∈ nonIdempotentMethods ∧ d.readWriteEnabled = false

instance (d : DestructiveActionGuard) (method : Str) : Decidable (d.SuspectsMethod method) :=
  inferInstanceAs (Decidable (_ ∧ _))

/-- A pattern is found in the text. -/
def DestructiveActionGuard.SuspectsText (d : DestructiveActionGuard) (text : Str) : Prop :=
  ∃ p ∈ d.compiled, p.search text = true

instance (d : DestructiveActionGuard) (text : Str) : Decidable (d.SuspectsText text) :=
  inferInstanceAs (Decidable (∃ p ∈ d.compiled, _))

theorem check_isSuspect (d : DestructiveActionGuard) (method : Str) {url : Str}
    {parts : SplitResult} (hparts : urlsplit url = .ok parts) (linkText : Str) :
    ∃ suspect, (d.check method url linkText).map (·.isSuspect) = .ok suspect ∧
      (suspect = true ↔ d.SuspectsText (haystack parts linkText) ∨ d.SuspectsMethod method) := by
  unfold DestructiveActionGuard.check
  rw [hparts]
  dsimp only [bind, Except.bind]
  rw [← haystack]
  cases hfind : d.compiled.find? fun p => p.search (haystack parts linkText) with
  | some p =>
    have hp := List.find?_some hfind
    exact ⟨true, rfl, fun _ => .inl ⟨p, List.mem_of_find?_eq_some hfind, hp⟩, fun _ => rfl⟩
  | none =>
    have hnone : ¬d.SuspectsText (haystack parts linkText) := by
      rintro ⟨p, hp, hsearch⟩
      exact List.find?_eq_none.mp hfind p hp hsearch
    by_cases hm : upper method ∈ nonIdempotentMethods ∧ d.readWriteEnabled = false
    · exact ⟨true, by rw [if_pos hm]; rfl, fun _ => .inr hm, fun _ => rfl⟩
    · have hclear : ¬(d.SuspectsText (haystack parts linkText) ∨ d.SuspectsMethod method) :=
        fun h => h.elim hnone hm
      exact ⟨false, by rw [if_neg hm]; rfl, fun h => (nomatch h), fun h => absurd h hclear⟩

theorem check_alike_iff (d : DestructiveActionGuard) (method linkText : Str) {url₁ url₂ : Str}
    {parts₁ parts₂ : SplitResult} (h₁ : urlsplit url₁ = .ok parts₁)
    (h₂ : urlsplit url₂ = .ok parts₂) :
    (d.check method url₁ linkText).map (·.isSuspect) =
        (d.check method url₂ linkText).map (·.isSuspect) ↔
      d.SuspectsMethod method ∨
        (d.SuspectsText (haystack parts₁ linkText) ↔
          d.SuspectsText (haystack parts₂ linkText)) := by
  obtain ⟨s₁, heq₁, hs₁⟩ := check_isSuspect d method h₁ linkText
  obtain ⟨s₂, heq₂, hs₂⟩ := check_isSuspect d method h₂ linkText
  rw [heq₁, heq₂, Except.ok.injEq, Bool.eq_iff_iff, hs₁, hs₂]
  by_cases hm : d.SuspectsMethod method
  · simp [hm]
  · simp [hm]

/-! ## Two spellings of one resource -/

theorem evaluate_alike_iff_of_parts (g : ScopeGuard) (method : Str) {url₁ url₂ : Str}
    {parts₁ parts₂ : SplitResult} (h₁ : urlsplit url₁ = .ok parts₁)
    (h₂ : urlsplit url₂ = .ok parts₂) (hhost : parts₁.hostname = parts₂.hostname) :
    (g.evaluate method url₁).map (·.verdict) = (g.evaluate method url₂).map (·.verdict) ↔
      (g.targetOwnershipVerified = true → g.HostInScope (parts₁.hostname.getD []) →
        g.PathRulesAgree parts₁.pathOrRoot parts₂.pathOrRoot) := by
  unfold ScopeGuard.evaluate
  cases g.targetOwnershipVerified with
  | false => simp
  | true =>
    rw [h₁, h₂]
    simp only [Bool.not_true, Bool.false_eq_true, if_false, bind, Except.bind]
    rw [← hhost]
    have hscope : g.allowedHosts.any (hostMatches (parts₁.hostname.getD [])) = true ↔
        g.HostInScope (parts₁.hostname.getD []) := by
      simp [ScopeGuard.HostInScope, List.any_eq_true]
    rw [← hscope, ← evaluatePath_alike_iff g (upper method)]
    cases g.allowedHosts.any (hostMatches (parts₁.hostname.getD [])) with
    | false => simp [pure, Except.pure, Except.map]
    | true => simp

/-- **Spelling and resource.** Two spellings of one resource are judged
alike exactly where the configured rules and patterns happen not to tell
the spellings apart. -/
theorem judgedAlike_iff {g : ScopeGuard} {d : DestructiveActionGuard} {method linkText : Str}
    {url₁ url₂ : Str} {parts₁ parts₂ : SplitResult}
    (h : SameResource url₁ url₂ parts₁ parts₂) :
    JudgedAlike g d method linkText url₁ url₂ ↔
      (g.targetOwnershipVerified = true → g.HostInScope (parts₁.hostname.getD []) →
        g.PathRulesAgree parts₁.pathOrRoot parts₂.pathOrRoot) ∧
      (d.SuspectsMethod method ∨
        (d.SuspectsText (haystack parts₁ linkText) ↔
          d.SuspectsText (haystack parts₂ linkText))) := by
  rw [← evaluate_alike_iff_of_parts g method h.parsed₁ h.parsed₂ h.host,
    ← check_alike_iff d method linkText h.parsed₁ h.parsed₂]
  exact ⟨fun halike => ⟨halike.verdict, halike.suspect⟩, fun hboth => ⟨hboth.1, hboth.2⟩⟩

/-- The exclude rule for everything under `/admin`. -/
def adminExclude : ScopeRule := ⟨.pathPrefix, "/admin".toList, .excludes, []⟩

/-- A verified target with that rule. -/
def adminGuard : ScopeGuard := .init ["app.acme.test".toList] [adminExclude] true

def adminDelete : Str := "https://app.acme.test/admin/delete".toList

/-- The same resource, with a dot segment and an encoded letter. -/
def adminDeleteRespelt : Str := "https://app.acme.test/x/../admin/%64elete".toList

def adminParts : SplitResult :=
  ⟨"https".toList, "app.acme.test".toList, "/admin/delete".toList, [], []⟩

def adminPartsRespelt : SplitResult :=
  ⟨"https".toList, "app.acme.test".toList, "/x/../admin/%64elete".toList, [], []⟩

omit [PyRuntime] in
/-- The excluded path is let through under its other spelling, and the
destructive one is not suspected. -/
theorem adminDelete_judged_by_spelling :
    let _ := PyRuntime.ascii
    SameResource adminDelete adminDeleteRespelt adminParts adminPartsRespelt ∧
      ¬JudgedAlike adminGuard .default "GET".toList [] adminDelete adminDeleteRespelt ∧
      adminGuard.allows "GET".toList adminDelete = false ∧
      adminGuard.allows "GET".toList adminDeleteRespelt = true ∧
      DestructiveActionGuard.default.clears "GET".toList adminDelete = false ∧
      DestructiveActionGuard.default.clears "GET".toList adminDeleteRespelt = true := by
  intro runtime
  refine ⟨?_, fun h => absurd h.verdict (by decide +kernel), ?_⟩
  · constructor <;> decide +kernel
  · decide +kernel

omit [PyRuntime] in
/-- The rule for `/admin` tells neither spelling of `/dashboard` apart. -/
theorem dashboard_judgedAlike :
    let _ := PyRuntime.ascii
    JudgedAlike adminGuard .default "GET".toList [] "https://app.acme.test/dashboard".toList
      "https://app.acme.test/x/../%64ashboard".toList := by
  intro runtime
  have hsame : SameResource "https://app.acme.test/dashboard".toList
      "https://app.acme.test/x/../%64ashboard".toList
      ⟨"https".toList, "app.acme.test".toList, "/dashboard".toList, [], []⟩
      ⟨"https".toList, "app.acme.test".toList, "/x/../%64ashboard".toList, [], []⟩ := by
    constructor <;> decide +kernel
  refine (judgedAlike_iff hsame).mpr ⟨fun _ _ => ⟨?_, fun _ => ?_⟩, .inr ?_⟩ <;> decide +kernel

/-- Paths without a percent sign and without a dot have one spelling. -/
theorem judgedAlike_of_plain (g : ScopeGuard) (d : DestructiveActionGuard) (method linkText : Str)
    {url₁ url₂ : Str} {parts₁ parts₂ : SplitResult}
    (h : SameResource url₁ url₂ parts₁ parts₂)
    (hplain₁ : '%' ∉ parts₁.path ∧ '.' ∉ parts₁.path)
    (hplain₂ : '%' ∉ parts₂.path ∧ '.' ∉ parts₂.path) :
    JudgedAlike g d method linkText url₁ url₂ := by
  have hpath : parts₁.path = parts₂.path := by
    have := h.path
    rwa [normalizePath_of_plain hplain₁.1 hplain₁.2,
      normalizePath_of_plain hplain₂.1 hplain₂.2] at this
  constructor
  · refine (evaluate_alike_iff_of_parts g method h.parsed₁ h.parsed₂ h.host).mpr fun _ _ => ?_
    rw [SplitResult.pathOrRoot, SplitResult.pathOrRoot, hpath]
    exact ⟨rfl, fun _ => rfl⟩
  · refine (check_alike_iff d method linkText h.parsed₁ h.parsed₂).mpr (.inr ?_)
    rw [haystack, haystack, hpath, h.query]

/-! ## Every configuration -/

/-- A host name matches itself as a pattern, a wildcard too. -/
theorem hostMatches_self (host : Str) : hostMatches host host = true := by
  unfold hostMatches
  dsimp only
  split
  · next hstar =>
    generalize rstripChar '.' (lower host) = name at hstar ⊢
    have hsuffix : endswith name (name.drop 1) = true := by
      simpa [endswith] using List.drop_suffix 1 name
    have hne : name ≠ lstripChar '.' (name.drop 1) := by
      intro heq
      have hshort := (List.dropWhile_sublist (l := name.drop 1) (· == '.')).length_le
      have hlong : 2 ≤ name.length := (List.isPrefixOf_iff_prefix.mp hstar).length_le
      have hlen := congrArg List.length heq
      simp only [lstripChar, List.length_drop] at hlen hshort
      omega
    rw [hsuffix, Bool.true_and]
    exact bne_iff_ne.mpr hne
  · exact beq_self_eq_true _

/-- The guard that excludes what begins with one text. -/
def prefixExclude (host path : Str) : ScopeGuard :=
  .init [host] [⟨.pathPrefix, path, .excludes, []⟩] true

theorem prefixExclude_excludes (host path path' : Str) :
    anyPathMatch path' (prefixExclude host path).pathExcludes = .ok (startswith path' path) := by
  show anyPathMatch path' [⟨.pathPrefix, path, .excludes, []⟩] = _
  rw [anyPathMatch_cons]
  cases hm : startswith path' path with
  | true => simp [pathRuleMatches, hm, bind, Except.bind]
  | false => simp [pathRuleMatches, hm, bind, Except.bind, anyPathMatch, firstPathMatch, Except.map]

/-- **No guard sees the resource.** Two spellings get the same verdict
from every configured guard only if their paths are the same text. -/
theorem evaluate_alike_iff {url₁ url₂ : Str} {parts₁ parts₂ : SplitResult}
    (h : SameResource url₁ url₂ parts₁ parts₂) :
    (∀ (g : ScopeGuard) (method : Str),
        (g.evaluate method url₁).map (·.verdict) = (g.evaluate method url₂).map (·.verdict)) ↔
      parts₁.pathOrRoot = parts₂.pathOrRoot := by
  constructor
  · intro halike
    have hbegins : ∀ path,
        startswith parts₁.pathOrRoot path = startswith parts₂.pathOrRoot path := by
      intro path
      have hrules := (evaluate_alike_iff_of_parts _ [] h.parsed₁ h.parsed₂ h.host).mp
        (halike (prefixExclude (parts₁.hostname.getD []) path) []) rfl
        ⟨_, List.mem_singleton_self _, hostMatches_self _⟩
      have hexcl := hrules.1
      rw [prefixExclude_excludes, prefixExclude_excludes] at hexcl
      exact Except.ok.inj hexcl
    have h₁ : parts₁.pathOrRoot <+: parts₂.pathOrRoot := by
      have hself : startswith parts₁.pathOrRoot parts₁.pathOrRoot = true := by simp [startswith]
      exact List.isPrefixOf_iff_prefix.mp ((hbegins _).symm.trans hself)
    have h₂ : parts₂.pathOrRoot <+: parts₁.pathOrRoot := by
      have hself : startswith parts₂.pathOrRoot parts₂.pathOrRoot = true := by simp [startswith]
      exact List.isPrefixOf_iff_prefix.mp ((hbegins _).trans hself)
    exact h₁.eq_of_length (Nat.le_antisymm h₁.length_le h₂.length_le)
  · intro hpath g method
    rw [evaluate_alike_iff_of_parts g method h.parsed₁ h.parsed₂ h.host, hpath]
    exact fun _ _ => ⟨rfl, fun _ => rfl⟩

end Sentinel.Core
