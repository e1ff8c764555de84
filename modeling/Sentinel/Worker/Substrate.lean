/-
Sentinel.Worker.Substrate — `build_scope_guard` and `build_http_engine`:
the guard of one scan run, built from the persisted target and its scope
rules, the engine with its recorder, and the host boundary the guard
enforces.
-/
import Sentinel.Core.ScopeGuardTheorems
import Sentinel.Core.Transcript
import Sentinel.Db.Target

namespace Sentinel.Worker

open Sentinel.Py Sentinel.Core Sentinel.Db

/-- `build_scope_guard`. -/
def buildScopeGuard (target : Target) (scopeRules : List ScopeRuleRow) : ScopeGuard :=
  ScopeGuard.init [target.rootDomain, "*.".toList ++ target.rootDomain]
    (scopeRules.map fun r => ⟨r.kind, r.pattern, r.effect, r.label⟩) target.ownershipVerified

variable [PyRuntime]

/-- `build_http_engine`: the engine, and the recorder it was given. -/
def buildHttpEngine (scopeGuard : ScopeGuard) (targetId scanId : Str) :
    HttpEngine × TranscriptRecorder :=
  (.init scopeGuard targetId scanId, .init)

/-- The two host patterns of the guard cover exactly the hosts at or
below the root domain. -/
theorem buildScopeGuard_hostInScope_iff {rs hs : List Str} (hr : HostLabels rs)
    (hstar : ∀ l ∈ rs, '*' ∉ l) (hh : HostLabels hs) (rootDot : Bool) (target : Target)
    (scopeRules : List ScopeRuleRow) (ht : target.rootDomain = hostText rs false) :
    (buildScopeGuard target scopeRules).HostInScope (hostText hs rootDot) ↔
      foldLabels rs <:+ foldLabels hs := by
  simp only [ScopeGuard.HostInScope, buildScopeGuard, ScopeGuard.init, ht, List.mem_cons,
    List.not_mem_nil, or_false, exists_eq_or_imp, exists_eq_left,
    hostMatches_bare_iff hh hr hstar, hostMatches_wildcard_iff hh hr]
  constructor
  · rintro (heq | ⟨pre, -, heq⟩)
    · exact heq ▸ List.suffix_refl _
    · exact ⟨pre, heq.symm⟩
  · rintro ⟨pre, hpre⟩
    cases pre with
    | nil => exact Or.inl hpre.symm
    | cons l pre => exact Or.inr ⟨l :: pre, by simp, hpre.symm⟩

/-- Without rules nothing but the method is left to decide. -/
theorem buildScopeGuard_noRules (target : Target) (path method : Str) :
    (buildScopeGuard target []).PathInScope path ∧
      ((buildScopeGuard target []).MethodInScope method ↔ method ∈ defaultAllowedMethods) := by
  constructor
  · simp [ScopeGuard.PathInScope, ScopeGuard.pathIncludes, buildScopeGuard, ScopeGuard.init]
  · simp [ScopeGuard.MethodInScope, ScopeGuard.allowedMethods, ScopeGuard.methodIncludes,
      buildScopeGuard, ScopeGuard.init]

/-- **Host containment.** Whatever the rules say, a request the guard
allows goes to a verified target and to a host whose labels end in the
root domain's, ignoring case; without rules every such host passes with
a default method. -/
theorem buildScopeGuard_host_boundary {rs hs : List Str} (hr : HostLabels rs)
    (hstar : ∀ l ∈ rs, '*' ∉ l) (hh : HostLabels hs) (rootDot : Bool) (target : Target)
    (scopeRules : List ScopeRuleRow) (method url : Str) (parts : SplitResult)
    (ht : target.rootDomain = hostText rs false) (hparts : urlsplit url = .ok parts)
    (hhost : parts.hostname = some (hostText hs rootDot)) :
    ((buildScopeGuard target scopeRules).allows method url = true →
        target.ownershipVerified = true ∧ foldLabels rs <:+ foldLabels hs) ∧
      (target.ownershipVerified = true → upper method ∈ defaultAllowedMethods →
        foldLabels rs <:+ foldLabels hs → (buildScopeGuard target []).allows method url = true) := by
  have hgetD : parts.hostname.getD [] = hostText hs rootDot := by rw [hhost, Option.getD_some]
  constructor
  · intro hallow
    obtain ⟨hver, parts', hparts', hin, -, -⟩ := (allows_iff _ _ _).mp hallow
    obtain rfl : parts = parts' := by simpa [hparts] using hparts'
    rw [hgetD] at hin
    exact ⟨hver, (buildScopeGuard_hostInScope_iff hr hstar hh rootDot target scopeRules ht).mp hin⟩
  · intro hver hmethod hsuffix
    obtain ⟨hpath, hmethods⟩ := buildScopeGuard_noRules target parts.pathOrRoot (upper method)
    have hin := (buildScopeGuard_hostInScope_iff hr hstar hh rootDot target [] ht).mpr hsuffix
    rw [← hgetD] at hin
    exact (allows_iff _ _ _).mpr ⟨hver, parts, hparts, hin, hpath, hmethods.mpr hmethod⟩

omit [PyRuntime] in
/-- The boundary at `Acme.test`: a subdomain with the root dot is inside,
the look-alike `notacme.test` is outside. -/
theorem buildScopeGuard_host_boundary_acme :
    let _ := PyRuntime.ascii
    let target : Target := ⟨"t1".toList, "Acme.test".toList, true, true⟩
    (buildScopeGuard target []).allows "get".toList "https://API.acme.test./v1".toList = true ∧
      (buildScopeGuard target []).allows "GET".toList "https://notacme.test/".toList = false := by
  intro runtime target
  have hroot : HostLabels ["Acme".toList, "test".toList] :=
    ⟨by decide, by decide, by decide, by unfold LabelsFree; decide⟩
  have hapi : HostLabels ["api".toList, "acme".toList, "test".toList] :=
    ⟨by decide, by decide, by decide, by unfold LabelsFree; decide⟩
  have hother : HostLabels ["notacme".toList, "test".toList] :=
    ⟨by decide, by decide, by decide, by unfold LabelsFree; decide⟩
  have hinside := buildScopeGuard_host_boundary hroot (by decide) hapi true target []
    "get".toList "https://API.acme.test./v1".toList
    ⟨"https".toList, "API.acme.test.".toList, "/v1".toList, [], []⟩ (by decide) (by decide +kernel)
    (by decide +kernel)
  have houtside := buildScopeGuard_host_boundary hroot (by decide) hother false target []
    "GET".toList "https://notacme.test/".toList
    ⟨"https".toList, "notacme.test".toList, "/".toList, [], []⟩ (by decide) (by decide +kernel)
    (by decide +kernel)
  refine ⟨hinside.2 rfl (by decide) (by decide), ?_⟩
  rw [Bool.eq_false_iff]
  exact fun hallow => absurd (houtside.1 hallow).2 (by decide)

end Sentinel.Worker
