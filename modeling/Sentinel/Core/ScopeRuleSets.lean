/-
Sentinel.Core.ScopeRuleSets — the scope rules of a guard as a set.

The rules of a target come out of a query that orders nothing. `evaluate`
runs over them four times, stops at the first match and switches to
allow-listing when it meets an include rule; as long as the patterns
compile its verdict depends on which rules there are and on nothing else
(`evaluate_reads_rule_set`). The reason and the matched rule of a decision
do depend on the order: they name the first rule that matched.
-/
import Sentinel.Core.EquivalentPaths

namespace Sentinel.Core

open Sentinel.Py

/-- The two lists have the same rules, in any order and number. -/
def SameRules (rules rules' : List ScopeRule) : Prop := ∀ r, r ∈ rules ↔ r ∈ rules'

/-- The guard with other rules. -/
def ScopeGuard.withRules (g : ScopeGuard) (rules : List ScopeRule) : ScopeGuard :=
  { g with rules := rules }

theorem SameRules.filter {rules rules' : List ScopeRule} (h : SameRules rules rules')
    (p : ScopeRule → Bool) : SameRules (rules.filter p) (rules'.filter p) := by
  intro r
  rw [List.mem_filter, List.mem_filter, h r]

theorem SameRules.eq_nil_iff {rules rules' : List ScopeRule} (h : SameRules rules rules') :
    rules = [] ↔ rules' = [] := by
  rw [List.eq_nil_iff_forall_not_mem, List.eq_nil_iff_forall_not_mem]
  exact forall_congr' fun r => not_congr (h r)

variable [PyRuntime]

/-! ## Path rules -/

/-- `re.compile` takes the pattern of the rule, if it is a `path_regex`. -/
def ScopeRule.Compiles (r : ScopeRule) : Prop :=
  r.kind = .pathRegex → ∃ search, PyRuntime.reCompile r.pattern false = .ok search

theorem pathRuleMatches_of_compiles {r : ScopeRule} (h : r.Compiles) (path : Str) :
    ∃ found, pathRuleMatches r path = .ok found := by
  obtain ⟨kind, pattern, effect, label⟩ := r
  cases kind with
  | host => exact ⟨false, rfl⟩
  | pathPrefix => exact ⟨startswith path pattern, rfl⟩
  | pathRegex =>
    obtain ⟨search, hsearch⟩ := h rfl
    refine ⟨search path, ?_⟩
    simp only [pathRuleMatches, reSearch]
    rw [hsearch]
    rfl
  | method => exact ⟨false, rfl⟩

/-- With patterns that compile, the loop over path rules answers whether
one of them matches. -/
theorem anyPathMatch_of_compiles {rules : List ScopeRule} (h : ∀ r ∈ rules, r.Compiles)
    (path : Str) :
    ∃ found, anyPathMatch path rules = .ok found ∧
      (found = true ↔ ∃ r ∈ rules, pathRuleMatches r path = .ok true) := by
  induction rules with
  | nil => exact ⟨false, rfl, by simp⟩
  | cons r rest ih =>
    obtain ⟨hr, hrest⟩ := List.forall_mem_cons.mp h
    obtain ⟨here, hhere⟩ := pathRuleMatches_of_compiles hr path
    rw [anyPathMatch_cons, hhere]
    cases here with
    | true => exact ⟨true, rfl, fun _ => ⟨r, List.mem_cons_self, hhere⟩, fun _ => rfl⟩
    | false =>
      obtain ⟨found, hfound, hiff⟩ := ih hrest
      refine ⟨found, hfound, ?_⟩
      rw [hiff, List.exists_mem_cons_iff, hhere]
      simp

theorem anyPathMatch_congr {rules rules' : List ScopeRule} (hsame : SameRules rules rules')
    (h : ∀ r ∈ rules, r.Compiles) (path : Str) :
    anyPathMatch path rules = anyPathMatch path rules' := by
  have h' : ∀ r ∈ rules', r.Compiles := fun r hr => h r ((hsame r).mpr hr)
  obtain ⟨found, hfound, hiff⟩ := anyPathMatch_of_compiles h path
  obtain ⟨found', hfound', hiff'⟩ := anyPathMatch_of_compiles h' path
  have hmatch : (∃ r ∈ rules, pathRuleMatches r path = .ok true) ↔
      ∃ r ∈ rules', pathRuleMatches r path = .ok true :=
    exists_congr fun r => and_congr_left fun _ => hsame r
  rw [hfound, hfound', Bool.eq_iff_iff.mpr (hiff.trans (hmatch.trans hiff'.symm))]

/-! ## Method rules -/

theorem allowedMethods_congr (g : ScopeGuard) {rules rules' : List ScopeRule}
    (hsame : SameRules rules rules') (method : Str) :
    method ∈ (g.withRules rules).allowedMethods ↔ method ∈ (g.withRules rules').allowedMethods := by
  have hincludes := hsame.filter fun r => r.kind == .method && r.effect == .includes
  have hmem : ∀ m, m ∈ (g.withRules rules).methodIncludes ↔
      m ∈ (g.withRules rules').methodIncludes := by
    intro m
    unfold ScopeGuard.methodIncludes ScopeGuard.withRules
    rw [List.mem_map, List.mem_map]
    exact exists_congr fun r => and_congr_left fun _ => hincludes r
  have hnil : (g.withRules rules).methodIncludes = [] ↔
      (g.withRules rules').methodIncludes = [] := by
    unfold ScopeGuard.methodIncludes ScopeGuard.withRules
    rw [List.map_eq_nil_iff, List.map_eq_nil_iff]
    exact hincludes.eq_nil_iff
  unfold ScopeGuard.allowedMethods
  by_cases hempty : (g.withRules rules).methodIncludes = []
  · rw [if_pos hempty, if_pos (hnil.mp hempty)]
    rfl
  · rw [if_neg hempty, if_neg fun h => hempty (hnil.mpr h)]
    exact hmem method

theorem methodInScope_congr (g : ScopeGuard) {rules rules' : List ScopeRule}
    (hsame : SameRules rules rules') (method : Str) :
    (g.withRules rules).MethodInScope method ↔ (g.withRules rules').MethodInScope method := by
  unfold ScopeGuard.MethodInScope
  rw [allowedMethods_congr g hsame method]
  refine and_congr_left fun _ => ?_
  exact forall_congr' fun r => imp_congr_left (hsame r)

/-- The method blocks have two verdicts, and allow what is in scope. -/
theorem evaluateMethod_congr (g : ScopeGuard) {rules rules' : List ScopeRule}
    (hsame : SameRules rules rules') (method : Str) :
    ((g.withRules rules).evaluateMethod method).verdict =
      ((g.withRules rules').evaluateMethod method).verdict := by
  have hallowed : ((g.withRules rules).evaluateMethod method).allowed = true ↔
      ((g.withRules rules').evaluateMethod method).allowed = true := by
    rw [evaluateMethod_allowed_iff, evaluateMethod_allowed_iff]
    exact methodInScope_congr g hsame method
  simp only [ScopeDecision.allowed, beq_iff_eq] at hallowed
  rcases evaluateMethod_verdict (g.withRules rules) method with h | h
  · rw [h, hallowed.mp h]
  · rcases evaluateMethod_verdict (g.withRules rules') method with h' | h'
    · rw [hallowed.mpr h'] at h
      cases h
    · rw [h, h']

/-! ## The verdict -/

theorem evaluatePath_congr (g : ScopeGuard) {rules rules' : List ScopeRule}
    (hsame : SameRules rules rules') (hcompiles : ∀ r ∈ rules, r.Compiles) (method path : Str) :
    ((g.withRules rules).evaluatePath method path).map (·.verdict) =
      ((g.withRules rules').evaluatePath method path).map (·.verdict) := by
  have hexcludes := hsame.filter fun r => r.isPath && r.effect == .excludes
  have hincludes := hsame.filter fun r => r.isPath && r.effect == .includes
  have hvalid : ∀ p : ScopeRule → Bool, ∀ r ∈ rules.filter p, r.Compiles :=
    fun p r hr => hcompiles r (List.mem_of_mem_filter hr)
  rw [evaluatePath_verdict, evaluatePath_verdict]
  have hverdict : (g.withRules rules).pathVerdict method =
      (g.withRules rules').pathVerdict method := by
    funext included
    unfold ScopeGuard.pathVerdict
    rw [evaluateMethod_congr g hsame method]
    refine if_congr (and_congr_left fun _ => not_congr ?_) rfl rfl
    exact hincludes.eq_nil_iff
  rw [hverdict]
  have hout : anyPathMatch path (g.withRules rules).pathExcludes =
      anyPathMatch path (g.withRules rules').pathExcludes :=
    anyPathMatch_congr hexcludes (hvalid _) path
  have hin : anyPathMatch path (g.withRules rules).pathIncludes =
      anyPathMatch path (g.withRules rules').pathIncludes :=
    anyPathMatch_congr hincludes (hvalid _) path
  rw [hout, hin]

theorem evaluate_congr (g : ScopeGuard) {rules rules' : List ScopeRule}
    (hsame : SameRules rules rules') (hcompiles : ∀ r ∈ rules, r.Compiles) (method url : Str) :
    ((g.withRules rules).evaluate method url).map (·.verdict) =
      ((g.withRules rules').evaluate method url).map (·.verdict) := by
  unfold ScopeGuard.evaluate
  have hverified : ∀ rules, (g.withRules rules).targetOwnershipVerified =
      g.targetOwnershipVerified := fun _ => rfl
  have hhosts : ∀ rules, (g.withRules rules).allowedHosts = g.allowedHosts := fun _ => rfl
  rw [hverified, hverified, hhosts, hhosts]
  cases g.targetOwnershipVerified with
  | false => rfl
  | true =>
    cases urlsplit url with
    | error e => rfl
    | ok parts =>
      cases hhost : g.allowedHosts.any (hostMatches (parts.hostname.getD [])) with
      | false => simp [bind, Except.bind, hhost, pure, Except.pure, Except.map]
      | true =>
        simp only [Bool.not_true, Bool.false_eq_true, if_false, bind, Except.bind, hhost, if_true]
        exact evaluatePath_congr g hsame hcompiles (upper method) parts.pathOrRoot

/-- With patterns that compile, `evaluate` comes back for every URL that
parses. -/
theorem evaluate_of_compiles {g : ScopeGuard} (hcompiles : ∀ r ∈ g.rules, r.Compiles)
    (method : Str) {url : Str} (hurl : Parses url) :
    ∃ verdict, (g.evaluate method url).map (·.verdict) = .ok verdict := by
  obtain ⟨parts, hparts⟩ := hurl
  have hvalid : ∀ p : ScopeRule → Bool, ∀ r ∈ g.rules.filter p, r.Compiles :=
    fun p r hr => hcompiles r (List.mem_of_mem_filter hr)
  have hpath : ∃ verdict,
      (g.evaluatePath (upper method) parts.pathOrRoot).map (·.verdict) = .ok verdict := by
    have hout : ∀ r ∈ g.pathExcludes, r.Compiles := hvalid _
    have hin : ∀ r ∈ g.pathIncludes, r.Compiles := hvalid _
    obtain ⟨excluded, hexcluded, -⟩ := anyPathMatch_of_compiles hout parts.pathOrRoot
    obtain ⟨included, hincluded, -⟩ := anyPathMatch_of_compiles hin parts.pathOrRoot
    rw [evaluatePath_verdict, hexcluded, hincluded]
    cases excluded with
    | true => exact ⟨_, rfl⟩
    | false => exact ⟨_, rfl⟩
  unfold ScopeGuard.evaluate
  rw [hparts]
  cases g.targetOwnershipVerified with
  | false => exact ⟨_, rfl⟩
  | true =>
    cases hhost : g.allowedHosts.any (hostMatches (parts.hostname.getD [])) with
    | false => exact ⟨.blockedHost, by simp [bind, Except.bind, hhost, pure, Except.pure, Except.map]⟩
    | true =>
      simp only [Bool.not_true, Bool.false_eq_true, if_false, bind, Except.bind, hhost, if_true]
      exact hpath

/-! ## Exclude rules narrow -/

omit [PyRuntime] in
/-- A filter that does not want the inserted rule does not see it. -/
theorem filter_insert_of_neg {p : ScopeRule → Bool} {x : ScopeRule} (hx : p x = false)
    (before after : List ScopeRule) :
    (before ++ x :: after).filter p = (before ++ after).filter p := by
  rw [List.filter_append, List.filter_append, List.filter_cons_of_neg (by simp [hx])]

/-- What a guard allows under an exclude rule it allows without it. -/
theorem allows_of_insert {g : ScopeGuard} {before after : List ScopeRule} {x : ScopeRule}
    (hx : x.effect = .excludes) {method url : Str}
    (h : (g.withRules (before ++ x :: after)).allows method url = true) :
    (g.withRules (before ++ after)).allows method url = true := by
  obtain ⟨hverified, parts, hparts, hhost, ⟨hexcluded, hincluded⟩, hmethod, hallowed⟩ :=
    (allows_iff _ _ _).mp h
  have hmem : ∀ r ∈ before ++ after, r ∈ before ++ x :: after := by
    intro r hr
    rcases List.mem_append.mp hr with hr | hr
    · exact List.mem_append_left _ hr
    · exact List.mem_append_right _ (List.mem_cons_of_mem x hr)
  have hpaths : (g.withRules (before ++ x :: after)).pathIncludes =
      (g.withRules (before ++ after)).pathIncludes :=
    filter_insert_of_neg (by simp [hx]) before after
  have hmethods : (g.withRules (before ++ x :: after)).methodIncludes =
      (g.withRules (before ++ after)).methodIncludes :=
    congrArg (List.map _) (filter_insert_of_neg (by simp [hx]) before after)
  refine (allows_iff _ _ _).mpr ⟨hverified, parts, hparts, hhost, ⟨?_, ?_⟩, ?_, ?_⟩
  · exact fun r hr => hexcluded r (hmem r hr)
  · rwa [hpaths] at hincluded
  · exact fun r hr => hmethod r (hmem r hr)
  · unfold ScopeGuard.allowedMethods at hallowed ⊢
    rwa [hmethods] at hallowed

/-- **The verdict depends on the set of rules, and exclude rules narrow.**
Two lists with the same rules, whose patterns compile, get the same verdict
for every request, or the same exception from a URL that does not parse. An
exclude rule, wherever it is put in, lets nothing through that was stopped
without it. -/
theorem evaluate_reads_rule_set (g : ScopeGuard) (method url : Str) :
    (∀ rules rules', SameRules rules rules' → (∀ r ∈ rules, r.Compiles) →
      ((g.withRules rules).evaluate method url).map (·.verdict) =
          ((g.withRules rules').evaluate method url).map (·.verdict) ∧
        (Parses url →
          ∃ verdict, ((g.withRules rules).evaluate method url).map (·.verdict) = .ok verdict)) ∧
    ∀ before after x, x.effect = .excludes →
      (g.withRules (before ++ x :: after)).allows method url = true →
        (g.withRules (before ++ after)).allows method url = true := by
  constructor
  · intro rules rules' hsame hcompiles
    exact ⟨evaluate_congr g hsame hcompiles method url,
      evaluate_of_compiles (g := g.withRules rules) hcompiles method⟩
  · intro before after x hx h
    exact allows_of_insert hx h

/-- An allow-list of one path with an exclude rule in it. -/
def apiRules : List ScopeRule :=
  [⟨.pathPrefix, "/api".toList, .includes, []⟩, ⟨.pathPrefix, "/api/billing".toList, .excludes, []⟩]

omit [PyRuntime] in
/-- The two rules in either order, and the first without the second. -/
theorem apiRules_read :
    let _ := PyRuntime.ascii
    let g := ScopeGuard.init ["app.acme.test".toList] [] true
    ((g.withRules apiRules).evaluate "GET".toList "https://app.acme.test/api/me".toList).map
          (·.verdict) =
        ((g.withRules (apiRules.reverse ++ apiRules)).evaluate "GET".toList
          "https://app.acme.test/api/me".toList).map (·.verdict) ∧
      (g.withRules (apiRules.take 1)).allows "GET".toList
        "https://app.acme.test/api/me".toList = true := by
  intro runtime g
  obtain ⟨hset, hnarrow⟩ :=
    evaluate_reads_rule_set g "GET".toList "https://app.acme.test/api/me".toList
  constructor
  · refine (hset apiRules (apiRules.reverse ++ apiRules) (fun r => by simp) ?_).1
    have hprefixes : ∀ r ∈ apiRules, r.kind ≠ .pathRegex := by decide
    exact fun r hr hkind => absurd hkind (hprefixes r hr)
  · exact hnarrow (apiRules.take 1) [] ⟨.pathPrefix, "/api/billing".toList, .excludes, []⟩ rfl
      (by decide +kernel)

end Sentinel.Core
