/-
Sentinel.Core.ScopeGuard — `sentinel_core.scope_guard.models` and
`.guard`: the rule and decision types and `ScopeGuard.evaluate`.

The guard is a pure function of its configuration and the request, so it
is an ordinary Lean function; what `urlsplit` or an invalid `path_regex`
pattern raises comes out as an `Except` error. The order of the blocks is
the source's: ownership, host, path excludes, path includes, method
excludes, allowed methods.
-/
import Sentinel.Py.UrlSplit

namespace Sentinel.Core

open Sentinel.Py

/-- `RuleKind`. -/
inductive RuleKind where
  | host
  | pathPrefix
  | pathRegex
  | method
  deriving DecidableEq, Repr

/-- `RuleEffect`: `"include"` or `"exclude"`. -/
inductive RuleEffect where
  | includes
  | excludes
  deriving DecidableEq, Repr

/-- One include/exclude rule. -/
structure ScopeRule where
  kind : RuleKind
  pattern : Str
  effect : RuleEffect
  label : Str := []
  deriving DecidableEq, Repr

inductive ScopeVerdict where
  | allowed
  | blockedHost
  | blockedPathExcluded
  | blockedPathNotIncluded
  | blockedMethod
  | blockedUnverifiedTarget
  deriving DecidableEq, Repr

structure ScopeDecision where
  verdict : ScopeVerdict
  reason : Str
  matchedRule : Option ScopeRule := none
  deriving DecidableEq, Repr

/-- The `allowed` property. -/
def ScopeDecision.allowed (d : ScopeDecision) : Bool := d.verdict == .allowed

variable [PyRuntime]

/-- `_host_matches`. -/
def hostMatches (host pattern : Str) : Bool :=
  let host := rstripChar '.' (lower host)
  let pattern := rstripChar '.' (lower pattern)
  if startswith pattern "*.".toList then
    let suffix := pattern.drop 1
    endswith host suffix && host != lstripChar '.' suffix
  else host == pattern

/-- The default of `default_allowed_methods`. -/
def defaultAllowedMethods : List Str :=
  ["GET", "HEAD", "OPTIONS", "POST", "PUT", "PATCH", "DELETE"].map String.toList

/-- A configured guard. Sets are lists, read through membership only. -/
structure ScopeGuard where
  allowedHosts : List Str
  rules : List ScopeRule
  targetOwnershipVerified : Bool
  defaultAllowedMethods : List Str
  deriving DecidableEq, Repr

/-- `ScopeGuard.__init__`: an absent or empty method set becomes the default. -/
def ScopeGuard.init (allowedHosts : List Str) (rules : List ScopeRule)
    (targetOwnershipVerified : Bool) (methods : List Str := []) : ScopeGuard where
  allowedHosts := allowedHosts
  rules := rules
  targetOwnershipVerified := targetOwnershipVerified
  defaultAllowedMethods := if methods = [] then Core.defaultAllowedMethods else methods

/-- `re.search(pattern, text) is not None`. -/
def reSearch (pattern text : Str) : Except PyError Bool :=
  (PyRuntime.reCompile pattern false).map (· text)

/-- `_path_rule_matches`. -/
def pathRuleMatches (rule : ScopeRule) (path : Str) : Except PyError Bool :=
  match rule.kind with
  | .pathPrefix => .ok (startswith path rule.pattern)
  | .pathRegex => reSearch rule.pattern path
  | .host | .method => .ok false

/-- `rule.kind in ("path_prefix", "path_regex")`. -/
def ScopeRule.isPath (r : ScopeRule) : Bool := r.kind == .pathPrefix || r.kind == .pathRegex

/-- The first rule of the list whose path pattern matches. -/
def firstPathMatch (path : Str) : List ScopeRule → Except PyError (Option ScopeRule)
  | [] => .ok none
  | r :: rest => do
      if ← pathRuleMatches r path then .ok (some r) else firstPathMatch path rest

def ScopeGuard.pathExcludes (g : ScopeGuard) : List ScopeRule :=
  g.rules.filter fun r => r.isPath && r.effect == .excludes

def ScopeGuard.pathIncludes (g : ScopeGuard) : List ScopeRule :=
  g.rules.filter fun r => r.isPath && r.effect == .includes

def ScopeGuard.methodExcludes (g : ScopeGuard) : List ScopeRule :=
  g.rules.filter fun r => r.kind == .method && r.effect == .excludes

def ScopeGuard.methodIncludes (g : ScopeGuard) : List Str :=
  (g.rules.filter fun r => r.kind == .method && r.effect == .includes).map (upper ·.pattern)

/-- `method_includes or self.default_allowed_methods`. -/
def ScopeGuard.allowedMethods (g : ScopeGuard) : List Str :=
  if g.methodIncludes = [] then g.defaultAllowedMethods else g.methodIncludes

/-- `rule.label or rule.pattern`. -/
def ScopeRule.shown (r : ScopeRule) : Str := if r.label = [] then r.pattern else r.label

/-- The last two blocks of `evaluate`: the method rules. -/
def ScopeGuard.evaluateMethod (g : ScopeGuard) (method : Str) : ScopeDecision :=
  match g.methodExcludes.find? fun r => method == upper r.pattern with
  | some rule =>
      ⟨.blockedMethod, "Method '".toList ++ method ++ "' is explicitly excluded ('".toList ++
        rule.shown ++ "').".toList, some rule⟩
  | none =>
      if method ∈ g.allowedMethods then ⟨.allowed, "In scope.".toList, none⟩
      else
        ⟨.blockedMethod, "Method '".toList ++ method ++ "' is not in the allowed method set ".toList ++
          reprList (sortedSet g.allowedMethods) ++ ".".toList, none⟩

/-- The path blocks of `evaluate`, and after them the method blocks. -/
def ScopeGuard.evaluatePath (g : ScopeGuard) (method path : Str) : Except PyError ScopeDecision := do
  match ← firstPathMatch path g.pathExcludes with
  | some rule =>
      return ⟨.blockedPathExcluded, "Path '".toList ++ path ++ "' matches exclude rule '".toList ++
        rule.shown ++ "'.".toList, some rule⟩
  | none =>
      let included ← firstPathMatch path g.pathIncludes
      if g.pathIncludes ≠ [] ∧ included = none then
        return ⟨.blockedPathNotIncluded, "Path '".toList ++ path ++
          "' does not match any configured include rule, and ".toList ++
          "include rules are present (allow-listing mode).".toList, none⟩
      else return g.evaluateMethod method

/-- `ScopeGuard.evaluate`. -/
def ScopeGuard.evaluate (g : ScopeGuard) (method url : Str) : Except PyError ScopeDecision := do
  if !g.targetOwnershipVerified then
    return ⟨.blockedUnverifiedTarget,
      "Target ownership has not been verified; no request may be sent. ".toList ++
      "See docs/06-safety-legal-abuse.md §1.".toList, none⟩
  else
    let parts ← urlsplit url
    let host := parts.hostname.getD []
    if g.allowedHosts.any (hostMatches host) then
      g.evaluatePath (upper method) parts.pathOrRoot
    else
      return ⟨.blockedHost, "Host '".toList ++ host ++
        "' is not in the verified scope for this target.".toList, none⟩

/-- `evaluate` returns a decision and the decision is `ALLOWED`. -/
def ScopeGuard.allows (g : ScopeGuard) (method url : Str) : Bool :=
  match g.evaluate method url with
  | .ok d => d.allowed
  | .error _ => false

end Sentinel.Core
