/-
Sentinel.Core.Destructive — `sentinel_core.scope_guard.destructive`: the
guard consulted before any interaction.

The default patterns are regular expressions of `Sentinel.Py.Regex`, each
beside the text it was written as, which is what a check reports. Patterns
a caller adds go through `re.compile`.
-/
import Sentinel.Py.Regex
import Sentinel.Py.UrlSplit

namespace Sentinel.Core

open Sentinel.Py

/-- A compiled `re.Pattern`: its text and what `search` answers. -/
structure Pattern where
  pattern : Str
  search : Str → Bool

variable [PyRuntime]

/-- `re.compile` of a fixed pattern. -/
def Pattern.ofRegex (text : String) (r : Regex) : Pattern := ⟨text.toList, r.search⟩

/-- The pattern of one word, `\bword\b`. -/
def wordPattern (word : String) : Pattern :=
  .ofRegex ("\\b" ++ word ++ "\\b") (.bounded (.lit word.toList))

/-- The pattern of a word stem, `\bstem\w*\b`. -/
def stemPattern (stem : String) : Pattern :=
  .ofRegex ("\\b" ++ stem ++ "\\w*\\b") (.bounded (.seq (.lit stem.toList) .wordStar))

/-- The pattern of two words that may be joined, `\bfirst[-_ ]?second\b`. -/
def joinedPattern (first second : String) : Pattern :=
  .ofRegex ("\\b" ++ first ++ "[-_ ]?" ++ second ++ "\\b")
    (.bounded (.seq (.lit first.toList)
      (.seq (.opt (.anyOf "-_ ".toList)) (.lit second.toList))))

/-- `DEFAULT_DESTRUCTIVE_PATTERNS`. -/
def defaultDestructivePatterns : List Pattern :=
  [wordPattern "delete",
    .ofRegex "\\bdeletes?\\b"
      (.bounded (.seq (.lit "delete".toList) (.opt (.lit "s".toList)))),
    wordPattern "remove", stemPattern "deactivat", wordPattern "cancel",
    stemPattern "unsubscrib", wordPattern "purge", wordPattern "reset", wordPattern "destroy",
    stemPattern "terminat", joinedPattern "close" "account", wordPattern "logout",
    joinedPattern "sign" "out", wordPattern "revoke", wordPattern "wipe", wordPattern "drop",
    stemPattern "truncat", joinedPattern "forget" "me"]

/-- `NON_IDEMPOTENT_METHODS`. -/
def nonIdempotentMethods : List Str := ["POST", "PUT", "PATCH", "DELETE"].map String.toList

structure DestructiveCheck where
  isSuspect : Bool
  reason : Str
  matchedPattern : Option Str := none
  deriving DecidableEq, Repr

/-- A configured `DestructiveActionGuard`; `compiled` is what
`__post_init__` makes of the default and the extra patterns. -/
structure DestructiveActionGuard where
  readWriteEnabled : Bool
  compiled : List Pattern

/-- `re.compile(p, re.IGNORECASE)` of a caller's pattern. -/
def compileExtra (text : Str) : Except PyError Pattern :=
  (PyRuntime.reCompile text true).map fun search => ⟨text, search⟩

/-- `DestructiveActionGuard(read_write_enabled=..., extra_patterns=...)`. -/
def DestructiveActionGuard.init (readWriteEnabled : Bool) (extraPatterns : List Str) :
    Except PyError DestructiveActionGuard := do
  let extra ← extraPatterns.mapM compileExtra
  return ⟨readWriteEnabled, defaultDestructivePatterns ++ extra⟩

/-- `DestructiveActionGuard()`: read-only, default patterns. -/
def DestructiveActionGuard.default : DestructiveActionGuard :=
  ⟨false, defaultDestructivePatterns⟩

/-- `DestructiveActionGuard.check`. -/
def DestructiveActionGuard.check (g : DestructiveActionGuard) (method url : Str)
    (linkText : Str := []) : Except PyError DestructiveCheck := do
  let method := upper method
  let parts ← urlsplit url
  let haystack := join " ".toList [parts.path, parts.query, linkText]
  match g.compiled.find? fun p => p.search haystack with
  | some p =>
      return ⟨true, "URL/label matches destructive-action pattern '".toList ++ p.pattern ++
        "'.".toList, some p.pattern⟩
  | none =>
      if method ∈ nonIdempotentMethods ∧ g.readWriteEnabled = false then
        return ⟨true, "Method ".toList ++ method ++
          " is non-idempotent and this target's scan ".toList ++
          "policy has not opted into read-write testing (default: read-only).".toList, none⟩
      else return ⟨false, "No destructive signal detected.".toList, none⟩

/-- The check comes back and does not suspect the request. -/
def DestructiveActionGuard.clears (g : DestructiveActionGuard) (method url : Str)
    (linkText : Str := []) : Bool :=
  match g.check method url linkText with
  | .ok c => !c.isSuspect
  | .error _ => false

theorem clears_iff (g : DestructiveActionGuard) (method url linkText : Str) :
    g.clears method url linkText = true ↔
      ∃ check, g.check method url linkText = .ok check ∧ check.isSuspect = false := by
  unfold DestructiveActionGuard.clears
  cases g.check method url linkText <;> simp

/-- The check comes back for every URL that parses. -/
theorem check_of_urlsplit (g : DestructiveActionGuard) (method : Str) {url : Str}
    {parts : SplitResult} (hparts : urlsplit url = .ok parts) (linkText : Str) :
    ∃ check, g.check method url linkText = .ok check := by
  unfold DestructiveActionGuard.check
  rw [hparts]
  dsimp only [bind, Except.bind]
  split
  · exact ⟨_, rfl⟩
  · split <;> exact ⟨_, rfl⟩

/-- Tests of the repository: a destructive path and a harmless one. -/
example :
    let _ := PyRuntime.ascii
    DestructiveActionGuard.default.clears "GET".toList
        "https://app.acme.test/account/delete".toList = false ∧
      DestructiveActionGuard.default.clears "GET".toList
        "https://app.acme.test/dashboard".toList = true := by decide +kernel

end Sentinel.Core
