/-
Sentinel.Db.Target — the `targets` and `scope_rules` rows as the worker
reads them.
-/
import Sentinel.Core.ScopeGuard

namespace Sentinel.Db

open Sentinel.Py Sentinel.Core

/-- A `targets` row. -/
structure Target where
  id : Str
  rootDomain : Str
  ownershipVerified : Bool := false
  authorizationAccepted : Bool := false
  deriving DecidableEq, Repr

/-- The gate the API and the worker check before anything leaves QUEUED. -/
def Target.isScannable (t : Target) : Bool := t.ownershipVerified && t.authorizationAccepted

/-- A `scope_rules` row, the persisted form of a core `ScopeRule`. -/
structure ScopeRuleRow where
  kind : RuleKind
  pattern : Str
  effect : RuleEffect
  label : Str := []
  deriving DecidableEq, Repr

end Sentinel.Db
