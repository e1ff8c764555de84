/-
Sentinel.Py.Replace — `str.replace` and `re.Pattern.sub`.

Both are one left-to-right pass that replaces matches
(`Redaction.replaceMatches`); they differ in what a match is.
-/
import Sentinel.Py.Regex
import Sentinel.Redaction.Splice

namespace Sentinel.Py

open Sentinel.Redaction

/-- `s.replace(old, new)`. An empty `old` is found between all characters. -/
def replace (s old new : Str) : Str :=
  if old = [] then new ++ s.flatMap fun c => c :: new else replaceAll old new s

namespace Regex

variable [PyRuntime]

/-- The length of the match `re` reports at a position; an empty match
counts as none. -/
def matchLength (r : Regex) (before rest : Str) : Nat :=
  match ends r (before, rest) with
  | [] => 0
  | stop :: _ => rest.length - stop.2.length

/-- `pattern.sub(new, s)` of a pattern that does not match the empty text,
with a `new` that has no backslash. -/
def sub (r : Regex) (new s : Str) : Str := replaceMatches r.matchLength new s

/-! ## Building blocks without `re.IGNORECASE` -/

/-- One character of a class. -/
def oneOf (cs : Str) : Regex := .chr fun c => c ∈ cs

/-- The text itself. -/
def exactly (text : Str) : Regex := text.foldr (fun c r => .seq (oneOf [c]) r) .eps

/-- `r{n,}`, greedy, of a one-character `r`. -/
def atLeast (r : Regex) : Nat → Regex
  | 0 => .star r
  | n + 1 => .seq r (atLeast r n)

end Regex

/-- Left to right, without overlap, and the empty word everywhere. -/
example : replace "aaaba".toList "aa".toList "-".toList = "-aba".toList ∧
    replace "abc".toList [] "-".toList = "-a-b-c-".toList := by decide +kernel

end Sentinel.Py
