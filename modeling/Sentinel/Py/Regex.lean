/-
Sentinel.Py.Regex — a backtracking matcher for the part of Python's `re`
that the fixed patterns of the code use: character classes, sequence,
alternation, greedy repetition and `\b`.

A matcher position is the text before it, reversed, and the text after
it. `ends` lists the positions a match from here can end at, in the
order the backtracking engine tries them, so its head is the match `re`
reports.
-/
import Sentinel.Py.Text

namespace Sentinel.Py

/-- A regular expression over characters. -/
inductive Regex where
  | eps
  | chr (p : Char → Bool)
  | wordBoundary
  | seq (r s : Regex)
  | alt (r s : Regex)
  | star (r : Regex)

namespace Regex

/-- A position in a text: what is before it, reversed, and what follows. -/
abbrev Pos := Str × Str

/-- `\b`: exactly one of the two neighbours is a word character. -/
def atWordBoundary [PyRuntime] (p : Pos) : Bool :=
  p.1.head?.any PyRuntime.isWord != p.2.head?.any PyRuntime.isWord

/-- Greedy repetition of `f`: longest first, each round must advance, and
`fuel` bounds the rounds (the length of the rest suffices). -/
def starEnds (f : Pos → List Pos) : Nat → Pos → List Pos
  | 0, p => [p]
  | fuel + 1, p =>
      ((f p).filter fun q => q.2.length < p.2.length).flatMap (starEnds f fuel) ++ [p]

/-- Where a match of `r` from the position can end, in matching order. -/
def ends [PyRuntime] : Regex → Pos → List Pos
  | .eps, p => [p]
  | .chr f, (before, c :: rest) => if f c then [(c :: before, rest)] else []
  | .chr _, (_, []) => []
  | .wordBoundary, p => if atWordBoundary p then [p] else []
  | .seq r s, p => (ends r p).flatMap (ends s)
  | .alt r s, p => ends r p ++ ends s p
  | .star r, p => starEnds (ends r) p.2.length p

/-- Some match starts here or further right. -/
def searchFrom [PyRuntime] (r : Regex) (before : Str) : Str → Bool
  | [] => !(ends r (before, [])).isEmpty
  | c :: rest => !(ends r (before, c :: rest)).isEmpty || searchFrom r (c :: before) rest

/-- `pattern.search(text) is not None`. -/
def search [PyRuntime] (r : Regex) (text : Str) : Bool := searchFrom r [] text

/-- The group of a match of `initial(group)closing` at the position, as
backtracking finds it first. -/
def groupHere [PyRuntime] (initial group closing : Regex) (p : Pos) : Option Str :=
  (ends initial p).findSome? fun start =>
    (ends group start).findSome? fun stop =>
      if (ends closing stop).isEmpty then none
      else some (start.2.take (start.2.length - stop.2.length))

def groupFrom [PyRuntime] (initial group closing : Regex) (before : Str) : Str → Option Str
  | [] => groupHere initial group closing (before, [])
  | c :: rest =>
      match groupHere initial group closing (before, c :: rest) with
      | some found => some found
      | none => groupFrom initial group closing (c :: before) rest

/-- `pattern.search(text).group(1)` of the pattern `initial(group)closing`. -/
def searchGroup [PyRuntime] (initial group closing : Regex) (text : Str) : Option Str :=
  groupFrom initial group closing [] text

/-! ## Building blocks under `re.IGNORECASE` -/

/-- The characters an ASCII pattern character matches under
`re.IGNORECASE`: its two cases, and the four non-ASCII letters whose
case folding is ASCII. -/
def caseVariants (c : Char) : List Char :=
  let base := [c.toLower, c.toUpper]
  match c.toLower with
  | 'i' => base ++ ['\u0130', '\u0131']
  | 's' => base ++ ['\u017F']
  | 'k' => base ++ ['\u212A']
  | _ => base

/-- One character of `cs`, ignoring case. -/
def anyOf (cs : Str) : Regex := .chr fun d => cs.any fun c => (caseVariants c).contains d

/-- The text itself, ignoring case. -/
def lit (text : Str) : Regex := text.foldr (fun c r => .seq (anyOf [c]) r) .eps

/-- `r?`, greedy. -/
def opt (r : Regex) : Regex := .alt r .eps

/-- `\w*`. -/
def wordStar [PyRuntime] : Regex := .star (.chr PyRuntime.isWord)

/-- `\b r \b`. -/
def bounded (r : Regex) : Regex := .seq .wordBoundary (.seq r .wordBoundary)

end Regex

end Sentinel.Py
