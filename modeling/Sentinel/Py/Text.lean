/-
Sentinel.Py.Text — the Python `str` operations the modelled code rests
on, over lists of code points.

A `str` is a `List Char` here (`Str`): every operation below walks code
points, and list recursion is what the proofs need. Case mapping, `\w`,
NFKC, IPv6 parsing and arbitrary `re` patterns come from tables or
engines of CPython that are far larger than the code under study; they
are the fields of `PyRuntime`, with their ASCII behaviour as laws.
`PyRuntime.ascii` is the instance that knows ASCII only. It is what the
examples and concrete runs evaluate under.
-/
import Mathlib.Algebra.Group.Nat.Defs
import Mathlib.Data.List.DropRight
import Mathlib.Data.List.Dedup
import Mathlib.Data.List.Infix

namespace Sentinel.Py

/-- A Python `str`: its code points in order. -/
abbrev Str := List Char

/-- `s in texts` for a list of texts. -/
instance decidableMem (s : Str) (texts : List Str) : Decidable (s ∈ texts) :=
  inferInstanceAs (Decidable (s ∈ texts))

/-- The exceptions of the standard library the modelled code lets
through: `ValueError` (`urlsplit`) and `re.error` (`re.compile`). -/
inductive PyError where
  | valueError (msg : Str)
  | reError (msg : Str)
  deriving DecidableEq, Repr

/-! ## Characters -/

def isAsciiChar (c : Char) : Bool := c.toNat < 128

/-- `str.isascii`. -/
def isAscii (s : Str) : Bool := s.all isAsciiChar

/-- The characters `str.strip()` removes. -/
def isSpace (c : Char) : Bool :=
  let n := c.toNat
  (9 ≤ n && n ≤ 13) || (28 ≤ n && n ≤ 32) || n == 0x85 || n == 0xA0 || n == 0x1680
    || (0x2000 ≤ n && n ≤ 0x200A) || n == 0x2028 || n == 0x2029 || n == 0x202F
    || n == 0x205F || n == 0x3000

/-- The line boundaries of `str.splitlines`; `\r\n` counts as one. -/
def isLineBreak (c : Char) : Bool :=
  let n := c.toNat
  (10 ≤ n && n ≤ 13) || (28 ≤ n && n ≤ 30) || n == 0x85 || n == 0x2028 || n == 0x2029

/-! ## The runtime tables -/

/-- What the code takes from CPython tables and engines. -/
class PyRuntime where
  /-- `str.upper`. -/
  upper : Str → Str
  /-- `str.lower`. -/
  lower : Str → Str
  /-- `\w` of `re` on `str` patterns. -/
  isWord : Char → Bool
  /-- `\d` of `re` on `str` patterns. -/
  isDecimal : Char → Bool
  /-- `str.isprintable` on one character, which `repr` consults. -/
  isPrintable : Char → Bool
  /-- `unicodedata.normalize('NFKC', _)`. -/
  nfkc : Str → Str
  /-- `ipaddress.ip_address` accepts the text and calls it IPv6. -/
  isIpv6 : Str → Bool
  /-- `re.compile(pattern)` with or without `re.IGNORECASE`, as the
  question `pattern.search(text) is not None`. -/
  reCompile : Str → Bool → Except PyError (Str → Bool)
  upper_ascii : ∀ s, isAscii s = true → upper s = s.map Char.toUpper
  lower_ascii : ∀ s, isAscii s = true → lower s = s.map Char.toLower
  isWord_ascii : ∀ c, isAsciiChar c = true → isWord c = (c.isAlphanum || c == '_')
  isDecimal_ascii : ∀ c, isAsciiChar c = true → isDecimal c = c.isDigit

export PyRuntime (upper lower)

/-- The ASCII-only runtime. Its `re` knows literal patterns only: it
searches for the pattern text itself. -/
@[reducible] def PyRuntime.ascii : PyRuntime where
  upper s := s.map Char.toUpper
  lower s := s.map Char.toLower
  isWord c := c.isAlphanum || c == '_'
  isDecimal c := c.isDigit
  isPrintable c := 32 ≤ c.toNat && c.toNat < 127
  nfkc s := s
  isIpv6 _ := false
  reCompile p ignoreCase := .ok fun s =>
    if ignoreCase then (s.map Char.toLower).tails.any (p.map Char.toLower).isPrefixOf
    else s.tails.any p.isPrefixOf
  upper_ascii _ _ := rfl
  lower_ascii _ _ := rfl
  isWord_ascii _ _ := rfl
  isDecimal_ascii _ _ := rfl

/-! ## Searching and cutting -/

/-- `sub in s`. -/
def contains (sub s : Str) : Bool := decide (sub <:+: s)

/-- `s.startswith(prefix)`. -/
def startswith (s p : Str) : Bool := p.isPrefixOf s

/-- `s.endswith(suffix)`. -/
def endswith (s p : Str) : Bool := p.isSuffixOf s

/-- `s.rstrip(c)` for a one-character argument. -/
def rstripChar (c : Char) (s : Str) : Str := s.rdropWhile (· == c)

/-- `s.lstrip(c)` for a one-character argument. -/
def lstripChar (c : Char) (s : Str) : Str := s.dropWhile (· == c)

/-- `s.strip()`. -/
def strip (s : Str) : Str := (s.dropWhile isSpace).rdropWhile isSpace

/-- `s.partition(c)`: before, whether found, after. -/
def partition (c : Char) : Str → Str × Bool × Str
  | [] => ([], false, [])
  | d :: rest =>
      if d = c then ([], true, rest)
      else
        let (before, found, after) := partition c rest
        (d :: before, found, after)

/-- `s.rpartition(c)[2]`: the text after the last `c`, all of `s` when
there is none. -/
def afterLast (c : Char) (s : Str) : Str := s.rtakeWhile (· != c)

/-- `splitlines` with the current line held in reverse. -/
def splitlinesAux : Str → Str → List Str
  | [], [] => []
  | cur, [] => [cur.reverse]
  | cur, '\r' :: '\n' :: rest => cur.reverse :: splitlinesAux [] rest
  | cur, c :: rest =>
      if isLineBreak c then cur.reverse :: splitlinesAux [] rest
      else splitlinesAux (c :: cur) rest

/-- `s.splitlines()`. -/
def splitlines (s : Str) : List Str := splitlinesAux [] s

/-- `str(n)` for an `int`. -/
def ofInt (n : Int) : Str := n.repr.toList

/-- `sep.join(parts)`. -/
def join (sep : Str) (parts : List Str) : Str := sep.intercalate parts

/-! ## `repr` of strings and lists

`f"{sorted(...)}"` prints a list through `repr`, so a verdict's reason
depends on it. -/

def hexDigit (n : Nat) : Char := "0123456789abcdef".toList.getD n '0'

/-- The lower-case hexadecimal digits of `n`, padded to `width`. -/
def hexPad (width n : Nat) : Str :=
  (List.range width).reverse.map fun i => hexDigit (n / 16 ^ i % 16)

/-- One character inside `repr(s)` with the chosen quote. -/
def reprChar [PyRuntime] (quote c : Char) : Str :=
  if c = quote || c = '\\' then ['\\', c]
  else if c = '\t' then "\\t".toList
  else if c = '\n' then "\\n".toList
  else if c = '\r' then "\\r".toList
  else if PyRuntime.isPrintable c then [c]
  else if c.toNat < 0x100 then "\\x".toList ++ hexPad 2 c.toNat
  else if c.toNat < 0x10000 then "\\u".toList ++ hexPad 4 c.toNat
  else "\\U".toList ++ hexPad 8 c.toNat

/-- `repr(s)`: single quotes unless the text has one and no double one. -/
def reprStr [PyRuntime] (s : Str) : Str :=
  let quote := if '\'' ∈ s ∧ '"' ∉ s then '"' else '\''
  quote :: s.flatMap (reprChar quote) ++ [quote]

/-- `repr(list)`. -/
def reprList [PyRuntime] (xs : List Str) : Str :=
  '[' :: join ", ".toList (xs.map reprStr) ++ [']']

/-- `str` comparison: lexicographic by code point. -/
def leStr : Str → Str → Bool
  | [], _ => true
  | _ :: _, [] => false
  | a :: as, b :: bs => a < b || (a == b && leStr as bs)

/-- `sorted(set(xs))`. -/
def sortedSet (xs : List Str) : List Str := xs.dedup.mergeSort leStr

/-! ## Lemmas -/

/-- Text without the separator is all of the first part. -/
theorem partition_of_not_mem {c : Char} {s : Str} (h : c ∉ s) : partition c s = (s, false, []) := by
  induction s with
  | nil => rfl
  | cons x rest ih =>
    obtain ⟨hx, hrest⟩ := not_or.mp (List.mem_cons.not.mp h)
    have hne : ¬ x = c := fun heq => hx heq.symm
    simp [partition, hne, ih hrest]

theorem contains_iff {sub s : Str} : contains sub s = true ↔ sub <:+: s := by
  simp [contains]

/-- Every line of `splitlinesAux` lies inside the text it was cut from. -/
theorem splitlinesAux_isInfix (cur s : Str) :
    ∀ line ∈ splitlinesAux cur s, line <:+: cur.reverse ++ s := by
  induction cur, s using splitlinesAux.induct with
  | case1 => simp [splitlinesAux]
  | case2 cur h =>
    intro line hline
    rw [splitlinesAux.eq_2 _ h] at hline
    rw [List.mem_singleton.mp hline, List.append_nil]
  | case3 cur rest ih =>
    intro line hline
    rw [splitlinesAux.eq_3, List.mem_cons] at hline
    rcases hline with rfl | hline
    · exact (List.prefix_append _ _).isInfix
    · exact (ih line hline).trans ⟨cur.reverse ++ ['\r', '\n'], [], by simp⟩
  | case4 cur c rest hcr hc ih =>
    intro line hline
    rw [splitlinesAux.eq_4 _ _ _ hcr, if_pos hc, List.mem_cons] at hline
    rcases hline with rfl | hline
    · exact (List.prefix_append _ _).isInfix
    · exact (ih line hline).trans ⟨cur.reverse ++ [c], [], by simp⟩
  | case5 cur c rest hcr hc ih =>
    intro line hline
    rw [splitlinesAux.eq_4 _ _ _ hcr, if_neg hc] at hline
    simpa using ih line hline

/-- Every line of a text lies inside it. -/
theorem splitlines_isInfix {s line : Str} (h : line ∈ splitlines s) : line <:+: s := by
  simpa using splitlinesAux_isInfix [] s line h

/-- Stripping cuts a piece out of the text. -/
theorem strip_isInfix (s : Str) : strip s <:+: s :=
  (List.rdropWhile_prefix _ _).isInfix.trans (List.dropWhile_suffix _).isInfix

end Sentinel.Py
