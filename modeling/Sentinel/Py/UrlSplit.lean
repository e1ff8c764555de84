/-
Sentinel.Py.UrlSplit — `urllib.parse.urlsplit`, step by step.

The guards, the crawler and the recon phase all look at a URL through
this one function, so it is written out as CPython 3.12 has it: the
stripping of control characters, the scheme test, the netloc cut at the
first of `/?#`, the bracket checks for IPv6 literals, and the NFKC check
on non-ASCII netlocs. `hostname` is the lower-casing property of the
result, with an IPv6 zone left as it was.
-/
import Sentinel.Py.Text

namespace Sentinel.Py

/-- `urllib.parse.SplitResult`. -/
structure SplitResult where
  scheme : Str
  netloc : Str
  path : Str
  query : Str
  fragment : Str
  deriving DecidableEq, Repr

/-- `scheme_chars`. -/
def isSchemeChar (c : Char) : Bool := c.isAlphanum || c == '+' || c == '-' || c == '.'

/-- `_WHATWG_C0_CONTROL_OR_SPACE`. -/
def isC0ControlOrSpace (c : Char) : Bool := c.toNat ≤ 32

/-- `_UNSAFE_URL_BYTES_TO_REMOVE`. -/
def isUnsafeUrlChar (c : Char) : Bool := c == '\t' || c == '\r' || c == '\n'

/-- The scheme and the rest: `url[:i].lower(), url[i+1:]` when the text
before the first colon is a scheme, else no scheme. -/
def splitScheme (url : Str) : Str × Str :=
  let (before, found, rest) := partition ':' url
  match before with
  | c :: _ =>
      if found && c.isAlpha && before.all isSchemeChar then (before.map Char.toLower, rest)
      else ([], url)
  | [] => ([], url)

/-- `_splitnetloc`: the netloc ends at the first of `/?#`. -/
def splitNetloc (s : Str) : Str × Str :=
  s.span fun c => !(c == '/' || c == '?' || c == '#')

/-- The host name as `_hostinfo` cuts it out of the netloc. -/
def hostInfo (netloc : Str) : Str :=
  let hostinfo := afterLast '@' netloc
  let (_, haveOpenBr, bracketed) := partition '[' hostinfo
  if haveOpenBr then (partition ']' bracketed).1 else (partition ':' hostinfo).1

/-- `_check_bracketed_host`: IPvFuture by its shape, else an IPv6 address. -/
def bracketedHostOk [PyRuntime] (hostname : Str) : Bool :=
  match hostname with
  | 'v' :: rest =>
      let (digits, found, tail) := partition '.' rest
      found && digits != [] && digits.all (fun c => c.isDigit || ('a' ≤ c.toLower && c.toLower ≤ 'f'))
        && tail != [] && !tail.contains '\n'
  | _ => PyRuntime.isIpv6 hostname

/-- `_check_bracketed_netloc`. -/
def bracketedNetlocOk [PyRuntime] (netloc : Str) : Bool :=
  let hostnameAndPort := afterLast '@' netloc
  let (before, haveOpenBr, bracketed) := partition '[' hostnameAndPort
  if haveOpenBr then
    let (hostname, _, port) := partition ']' bracketed
    before == [] && (port == [] || startswith port ":".toList) && bracketedHostOk hostname
  else bracketedHostOk (partition ':' hostnameAndPort).1

/-- `_checknetloc`: no character of the netloc may expand, under NFKC,
to one of the delimiters. -/
def netlocNfkcOk [PyRuntime] (netloc : Str) : Bool :=
  isAscii netloc ||
    let n := netloc.filter fun c => !(c == '@' || c == ':' || c == '#' || c == '?')
    let n2 := PyRuntime.nfkc n
    n == n2 || n2.all fun c => !(c == '/' || c == '?' || c == '#' || c == '@' || c == ':')

/-- `urlsplit(url)`. -/
def urlsplit [PyRuntime] (url : Str) : Except PyError SplitResult :=
  let url := (url.dropWhile isC0ControlOrSpace).filter (!isUnsafeUrlChar ·)
  let (scheme, rest) := splitScheme url
  let (netloc, rest) := if startswith rest "//".toList then splitNetloc (rest.drop 2) else ([], rest)
  if netloc.contains '[' != netloc.contains ']' then
    .error (.valueError "Invalid IPv6 URL".toList)
  else if netloc.contains '[' && !bracketedNetlocOk netloc then
    .error (.valueError "Invalid IPv6 URL".toList)
  else
    let (rest, _, fragment) := partition '#' rest
    let (path, _, query) := partition '?' rest
    if netlocNfkcOk netloc then .ok ⟨scheme, netloc, path, query, fragment⟩
    else
      .error (.valueError ("netloc '".toList ++ netloc ++
        "' contains invalid characters under NFKC normalization".toList))

/-- `urlsplit` does not raise. -/
def Parses [PyRuntime] (url : Str) : Prop := ∃ parts, urlsplit url = .ok parts

/-- The `hostname` property: lower-cased up to a zone, `None` when empty. -/
def SplitResult.hostname [PyRuntime] (r : SplitResult) : Option Str :=
  let host := hostInfo r.netloc
  if host = [] then none
  else
    let (name, percent, zone) := partition '%' host
    some (lower name ++ (if percent then "%".toList else []) ++ zone)

/-- `parts.path or "/"`, as every reader of a URL path here takes it. -/
def SplitResult.pathOrRoot (r : SplitResult) : Str := if r.path = [] then "/".toList else r.path

example :
    let _ := PyRuntime.ascii
    (urlsplit "https://bob@App.Acme.test:8443/a/b?x=1#top".toList).map
        (fun r => (r.hostname, r.path, r.query))
      = .ok (some "app.acme.test".toList, "/a/b".toList, "x=1".toList) := by decide +kernel

end Sentinel.Py
