/-
Sentinel.Recon.HttpProbe — `sentinel_recon.http_probe`: what the hosts that
resolve answer, asked by the binary or by the Python client.

The Python client follows redirects, so one `client.get` may ask several
hosts; the hosts it asks are the hosts of the URLs it puts on the wire. The
probes run side by side in one client, and what one of them raises closes
it on the others.
-/
import Sentinel.Core.HttpClient
import Sentinel.Py.Utf8
import Sentinel.Recon.Tooling

namespace Sentinel.Recon

open Sentinel.Py Sentinel.Core

/-! ## The title -/

def lowerByte (b : UInt8) : UInt8 := if 65 ≤ b ∧ b ≤ 90 then b + 32 else b

/-- The bytes start with these, which are lower case. -/
def startsLike (start bytes : Bytes) : Bool := start.isPrefixOf (bytes.map lowerByte)

/-- What stands before the first `closing`. -/
def upTo (closing : Bytes) : Bytes → Option Bytes
  | [] => if closing.isEmpty then some [] else none
  | b :: rest =>
      if startsLike closing (b :: rest) then some []
      else (upTo closing rest).map (b :: ·)

def ascii (s : String) : Bytes := encodeAscii s.toList
where
  encodeAscii (s : Str) : Bytes := s.map fun c => UInt8.ofNat c.toNat

/-- The group of `_TITLE_RE` where it matches at the start. -/
def titleHere (bytes : Bytes) : Option Bytes :=
  if startsLike (ascii "<title") bytes then
    match (bytes.drop 6).dropWhile (· != 62) with
    | [] => none
    | _ :: rest => upTo (ascii "</title>") rest
  else none

/-- The group of the first match of `_TITLE_RE`. -/
def titleMatch : Bytes → Option Bytes
  | [] => none
  | b :: rest =>
      match titleHere (b :: rest) with
      | some title => some title
      | none => titleMatch rest

/-- A title with attributes, in capitals, and spaces to strip. -/
example : (titleMatch (ascii "<p><TITLE a=b> Acme </Title></title>")).map (strip ∘ decodeUtf8) =
    some "Acme".toList := by decide +kernel

/-! ## The network -/

/-- What the probing client finds out there. -/
structure Network where
  /-- The addresses of `resolver.resolve(host, "A")`; none if it raises. -/
  resolve : Str → List Str
  /-- What is answered to a request for a URL, hop by hop. -/
  answers : (url : Str) → Nat → WireAnswer
  /-- The URL the client fetches for a redirect. -/
  redirectTarget : Str → Str → Str
  /-- It sends a request for that URL. -/
  sends : Str → Bool := fun _ => true
  /-- How many requests of `client.get(url)` are out when the client is
  closed because another probe raised. -/
  sentBeforeClose : (url : Str) → Nat := fun _ => 0
  /-- The message of `InvalidURL`, if the client does not take the URL. -/
  invalidUrl : Str → Option Str
  /-- `str(httpx.URL(url))`. -/
  urlText : Str → Str

/-- What recon does to others: names it has resolved, hosts it has sent a
request to. -/
inductive ReconAction where
  | resolveWildcardProbe (host : Str)
  | resolve (host : Str)
  | http (host : Str)
  deriving DecidableEq, Repr

/-- The header as `httpx.Headers.get` gives it. -/
def headerGet (headers : Dict) (name : String) : Option Str :=
  match headers.filter fun h => h.1.map Char.toLower == name.toList with
  | [] => none
  | hs => some (join ", ".toList (hs.map Prod.snd))

section

variable [PyRuntime]

/-- `httpx.AsyncClient(follow_redirects=True, ...)`. -/
def Network.client (net : Network) : AsyncClient := ⟨true, net.redirectTarget, net.sends⟩

/-- `client.get(url)`. The jar has no part in where requests go. -/
def Network.get (net : Network) (url : Str) : Exchange :=
  net.client.request (net.answers url) [] ⟨"GET".toList, url, [], none⟩

/-- The hosts that `client.get(url)` sends a request to, in a probe that is
overtaken by another's exception or runs to its end. -/
def Network.asks (net : Network) (url : Str) (overtaken : Bool) : List ReconAction :=
  let wire := (net.get url).wire
  (if overtaken then wire.take (net.sentBeforeClose url) else wire).map
    fun request => .http (hostOf request.url)

def schemeUrl (scheme : String) (host : Str) : Str :=
  scheme.toList ++ "://".toList ++ host ++ "/".toList

/-- The probe made of a response. -/
def probeOfResponse (url : Str) (r : HttpxResponse) : HttpProbeResult where
  url := .str url
  statusCode := .num (intText r.statusCode)
  title := .ofOption ((titleMatch (r.content.take 8192)).map fun title => strip (decodeUtf8 title))
  server := .ofOption (headerGet r.headers "server")

/-- The probe of a host that answers under no scheme. -/
def probeOfError (url message : Str) : HttpProbeResult where
  url := .str url
  statusCode := .null
  title := .null
  server := .null
  error := some message

/-- `_probe_one_via_python`, the rounds left of its loop. -/
def probeSchemes (net : Network) (host : Str) (overtaken : Bool) :
    List String → List ReconAction × Except ReconError (Option HttpProbeResult)
  | [] => ([], .ok none)
  | scheme :: rest =>
      let url := schemeUrl scheme host
      match net.invalidUrl url with
      | some message => ([], .error (.invalidUrl message))
      | none =>
          let e := net.get url
          match responseOrError e.answer with
          | .ok r =>
              (net.asks url overtaken, .ok (some (probeOfResponse (net.urlText e.finalUrl) r)))
          | .error message =>
              if scheme = "http" then
                (net.asks url overtaken, .ok (some (probeOfError url message)))
              else
                let later := probeSchemes net host overtaken rest
                (net.asks url overtaken ++ later.1, later.2)

/-- `_probe_one_via_python`. What it returns or raises is that of a probe
that is not overtaken. -/
def probeOneViaPython (net : Network) (host : Str) (overtaken : Bool := false) :
    List ReconAction × Except ReconError (Option HttpProbeResult) :=
  probeSchemes net host overtaken ["https", "http"]

/-- What a probe does, case by case: it asks under `https`, and under `http`
if that raised an `HTTPError`. -/
inductive ProbeOf (net : Network) (host : Str) (overtaken : Bool) :
    List ReconAction × Except ReconError (Option HttpProbeResult) → Prop where
  | httpsInvalid {message : Str}
      (hhttps : net.invalidUrl (schemeUrl "https" host) = some message) :
      ProbeOf net host overtaken ([], .error (.invalidUrl message))
  | https {r : HttpxResponse} (hhttps : net.invalidUrl (schemeUrl "https" host) = none)
      (hanswer : responseOrError (net.get (schemeUrl "https" host)).answer = .ok r) :
      ProbeOf net host overtaken (net.asks (schemeUrl "https" host) overtaken,
        .ok (some (probeOfResponse (net.urlText (net.get (schemeUrl "https" host)).finalUrl) r)))
  | httpInvalid {failure message : Str}
      (hhttps : net.invalidUrl (schemeUrl "https" host) = none)
      (hfailed : responseOrError (net.get (schemeUrl "https" host)).answer = .error failure)
      (hhttp : net.invalidUrl (schemeUrl "http" host) = some message) :
      ProbeOf net host overtaken
        (net.asks (schemeUrl "https" host) overtaken, .error (.invalidUrl message))
  | http {failure : Str} {r : HttpxResponse}
      (hhttps : net.invalidUrl (schemeUrl "https" host) = none)
      (hfailed : responseOrError (net.get (schemeUrl "https" host)).answer = .error failure)
      (hhttp : net.invalidUrl (schemeUrl "http" host) = none)
      (hanswer : responseOrError (net.get (schemeUrl "http" host)).answer = .ok r) :
      ProbeOf net host overtaken (net.asks (schemeUrl "https" host) overtaken ++
          net.asks (schemeUrl "http" host) overtaken,
        .ok (some (probeOfResponse (net.urlText (net.get (schemeUrl "http" host)).finalUrl) r)))
  | neither {failure message : Str}
      (hhttps : net.invalidUrl (schemeUrl "https" host) = none)
      (hfailed : responseOrError (net.get (schemeUrl "https" host)).answer = .error failure)
      (hhttp : net.invalidUrl (schemeUrl "http" host) = none)
      (hanswer : responseOrError (net.get (schemeUrl "http" host)).answer = .error message) :
      ProbeOf net host overtaken (net.asks (schemeUrl "https" host) overtaken ++
          net.asks (schemeUrl "http" host) overtaken,
        .ok (some (probeOfError (schemeUrl "http" host) message)))

theorem probeOne_cases (net : Network) (host : Str) (overtaken : Bool) :
    ProbeOf net host overtaken (probeOneViaPython net host overtaken) := by
  unfold probeOneViaPython
  simp only [probeSchemes]
  cases hhttps : net.invalidUrl (schemeUrl "https" host) with
  | some message => exact .httpsInvalid hhttps
  | none =>
    cases hanswer : responseOrError (net.get (schemeUrl "https" host)).answer with
    | ok r => exact .https hhttps hanswer
    | error failure =>
      cases hhttp : net.invalidUrl (schemeUrl "http" host) with
      | some message => simpa using ProbeOf.httpInvalid hhttps hanswer hhttp
      | none =>
        cases hanswer' : responseOrError (net.get (schemeUrl "http" host)).answer with
        | ok r => exact .http hhttps hanswer hhttp hanswer'
        | error message => exact .neither hhttps hanswer hhttp hanswer'

/-- `probe_via_python`. `gather` raises the first exception at once, and
the client is closed before it gets on. -/
def probeViaPython (net : Network) (hosts : List Str) :
    List ReconAction × Except ReconError (List HttpProbeResult) :=
  match hosts.mapM fun host => (probeOneViaPython net host).2 with
  | .ok probes => (hosts.flatMap fun host => (probeOneViaPython net host).1,
      .ok (probes.filterMap id))
  | .error e => (hosts.flatMap fun host => (probeOneViaPython net host true).1, .error e)

variable [JsonReader]

/-- The probe of one document of the binary. -/
def probeOfDoc (doc : Json) : Except ReconError HttpProbeResult := do
  let items ← docItems doc
  let get (key : String) (default : Json) := (Json.lookup items key.toList).getD default
  let tech := get "tech" (.arr [])
  return {
    url := get "url" (.str [])
    statusCode := get "status_code" .null
    title := get "title" .null
    server := get "webserver" .null
    tech := if tech.truthy then tech else .arr [] }

/-- What one line of the binary adds to `probes`. -/
def probeLine (line : Str) : Except ReconError (Option HttpProbeResult) := do
  match ← readLine line with
  | none => return none
  | some doc => return some (← probeOfDoc doc)

/-- `probe_via_binary`. The binary is given the hosts and asks each. -/
def probeViaBinary (machine : Machine) (hosts : List Str) :
    List ReconAction × Except ReconError (List HttpProbeResult) :=
  let result := runTool machine "httpx".toList
    ["-silent".toList, "-json".toList, "-title".toList, "-server".toList, "-tech-detect".toList]
    (some (join "\n".toList hosts))
  (if result.ran then hosts.map .http else [],
    if result.succeeded then do
      return (← (splitlines result.stdout).mapM probeLine).filterMap id
    else .ok [])

/-- `probe_hosts`, with the availability the caller has found out. -/
def probeHosts (machine : Machine) (net : Network) (hosts : List Str) (binaryAvailable : Bool) :
    List ReconAction × Except ReconError (List HttpProbeResult) :=
  if hosts.isEmpty then ([], .ok [])
  else if binaryAvailable then probeViaBinary machine hosts
  else probeViaPython net hosts

end

end Sentinel.Recon
