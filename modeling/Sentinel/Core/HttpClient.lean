/-
Sentinel.Core.HttpClient — what the engine relies on of
`httpx.AsyncClient`.

The client is third-party code. The model keeps three documented traits:
it has one cookie jar, fills it from every response and adds a Cookie
header from it to a same-host request that brings none of its own; it
sends per-call headers as given; and it follows redirects itself when,
and only when, it was built to. What the network answers is an argument.
-/
import Sentinel.Py.Dict
import Sentinel.Py.UrlSplit
import Mathlib.Data.Rat.Defs

namespace Sentinel.Core

open Sentinel.Py

/-- A Python `bytes`. -/
abbrev Bytes := List UInt8

/-- An `httpx.Response`. `setCookies` are the names and values of its
Set-Cookie headers. -/
structure HttpxResponse where
  statusCode : Int
  headers : Dict := []
  setCookies : List (Str × Str) := []
  content : Bytes := []
  deriving DecidableEq, Repr

/-- What one request on the wire ends in: a response, a
`TimeoutException`, another `TransportError`, or an exception of another
family (`DecodingError`, `TooManyRedirects`). -/
inductive WireAnswer where
  | response (r : HttpxResponse)
  | timeout (msg : Str)
  | transportError (msg : Str)
  | otherError (msg : Str)
  deriving DecidableEq, Repr

/-- One request as it goes out. -/
structure WireRequest where
  method : Str
  url : Str
  headers : Dict
  body : Option Bytes
  deriving DecidableEq, Repr

/-! ## The cookie jar -/

structure CookieEntry where
  host : Str
  name : Str
  value : Str
  deriving DecidableEq, Repr

abbrev CookieJar := List CookieEntry

/-- Store one cookie: a cookie of the same host and name is replaced. -/
def CookieJar.put (jar : CookieJar) (host : Str) (cookie : Str × Str) : CookieJar :=
  jar.filter (fun c => !(c.host == host && c.name == cookie.1)) ++ [⟨host, cookie.1, cookie.2⟩]

def CookieJar.store (jar : CookieJar) (host : Str) (cookies : List (Str × Str)) : CookieJar :=
  cookies.foldl (fun acc c => CookieJar.put acc host c) jar

/-- The Cookie header the jar has for a host, if it has a cookie for it. -/
def CookieJar.header (jar : CookieJar) (host : Str) : Option Str :=
  match jar.filter fun c => c.host == host with
  | [] => none
  | cs => some (join "; ".toList (cs.map fun c => c.name ++ '=' :: c.value))

/-- Header names are compared ignoring ASCII case. -/
def isCookieHeader (name : Str) : Bool := name.map Char.toLower == "cookie".toList

/-- The headers bring a Cookie header of their own. -/
def hasCookieHeader (headers : Dict) : Bool := headers.keys.any isCookieHeader

/-- The headers that go out: the given ones, and the jar's Cookie header
when they bring none. -/
def addJarCookies (jar : CookieJar) (host : Str) (headers : Dict) : Dict :=
  if hasCookieHeader headers then headers
  else
    match CookieJar.header jar host with
    | none => headers
    | some cookie => headers ++ [("Cookie".toList, cookie)]

/-! ## The client -/

/-- How a client was built. `redirectTarget url location` is the URL it
would fetch for a redirect. It sends nothing for a Location that is no URL
or has a scheme it does not speak; what the network answers to such a hop
is the exception it raises instead. -/
structure AsyncClient where
  followRedirects : Bool
  redirectTarget : Str → Str → Str
  sends : Str → Bool := fun _ => true

/-- `httpx.AsyncClient(follow_redirects=False, ...)`. -/
def AsyncClient.plain : AsyncClient where
  followRedirects := false
  redirectTarget _ location := location

/-- `Response.has_redirect_location`, with the location. -/
def HttpxResponse.redirectLocation (r : HttpxResponse) : Option Str :=
  if r.statusCode ∈ [301, 302, 303, 307, 308] then
    (r.headers.find? fun h => h.1.map Char.toLower == "location".toList).map Prod.snd
  else none

/-- Where the client goes next by itself, if anywhere. -/
def AsyncClient.nextHop (c : AsyncClient) (r : HttpxResponse) : Option Str :=
  if c.followRedirects then r.redirectLocation else none

/-- `max_redirects` of a client by default. -/
def maxRedirects : Nat := 20

/-- One call of the client: the requests it put on the wire, the jar
afterwards and what it hands back. -/
structure Exchange where
  wire : List WireRequest
  jar : CookieJar
  answer : WireAnswer
  deriving DecidableEq, Repr

variable [PyRuntime]

/-- The host the jar files a URL's cookies under. -/
def hostOf (url : Str) : Str :=
  match urlsplit url with
  | .ok parts => parts.hostname.getD []
  | .error _ => []

/-- The request with the Cookie header the jar adds. -/
def WireRequest.withJar (req : WireRequest) (jar : CookieJar) : WireRequest :=
  { req with headers := addJarCookies jar (hostOf req.url) req.headers }

/-- Send, store the cookies, and go on to the redirect target if the
client follows redirects; `answers` is what the network says, hop by hop. -/
def AsyncClient.exchange (c : AsyncClient) (fuel : Nat) (answers : Nat → WireAnswer)
    (jar : CookieJar) (req : WireRequest) : Exchange :=
  match answers 0 with
  | .response r =>
      let stored := jar.store (hostOf req.url) r.setCookies
      match c.nextHop r, fuel with
      | none, _ => ⟨[req.withJar jar], stored, .response r⟩
      | some _, 0 => ⟨[req.withJar jar], stored, .otherError "TooManyRedirects".toList⟩
      | some location, fuel + 1 =>
          let target := c.redirectTarget req.url location
          let rest := c.exchange fuel (fun hop => answers (hop + 1)) stored
            { req with url := target }
          { rest with wire := req.withJar jar :: if c.sends target then rest.wire else [] }
  | failure => ⟨[req.withJar jar], jar, failure⟩

/-- `client.request(method, url, headers=..., content=...)`. -/
def AsyncClient.request (c : AsyncClient) (answers : Nat → WireAnswer) (jar : CookieJar)
    (req : WireRequest) : Exchange :=
  c.exchange maxRedirects answers jar req

/-- What a call of the client hands back. Jar and request have no part in
it (`request_answer`). -/
def AsyncClient.outcome (c : AsyncClient) (answers : Nat → WireAnswer) : WireAnswer :=
  (c.request answers [] ⟨[], [], [], none⟩).answer

/-- `response.url`: the URL of the last request. -/
def Exchange.finalUrl (e : Exchange) : Str := (e.wire.getLast?.map (·.url)).getD []

/-- A response, or the text of the `HTTPError` that is caught. -/
def responseOrError : WireAnswer → Except Str HttpxResponse
  | .response r => .ok r
  | .timeout message => .error message
  | .transportError message => .error message
  | .otherError message => .error message

/-! ## The jar and the wire -/

theorem exchange_answer (c : AsyncClient) (fuel : Nat) (answers : Nat → WireAnswer)
    (jar jar' : CookieJar) (req req' : WireRequest) :
    (c.exchange fuel answers jar req).answer = (c.exchange fuel answers jar' req').answer := by
  induction fuel generalizing answers jar jar' req req' with
  | zero =>
    unfold AsyncClient.exchange
    cases answers 0 with
    | response r => dsimp only; cases c.nextHop r <;> rfl
    | _ => rfl
  | succ fuel ih =>
    unfold AsyncClient.exchange
    cases answers 0 with
    | response r =>
      dsimp only
      cases c.nextHop r with
      | none => rfl
      | some location => exact ih _ _ _ _ _
    | _ => rfl

theorem request_answer (c : AsyncClient) (answers : Nat → WireAnswer) (jar : CookieJar)
    (req : WireRequest) : (c.request answers jar req).answer = c.outcome answers :=
  exchange_answer c maxRedirects answers jar [] req _

/-- The first request on the wire is the given one with the jar's cookies. -/
theorem exchange_wire_head (c : AsyncClient) (fuel : Nat) (answers : Nat → WireAnswer)
    (jar : CookieJar) (req : WireRequest) :
    (c.exchange fuel answers jar req).wire.head? = some (req.withJar jar) := by
  unfold AsyncClient.exchange
  cases answers 0 with
  | response r => dsimp only; cases c.nextHop r <;> cases fuel <;> rfl
  | _ => rfl

/-- A client that does not follow redirects puts one request on the wire. -/
theorem exchange_wire_plain {c : AsyncClient} (hc : c.followRedirects = false) (fuel : Nat)
    (answers : Nat → WireAnswer) (jar : CookieJar) (req : WireRequest) :
    (c.exchange fuel answers jar req).wire = [req.withJar jar] := by
  have hnext : ∀ r, c.nextHop r = none := fun r => by simp [AsyncClient.nextHop, hc]
  unfold AsyncClient.exchange
  cases answers 0 with
  | response r => simp only [hnext]
  | _ => rfl

theorem withJar_own {req : WireRequest} (hown : hasCookieHeader req.headers = true)
    (jar : CookieJar) : (req.withJar jar).headers = req.headers := by
  simp [WireRequest.withJar, addJarCookies, hown]

/-- Headers with a Cookie header of their own go out as given, on every hop. -/
theorem exchange_wire_headers {req : WireRequest} (hown : hasCookieHeader req.headers = true)
    (c : AsyncClient) (fuel : Nat) (answers : Nat → WireAnswer) (jar : CookieJar) :
    ∀ w ∈ (c.exchange fuel answers jar req).wire, w.headers = req.headers := by
  induction fuel generalizing answers jar req with
  | zero =>
    unfold AsyncClient.exchange
    cases answers 0 with
    | response r => dsimp only; cases c.nextHop r <;> simp [withJar_own hown]
    | _ => simp [withJar_own hown]
  | succ fuel ih =>
    unfold AsyncClient.exchange
    cases answers 0 with
    | response r =>
      dsimp only
      cases c.nextHop r with
      | none => simp [withJar_own hown]
      | some location =>
        intro w hw
        rcases List.mem_cons.mp hw with rfl | hw
        · exact withJar_own hown jar
        · have hrest : hasCookieHeader
              { req with url := c.redirectTarget req.url location }.headers = true := hown
          split at hw
          · exact ih hrest _ _ w hw
          · exact absurd hw List.not_mem_nil
    | _ => simp [withJar_own hown]

/-! ## Redirects -/

/-- The redirects served lead a client that was asked for `start` to `url`
in so many hops. -/
inductive AsyncClient.Leads (c : AsyncClient) (answers : Nat → WireAnswer) (start : Str) :
    Nat → Str → Prop where
  | start : Leads c answers start 0 start
  | redirect {hop : Nat} {url location : Str} {r : HttpxResponse} : Leads c answers start hop url →
      answers hop = .response r → c.nextHop r = some location →
      c.sends (c.redirectTarget url location) = true →
      Leads c answers start (hop + 1) (c.redirectTarget url location)

omit [PyRuntime] in
theorem leads_zero_iff {c : AsyncClient} {answers : Nat → WireAnswer} {start url : Str} :
    c.Leads answers start 0 url ↔ url = start := by
  constructor
  · intro h
    cases h
    rfl
  · rintro rfl
    exact .start

omit [PyRuntime] in
/-- The first hop of a longer way, and the way from there. -/
theorem leads_succ_iff {c : AsyncClient} {answers : Nat → WireAnswer} {start url : Str}
    {hop : Nat} :
    c.Leads answers start (hop + 1) url ↔ ∃ r location, answers 0 = .response r ∧
      c.nextHop r = some location ∧ c.sends (c.redirectTarget start location) = true ∧
      c.Leads (fun n => answers (n + 1)) (c.redirectTarget start location) hop url := by
  induction hop generalizing url with
  | zero =>
    constructor
    · rintro (_ | ⟨hstart, hanswer, hnext, hsends⟩)
      obtain rfl := leads_zero_iff.mp hstart
      exact ⟨_, _, hanswer, hnext, hsends, .start⟩
    · rintro ⟨r, location, hanswer, hnext, hsends, hleads⟩
      obtain rfl := leads_zero_iff.mp hleads
      exact .redirect .start hanswer hnext hsends
  | succ hop ih =>
    constructor
    · rintro (_ | ⟨hfirst, hanswer, hnext, hsends⟩)
      obtain ⟨r, location, hanswer₀, hnext₀, hsends₀, hleads⟩ := ih.mp hfirst
      exact ⟨r, location, hanswer₀, hnext₀, hsends₀, .redirect hleads hanswer hnext hsends⟩
    · rintro ⟨r, location, hanswer₀, hnext₀, hsends₀, _ | ⟨hleads, hanswer, hnext, hsends⟩⟩
      exact .redirect (ih.mpr ⟨r, location, hanswer₀, hnext₀, hsends₀, hleads⟩) hanswer hnext hsends

/-- What is on the wire behind the first request: the requests of the call
for the redirect's target, if the client goes on to it. -/
theorem exchange_wire_succ {c : AsyncClient} {fuel : Nat} {answers : Nat → WireAnswer}
    {jar : CookieJar} {req : WireRequest} {hop : Nat} {later : WireRequest} :
    (c.exchange fuel answers jar req).wire[hop + 1]? = some later ↔
      ∃ left r location, fuel = left + 1 ∧ answers 0 = .response r ∧
        c.nextHop r = some location ∧ c.sends (c.redirectTarget req.url location) = true ∧
        (c.exchange left (fun n => answers (n + 1)) (jar.store (hostOf req.url) r.setCookies)
          { req with url := c.redirectTarget req.url location }).wire[hop]? = some later := by
  constructor
  · intro h
    unfold AsyncClient.exchange at h
    cases hanswer : answers 0 with
    | response r =>
      rw [hanswer] at h
      dsimp only at h
      cases hnext : c.nextHop r with
      | none =>
        rw [hnext] at h
        cases h
      | some location =>
        rw [hnext] at h
        cases fuel with
        | zero => cases h
        | succ left =>
          dsimp only at h
          rw [List.getElem?_cons_succ] at h
          split at h
          case isTrue hsends => exact ⟨left, r, location, rfl, rfl, hnext, hsends, h⟩
          case isFalse => cases h
    | timeout msg | transportError msg | otherError msg =>
      rw [hanswer] at h
      cases h
  · rintro ⟨left, r, location, rfl, hanswer, hnext, hsends, h⟩
    unfold AsyncClient.exchange
    rw [hanswer]
    dsimp only
    rw [hnext]
    dsimp only
    rw [if_pos hsends, List.getElem?_cons_succ]
    exact h

/-- **The requests on the wire are for the URLs the redirects lead to**,
hop by hop, until the client gives up. -/
theorem exchange_wire_url_iff {c : AsyncClient} {fuel : Nat} {answers : Nat → WireAnswer}
    {jar : CookieJar} {req : WireRequest} {hop : Nat} {url : Str} :
    (∃ later, (c.exchange fuel answers jar req).wire[hop]? = some later ∧ later.url = url) ↔
      hop ≤ fuel ∧ c.Leads answers req.url hop url := by
  induction hop generalizing fuel answers jar req with
  | zero =>
    rw [← List.head?_eq_getElem?, exchange_wire_head, leads_zero_iff]
    constructor
    · rintro ⟨_, hlater, rfl⟩
      obtain rfl := Option.some.inj hlater
      exact ⟨Nat.zero_le _, rfl⟩
    · rintro ⟨-, rfl⟩
      exact ⟨_, rfl, rfl⟩
  | succ hop ih =>
    simp only [exchange_wire_succ, leads_succ_iff]
    constructor
    · rintro ⟨later, ⟨left, r, location, rfl, hanswer, hnext, hsends, hlater⟩, hurl⟩
      obtain ⟨hle, hleads⟩ := ih.mp ⟨later, hlater, hurl⟩
      exact ⟨Nat.succ_le_succ hle, r, location, hanswer, hnext, hsends, hleads⟩
    · rintro ⟨hle, r, location, hanswer, hnext, hsends, hleads⟩
      obtain ⟨left, rfl⟩ := Nat.exists_eq_add_of_le' (Nat.le_trans (Nat.le_add_left 1 hop) hle)
      have hrest : ∃ later, (c.exchange left (fun n => answers (n + 1))
          (jar.store (hostOf req.url) r.setCookies)
          { req with url := c.redirectTarget req.url location }).wire[hop]? = some later ∧
            later.url = url :=
        ih.mpr ⟨Nat.le_of_succ_le_succ hle, hleads⟩
      obtain ⟨later, hlater, hurl⟩ := hrest
      exact ⟨later, ⟨left, r, location, rfl, hanswer, hnext, hsends, hlater⟩, hurl⟩

end Sentinel.Core
