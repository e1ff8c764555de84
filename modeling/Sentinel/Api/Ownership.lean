/-
Sentinel.Api.Ownership — `services.ownership`: the three ways to show that
a domain is the customer's.

Name servers and web servers are the environment. The web clients are
built to follow redirects, so the response that is read may come from
another host than the one that was asked: `verified_by_domain_iff`.
-/
import Sentinel.Api.Routes
import Sentinel.Core.HttpClient
import Sentinel.Py.Codec
import Sentinel.Py.Utf8

namespace Sentinel.Api

open Sentinel.Py Sentinel.Core

/-! ## The outside -/

/-- What a lookup meets. -/
structure Lookups where
  /-- The byte strings of each TXT record of a name, or the text of the
  `DNSException`. -/
  txt : Str → Except Str (List (List Bytes))
  /-- What is answered to a request for a URL, hop by hop. -/
  answers : (url : Str) → Nat → WireAnswer
  /-- The URL the client fetches for a redirect. -/
  redirectTarget : Str → Str → Str
  /-- It sends a request for that URL. -/
  sends : Str → Bool := fun _ => true
  /-- The message of `InvalidURL`, which is no `HTTPError`. -/
  invalidUrl : Str → Option Str
  /-- `resp.text`. -/
  text : HttpxResponse → Str

section

variable [PyRuntime]

/-- `client.get(url)` of an `AsyncClient(follow_redirects=True)`. -/
def Lookups.get (net : Lookups) (url : Str) : Core.Exchange :=
  AsyncClient.request ⟨true, net.redirectTarget, net.sends⟩ (net.answers url) []
    ⟨"GET".toList, url, [], none⟩

/-! ## `services.ownership` -/

def txtRecordName (domain : Str) : Str := "_sentinel-verify.".toList ++ domain

/-- `b"".join(rdata.strings).decode("utf-8", errors="replace").strip()`. -/
def txtValue (strings : List Bytes) : Str := strip (decodeUtf8 strings.flatten)

/-- `verify_dns_txt`. -/
def verifyDnsTxt (net : Lookups) (domain expectedToken : Str) : VerificationResult :=
  let recordName := txtRecordName domain
  match net.txt recordName with
  | .error message =>
      ⟨false, "DNS TXT lookup for ".toList ++ recordName ++ " failed: ".toList ++ message⟩
  | .ok records =>
      if records.any fun strings => txtValue strings == expectedToken then
        ⟨true, "Matched TXT record at ".toList ++ recordName ++ ".".toList⟩
      else
        ⟨false, "No TXT record at ".toList ++ recordName ++
          " matched the expected token.".toList⟩

/-- What the two methods that fetch a page share. `found` is what is
compared with the token, and the last two are the details of a match and of
none. -/
def verifyPage (net : Lookups) (url : Str) (found : Str → Option Str)
    (expectedToken matched unmatched : Str) : Except PyError VerificationResult :=
  match net.invalidUrl url with
  | some message => .error (.valueError message)
  | none =>
      match responseOrError (net.get url).answer with
      | .error message =>
          .ok ⟨false, "Fetching ".toList ++ url ++ " failed: ".toList ++ message⟩
      | .ok resp =>
          if resp.statusCode ≠ 200 then
            .ok ⟨false, url ++ " returned HTTP ".toList ++ ofInt resp.statusCode ++ ".".toList⟩
          else if found (net.text resp) = some expectedToken then .ok ⟨true, matched⟩
          else .ok ⟨false, unmatched⟩

def wellKnownUrl (domain : Str) : Str :=
  "https://".toList ++ domain ++ "/.well-known/sentinel-verify.txt".toList

/-- `verify_well_known_file`. -/
def verifyWellKnownFile (net : Lookups) (domain expectedToken : Str) :
    Except PyError VerificationResult :=
  let url := wellKnownUrl domain
  verifyPage net url (fun text => some (strip text)) expectedToken
    ("Matched file content at ".toList ++ url ++ ".".toList)
    ("Content at ".toList ++ url ++ " did not match the expected token.".toList)

/-- `["']`. -/
def quoteMark : Regex := .oneOf ['"', '\'']

/-- `_META_TAG_RE` up to its group. -/
def metaTagStart : Regex :=
  let inTag := Regex.star (.chr (· ≠ '>'))
  .seq (.lit "<meta".toList)
    (.seq (.atLeast (.chr isSpace) 1)
      (.seq inTag
        (.seq (.lit "name=".toList)
          (.seq quoteMark
            (.seq (.lit "sentinel-verify".toList)
              (.seq quoteMark (.seq inTag (.seq (.lit "content=".toList) quoteMark))))))))

/-- `_META_TAG_RE.search(text).group(1)`. -/
def metaTagContent (text : Str) : Option Str :=
  Regex.searchGroup metaTagStart (.atLeast (.chr fun c => c ≠ '"' ∧ c ≠ '\'') 1) quoteMark text

def rootUrl (domain : Str) : Str := "https://".toList ++ domain ++ "/".toList

/-- `verify_meta_tag`. -/
def verifyMetaTag (net : Lookups) (domain expectedToken : Str) :
    Except PyError VerificationResult :=
  let url := rootUrl domain
  verifyPage net url (fun text => (metaTagContent text).map strip) expectedToken
    ("Matched <meta name=\"sentinel-verify\"> tag at ".toList ++ url ++ ".".toList)
    ("No matching sentinel-verify meta tag found at ".toList ++ url ++ ".".toList)

/-- `verify_ownership`. -/
def verifyOwnership (net : Lookups) (method : OwnershipVerificationMethod)
    (domain expectedToken : Str) : Except PyError VerificationResult :=
  match method with
  | .dnsTxt => .ok (verifyDnsTxt net domain expectedToken)
  | .wellKnownFile => verifyWellKnownFile net domain expectedToken
  | .metaTag => verifyMetaTag net domain expectedToken

/-- A meta tag among others, with the attributes in the order the pattern asks for. -/
example :
    let _ := PyRuntime.ascii
    metaTagContent "<meta charset=x><META  id=a name='sentinel-verify' content=\"t 1\">".toList =
      some "t 1".toList := by
  decide +kernel

/-! ## Who has shown the token -/

/-- The fetch of the URL ends in a 200 response with the token, from a URL
of this host. -/
def ServedFrom (net : Lookups) (url : Str) (found : Str → Option Str) (token host : Str) : Prop :=
  net.invalidUrl url = none ∧ ∃ resp, (net.get url).answer = .response resp ∧
    resp.statusCode = 200 ∧ found (net.text resp) = some token ∧
    hostOf (net.get url).finalUrl = host

/-- The token stands in a TXT record of the domain. -/
def ServedAsTxt (net : Lookups) (domain token : Str) : Prop :=
  ∃ records, net.txt (txtRecordName domain) = .ok records ∧
    ∃ strings ∈ records, txtValue strings = token

/-- The token is served by this host, in the way the method looks for it. -/
def ServedBy (net : Lookups) (method : OwnershipVerificationMethod) (domain token host : Str) :
    Prop :=
  match method with
  | .dnsTxt => False
  | .wellKnownFile =>
      ServedFrom net (wellKnownUrl domain) (fun text => some (strip text)) token host
  | .metaTag =>
      ServedFrom net (rootUrl domain) (fun text => (metaTagContent text).map strip) token host

/-- The token is served by the claimed domain itself. -/
def ServedByDomain (net : Lookups) (method : OwnershipVerificationMethod) (domain token : Str) :
    Prop :=
  method = .dnsTxt ∧ ServedAsTxt net domain token ∨
    ServedBy net method domain token (lower domain)

omit [PyRuntime] in
theorem responseOrError_ok {answer : WireAnswer} {resp : HttpxResponse} :
    responseOrError answer = .ok resp ↔ answer = .response resp := by
  cases answer <;> simp [responseOrError]

omit [PyRuntime] in
theorem verifyDnsTxt_verified {net : Lookups} {domain token : Str} :
    (verifyDnsTxt net domain token).verified = true ↔ ServedAsTxt net domain token := by
  simp only [verifyDnsTxt, ServedAsTxt]
  cases net.txt (txtRecordName domain) with
  | error message =>
    constructor
    · intro h
      exact absurd h Bool.false_ne_true
    · rintro ⟨records, hrecords, -⟩
      cases hrecords
  | ok records =>
    dsimp only
    split
    case isTrue h =>
      obtain ⟨strings, hstrings, hvalue⟩ := List.any_eq_true.mp h
      exact ⟨fun _ => ⟨records, rfl, strings, hstrings, eq_of_beq hvalue⟩, fun _ => rfl⟩
    case isFalse h =>
      constructor
      · intro hverified
        exact absurd hverified Bool.false_ne_true
      · rintro ⟨records', hrecords, strings, hstrings, hvalue⟩
        cases hrecords
        exact (h (List.any_eq_true.mpr ⟨strings, hstrings, beq_iff_eq.mpr hvalue⟩)).elim

/-- **What a verified page shows**: some host has served the token. -/
theorem verifyPage_verified {net : Lookups} {url : Str} {found : Str → Option Str}
    {token matched unmatched : Str} :
    (∃ result, verifyPage net url found token matched unmatched = .ok result ∧
      result.verified = true) ↔ ∃ host, ServedFrom net url found token host := by
  unfold verifyPage ServedFrom
  cases net.invalidUrl url with
  | some message => simp
  | none =>
    cases hanswer : responseOrError (net.get url).answer with
    | error message =>
      have hnone : ∀ resp, (net.get url).answer ≠ .response resp := by
        intro resp h
        rw [responseOrError_ok.mpr h] at hanswer
        cases hanswer
      simp [hnone]
    | ok resp =>
      rw [responseOrError_ok.mp hanswer]
      by_cases hstatus : resp.statusCode = 200
      · by_cases hfound : found (net.text resp) = some token
        · simp [hstatus, hfound]
        · simp [hstatus, hfound]
      · simp [hstatus]

/-- A verification has found the token, by the domain or by another host. -/
theorem verifyOwnership_verified {net : Lookups} {method : OwnershipVerificationMethod}
    {domain token : Str} :
    (∃ result, verifyOwnership net method domain token = .ok result ∧ result.verified = true) ↔
      method = .dnsTxt ∧ ServedAsTxt net domain token ∨
        ∃ host, ServedBy net method domain token host := by
  cases method with
  | dnsTxt =>
    simp only [verifyOwnership, ServedBy, Except.ok.injEq, exists_eq_left', true_and, exists_false,
      or_false]
    exact verifyDnsTxt_verified
  | wellKnownFile =>
    rw [verifyOwnership, verifyWellKnownFile, verifyPage_verified]
    simp [ServedBy]
  | metaTag =>
    rw [verifyOwnership, verifyMetaTag, verifyPage_verified]
    simp [ServedBy]

theorem ServedBy.host_unique {net : Lookups} {method : OwnershipVerificationMethod}
    {domain token host host' : Str} (h : ServedBy net method domain token host)
    (h' : ServedBy net method domain token host') : host = host' := by
  cases method with
  | dnsTxt => exact h.elim
  | wellKnownFile =>
    obtain ⟨-, -, -, -, -, rfl⟩ := h
    obtain ⟨-, -, -, -, -, rfl⟩ := h'
    rfl
  | metaTag =>
    obtain ⟨-, -, -, -, -, rfl⟩ := h
    obtain ⟨-, -, -, -, -, rfl⟩ := h'
    rfl

/-- **Exactly when a verification is the domain's own**: no fetch of it
ends, by whatever redirects, with a 200 response of another host that has
the token. -/
theorem verified_by_domain_iff (net : Lookups) (method : OwnershipVerificationMethod)
    (domain token : Str) :
    (∀ result, verifyOwnership net method domain token = .ok result → result.verified = true →
      ServedByDomain net method domain token) ↔
      ∀ host, host ≠ lower domain → ¬ ServedBy net method domain token host := by
  constructor
  · intro h host hother hserved
    obtain ⟨result, hresult, hverified⟩ := verifyOwnership_verified.mpr (.inr ⟨host, hserved⟩)
    rcases h result hresult hverified with ⟨rfl, -⟩ | hdomain
    · exact hserved
    · exact hother (hserved.host_unique hdomain)
  · intro h result hresult hverified
    rcases verifyOwnership_verified.mp ⟨result, hresult, hverified⟩ with htxt | ⟨host, hserved⟩
    · exact .inl htxt
    · by_cases hhost : host = lower domain
      · exact .inr (hhost ▸ hserved)
      · exact absurd hserved (h host hhost)

end

/-- A domain whose well-known path redirects anywhere, and a host that
serves a token of its choice. -/
def openRedirect (token : Str) : Lookups where
  txt _ := .error "NXDOMAIN".toList
  answers _ hop := .response
    (if hop = 0 then
      { statusCode := 302, headers := [("location".toList, "https://evil.test/token".toList)] }
    else { statusCode := 200, content := encodeStrict token })
  redirectTarget _ location := location
  invalidUrl _ := none
  text resp := decodeUtf8 resp.content

/-- A token from another host is taken as the domain's. -/
theorem openRedirect_verified :
    let _ := PyRuntime.ascii
    let token := "sentinel-verify=abc123".toList
    let net := openRedirect token
    (verifyOwnership net .wellKnownFile "acme.test".toList token).map (·.verified) = .ok true ∧
      ¬ ServedByDomain net .wellKnownFile "acme.test".toList token := by
  intro runtime token net
  constructor
  · decide +kernel
  · rintro (⟨hmethod, -⟩ | ⟨-, resp, -, -, -, hhost⟩)
    · cases hmethod
    · exact absurd hhost (by decide +kernel)

end Sentinel.Api
