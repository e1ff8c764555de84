/-
Sentinel.Core.PersonaIsolation — what one persona's traffic can tell
another's.

The engine never passes cookies to its client, so the only channel
between calls is the client's own jar. The jar is consulted for a request
that brings no Cookie header: such a call is isolated only if it never
reaches the wire. A call with a Cookie header of its own always is.
-/
import Sentinel.Core.HttpEngineTheorems

namespace Sentinel.Core

open Sentinel.Py

/-! ## Which calls bring a Cookie header -/

theorem hasCookieHeader_iff (headers : Dict) :
    hasCookieHeader headers = true ↔ ∃ name ∈ headers.keys, isCookieHeader name = true := by
  simp [hasCookieHeader]

/-- A call brings a Cookie header when its persona has cookies, or when
the persona's extra headers or the caller's headers name one. -/
theorem hasCookieHeader_requestHeaders (e : HttpEngine) (persona : SessionState)
    (headers : Option Dict) :
    hasCookieHeader (e.requestHeaders persona headers) = true ↔
      persona.cookies ≠ [] ∨ hasCookieHeader persona.extraHeaders = true ∨
        hasCookieHeader (headers.getD []) = true := by
  have hbase : ∀ x, x ∈ ((Dict.merge [("User-Agent".toList, e.userAgent)]
      persona.extraHeaders).merge (headers.getD [])).keys ↔
      x = "User-Agent".toList ∨ x ∈ persona.extraHeaders.keys ∨ x ∈ (headers.getD []).keys := by
    intro x
    rw [Dict.mem_keys_merge, Dict.mem_keys_merge, or_assoc]
    simp [Dict.keys]
  have hagent : isCookieHeader "User-Agent".toList = false := by decide
  have hcookie : isCookieHeader "Cookie".toList = true := by decide
  simp only [hasCookieHeader_iff]
  unfold HttpEngine.requestHeaders
  by_cases hcookies : persona.cookies = []
  · simp only [hcookies, if_true, hbase, ne_eq, not_true, false_or]
    constructor
    · rintro ⟨name, rfl | hname | hname, hmatch⟩
      · exact absurd (hagent.symm.trans hmatch) Bool.false_ne_true
      · exact Or.inl ⟨name, hname, hmatch⟩
      · exact Or.inr ⟨name, hname, hmatch⟩
    · rintro (⟨name, hname, hmatch⟩ | ⟨name, hname, hmatch⟩)
      · exact ⟨name, Or.inr (Or.inl hname), hmatch⟩
      · exact ⟨name, Or.inr (Or.inr hname), hmatch⟩
  · simp only [hcookies, if_false, ne_eq, not_false_eq_true, true_or, iff_true]
    exact ⟨"Cookie".toList, Dict.mem_keys_setdefault.mpr (Or.inl rfl), hcookie⟩

/-! ## The jar's header -/

theorem mem_put (jar : CookieJar) (host : Str) (cookie : Str × Str) :
    ⟨host, cookie.1, cookie.2⟩ ∈ jar.put host cookie := by
  simp [CookieJar.put]

/-- A jar with a cookie for a host has a Cookie header for it. -/
theorem header_isSome {jar : CookieJar} {c : CookieEntry} (hc : c ∈ jar) :
    ∃ value, jar.header c.host = some value := by
  have hmem : c ∈ jar.filter fun d => d.host == c.host := by simp [hc]
  unfold CookieJar.header
  cases hfilter : jar.filter fun d => d.host == c.host with
  | nil => simp [hfilter] at hmem
  | cons first rest => exact ⟨_, rfl⟩

/-- Without a Cookie header of one's own the jar shows on the wire. -/
theorem addJarCookies_ne {jar : CookieJar} {host value : Str} {headers : Dict}
    (hown : hasCookieHeader headers = false) (hjar : jar.header host = some value) :
    addJarCookies jar host headers ≠ headers := by
  simp [addJarCookies, hown, hjar]

variable [PyRuntime]

/-! ## Isolation -/

/-- The next call puts the same headers on the wire after any two
histories, whatever is answered during it. -/
def HttpEngine.Isolated (e : HttpEngine) (call : RequestCall) : Prop :=
  ∀ (h₁ h₂ : List (RequestCall × CallEnv)) (env₁ env₂ : CallEnv),
    ∀ w₁ ∈ (e.request call env₁ (e.jarAfter h₁ [])).wireHeaders,
    ∀ w₂ ∈ (e.request call env₂ (e.jarAfter h₂ [])).wireHeaders, w₁ = w₂

omit [PyRuntime] in
theorem mem_wireHeaders {run : RequestRun} {headers : Dict} :
    headers ∈ run.wireHeaders ↔
      ∃ req wire, .send req wire ∈ run.events ∧ ∃ w ∈ wire, w.headers = headers := by
  unfold RequestRun.wireHeaders
  rw [List.mem_flatMap]
  constructor
  · rintro ⟨ev, hev, hmem⟩
    cases ev with
    | send req wire => exact ⟨req, wire, hev, by simpa using hmem⟩
    | _ => simp at hmem
  · rintro ⟨req, wire, hev, w, hw, rfl⟩
    exact ⟨_, hev, List.mem_map_of_mem hw⟩

/-- A call with a Cookie header of its own sends its headers as given. -/
theorem wireHeaders_own {e : HttpEngine} {call : RequestCall}
    (hown : hasCookieHeader (e.wireRequest call).headers = true) (env : CallEnv) (jar : CookieJar) :
    ∀ w ∈ (e.request call env jar).wireHeaders, w = (e.wireRequest call).headers := by
  intro headers hheaders
  obtain ⟨req, wire, hev, w, hw, rfl⟩ := mem_wireHeaders.mp hheaders
  obtain ⟨pre, post, hevents⟩ := List.append_of_mem hev
  obtain ⟨-, -, rfl, attempt, jar', rfl⟩ := send_mem_request hevents
  exact exchange_wire_headers hown _ _ _ _ w hw

/-! ## The first attempt -/

/-- The state after the first attempt. -/
def HttpEngine.firstAttempt (e : HttpEngine) (call : RequestCall) (env : CallEnv)
    (jar : CookieJar) : LoopState × Bool :=
  e.attemptOnce (e.wireRequest call) env (e.loopStart jar)

/-- The effects of a dispatched call go on from its first attempt, and the
first attempt is all of it when its outcome asks for no retry. -/
theorem request_firstAttempt {e : HttpEngine} {call : RequestCall} (hpass : e.blocks call = false)
    (env : CallEnv) (jar : CookieJar) :
    (e.firstAttempt call env jar).1.events <+: (e.request call env jar).events ∧
      ((e.client.outcome (env.answers 1)).retried = false →
        (e.request call env jar).jar = (e.firstAttempt call env jar).1.jar) := by
  have hguard : e.guardCall call (upper call.method) = none := by
    simpa [HttpEngine.blocks] using hpass
  obtain ⟨left, hleft⟩ : ∃ left, e.maxAttempts (upper call.method) = left + 1 :=
    ⟨_, Nat.add_comm _ _⟩
  obtain ⟨_, _, _, _, _, hgo⟩ := attemptOnce_spec e (e.wireRequest call) env
    (e.loopStart jar)
  simp only [HttpEngine.request, hguard, HttpEngine.dispatch, hleft, HttpEngine.firstAttempt]
  unfold HttpEngine.retryLoop
  generalize e.attemptOnce _ env _ = res at hgo ⊢
  obtain ⟨st', go⟩ := res
  cases go with
  | true =>
    obtain ⟨new, hnew, -, -⟩ := retryLoop_spec e (e.wireRequest call) env left st'
    obtain ⟨⟨tail, htail, -⟩, -, -⟩ :=
      conclude_spec e call env (e.retryLoop (e.wireRequest call) env left st')
    refine ⟨?_, fun hstop => absurd (hgo.trans hstop) (by simp)⟩
    rw [htail, hnew, List.append_assoc]
    exact List.prefix_append _ _
  | false =>
    obtain ⟨⟨tail, htail, -⟩, hjar, -⟩ := conclude_spec e call env st'
    exact ⟨⟨tail, htail.symm⟩, fun _ => hjar⟩

/-- A call that reaches the wire sends first what its jar makes of its
own headers. -/
theorem wireHeaders_head {e : HttpEngine} {call : RequestCall} (hpass : e.blocks call = false)
    (env : CallEnv) (jar : CookieJar) :
    ((e.wireRequest call).withJar jar).headers ∈ (e.request call env jar).wireHeaders := by
  obtain ⟨reports, hevents, -⟩ := attemptOnce_spec e (e.wireRequest call) env
    (e.loopStart jar)
  have hprefix := (request_firstAttempt hpass env jar).1
  rw [HttpEngine.firstAttempt, hevents] at hprefix
  have hsent := hprefix.subset (List.mem_append_right _ List.mem_cons_self)
  refine mem_wireHeaders.mpr ⟨_, _, hsent, (e.wireRequest call).withJar jar, ?_, rfl⟩
  exact List.mem_of_mem_head? (exchange_wire_head _ _ _ _ _)

/-- A server that answers every request with 200 and one cookie. -/
def cookieServer : CallEnv where
  answers _ _ := .response { statusCode := 200, setCookies := [("sid".toList, "1".toList)] }
  elapsedMs _ := 1
  transcriptId := []

/-- The cookie server's cookie is in the jar after a call. -/
theorem jar_cookieServer {e : HttpEngine} {call : RequestCall} (hpass : e.blocks call = false)
    (jar : CookieJar) :
    ⟨hostOf call.url, "sid".toList, "1".toList⟩ ∈ (e.request call cookieServer jar).jar := by
  have hexchange : ∀ req, e.client.request (cookieServer.answers 1) jar req =
      ⟨[req.withJar jar], jar.store (hostOf req.url) [("sid".toList, "1".toList)],
        cookieServer.answers 1 0⟩ := by
    intro req
    have hnext : e.client.nextHop { statusCode := 200, setCookies := [("sid".toList, "1".toList)] } =
        none := by
      unfold AsyncClient.nextHop
      cases e.client.followRedirects <;> rfl
    unfold AsyncClient.request AsyncClient.exchange cookieServer
    simp only [hnext]
  have hstop : (e.client.outcome (cookieServer.answers 1)).retried = false := by
    rw [← request_answer e.client _ jar (e.wireRequest call), hexchange]
    have hanswer : (cookieServer.answers 1 0).retried = false := by decide
    exact hanswer
  obtain ⟨_, _, _, hjar, _⟩ := attemptOnce_spec e (e.wireRequest call) cookieServer (e.loopStart jar)
  have hstored : (e.firstAttempt call cookieServer jar).1.jar =
      (e.client.request (cookieServer.answers 1) jar (e.wireRequest call)).jar := hjar
  rw [(request_firstAttempt hpass cookieServer jar).2 hstop, hstored, hexchange]
  exact mem_put jar _ _

/-- The headers of a call depend on nothing but its arguments and the
engine exactly when it brings a Cookie header of its own or a guard stops
it: its persona has cookies, or its headers name the header. -/
theorem isolated_iff (e : HttpEngine) (call : RequestCall) :
    e.Isolated call ↔ e.blocks call = true ∨
      (call.persona.getD anonymousSession).cookies ≠ [] ∨
      hasCookieHeader (call.persona.getD anonymousSession).extraHeaders = true ∨
      hasCookieHeader (call.headers.getD []) = true := by
  rw [← hasCookieHeader_requestHeaders e]
  constructor
  · intro hisolated
    by_contra hleak
    simp only [not_or, Bool.not_eq_true] at hleak
    obtain ⟨hpass, hown⟩ := hleak
    -- the call itself, answered with a cookie, is the history that shows
    have hfirst := wireHeaders_head hpass cookieServer []
    have hsecond := wireHeaders_head hpass cookieServer (e.request call cookieServer []).jar
    have heq := hisolated [(call, cookieServer)] [] cookieServer cookieServer _ hsecond _ hfirst
    obtain ⟨value, hvalue⟩ := header_isSome (jar_cookieServer hpass [])
    have hempty : ((e.wireRequest call).withJar []).headers = (e.wireRequest call).headers := by
      simp [WireRequest.withJar, addJarCookies, CookieJar.header]
    rw [hempty] at heq
    exact addJarCookies_ne hown hvalue heq
  · rintro (hblocked | hown) h₁ h₂ env₁ env₂ w₁ hw₁ w₂ hw₂
    · rw [RequestRun.wireHeaders, (request_blocked hblocked _ _).1] at hw₁
      simp at hw₁
    · exact (wireHeaders_own hown _ _ w₁ hw₁).trans (wireHeaders_own hown _ _ w₂ hw₂).symm

/-- A logged-in persona. -/
def alice : SessionState := ⟨some "alice".toList, [("auth".toList, "a1".toList)], []⟩

omit [PyRuntime] in
/-- An anonymous call carries the cookie that the server set for another
persona before it. -/
theorem anonymous_carries_cookie :
    let _ := PyRuntime.ascii
    let url := "https://app.acme.test/".toList
    ¬ acmeEngine.Isolated { method := "GET".toList, url := url, persona := some anonymousSession } := by
  intro runtime url hisolated
  have hheaders := hisolated
    [({ method := "GET".toList, url := url, persona := some alice }, cookieServer)] [] cookieServer
    cookieServer
    [("User-Agent".toList, acmeEngine.userAgent), ("Cookie".toList, "sid=1".toList)]
    (by decide +kernel)
    [("User-Agent".toList, acmeEngine.userAgent)] (by decide +kernel)
  revert hheaders
  decide +kernel

end Sentinel.Core
