/-
Sentinel.Worker.CookieScope — where the cookies of a login go.

A session keeps the cookies that belong to the host its recipe starts at,
and the engine puts them into the header of every request that is made with
it, whatever host the request goes to. `cookiesStay_iff` compares the two
hosts.
-/
import Sentinel.Core.PersonaIsolation
import Sentinel.Worker.AuthEstablishing

namespace Sentinel.Worker

open Sentinel.Py Sentinel.Core Sentinel.Auth

/-! ## Domains -/

/-- A cookie of the domain belongs on a request to the host: the host is the
domain or under it. -/
def Covers (domain host : Str) : Prop := host = domain ∨ ('.' :: domain) <:+ host

instance (domain host : Str) : Decidable (Covers domain host) :=
  inferInstanceAs (Decidable (_ ∨ _))

theorem domainMatches_iff {targetHost cookieDomain : Str} :
    domainMatches targetHost cookieDomain = true ↔ Covers cookieDomain targetHost := by
  simp [domainMatches, Covers, endswith]

theorem Covers.trans {a b c : Str} (hab : Covers a b) (hbc : Covers b c) : Covers a c := by
  rcases hbc with rfl | hbc
  · exact hab
  · have hb : b <:+ c := (List.suffix_cons '.' b).trans hbc
    rcases hab with rfl | hab
    · exact .inr hbc
    · exact .inr (hab.trans hb)

/-- Nothing covers what is shorter. -/
theorem Covers.length_le {domain host : Str} (h : Covers domain host) :
    domain.length ≤ host.length := by
  rcases h with rfl | h
  · exact le_rfl
  · have := h.length_le
    simp only [List.length_cons] at this
    omega

/-- The domain of a cookie as it is compared, without its dots in front. -/
def bareDomain (domain : Str) : Str := lstripChar '.' domain

/-- A host is its dots in front and the rest of it. -/
theorem dots_append (host : Str) :
    ∃ n, host = List.replicate n '.' ++ bareDomain host := by
  induction host with
  | nil => exact ⟨0, rfl⟩
  | cons c rest ih =>
    obtain ⟨n, hn⟩ := ih
    by_cases hc : c = '.'
    · subst hc
      refine ⟨n + 1, ?_⟩
      have hbare : bareDomain ('.' :: rest) = bareDomain rest := by
        simp [bareDomain, lstripChar]
      rw [hbare, List.replicate_succ, List.cons_append, ← hn]
    · exact ⟨0, by simp [bareDomain, lstripChar, hc]⟩

theorem head_bareDomain (domain : Str) : ∀ c ∈ (bareDomain domain).head?, c ≠ '.' := by
  intro c hc
  have := List.head?_dropWhile_not (· == '.') domain
  unfold bareDomain lstripChar at hc
  rw [Option.mem_def] at hc
  rw [hc] at this
  simpa using this

/-- A host belongs to itself without its dots. -/
theorem covers_bareDomain (host : Str) : Covers (bareDomain host) host := by
  obtain ⟨n, hn⟩ := dots_append host
  cases n with
  | zero => exact .inl (by simpa using hn)
  | succ n =>
    refine .inr ⟨List.replicate n '.', ?_⟩
    rw [List.replicate_succ', List.append_assoc] at hn
    exact hn.symm

/-- What covers a host, and has no dot in front, covers it without its dots. -/
theorem covers_of_covers {domain host : Str} (hdomain : domain ≠ [])
    (hhead : ∀ c ∈ domain.head?, c ≠ '.') (h : Covers domain host) :
    Covers domain (bareDomain host) := by
  obtain ⟨n, hn⟩ := dots_append host
  rcases h with rfl | h
  · left
    cases host with
    | nil => exact absurd rfl hdomain
    | cons c rest => simp [bareDomain, lstripChar, hhead c rfl]
  · have hbare : bareDomain host <:+ host := ⟨_, hn.symm⟩
    rcases List.suffix_or_suffix_of_suffix h hbare with hshort | ⟨front, hfront⟩
    · exact .inr hshort
    · -- what the domain has in front of the bare host are dots of the host
      rw [← hfront] at h
      have hdots : front <:+ List.replicate n '.' := by
        obtain ⟨before, hbefore⟩ := h
        rw [← List.append_assoc] at hbefore
        exact ⟨before, List.append_cancel_right (hbefore.trans hn)⟩
      cases front with
      | nil => exact .inr (by rw [← hfront]; exact List.suffix_refl _)
      | cons c front =>
        rw [List.cons_append, List.cons.injEq] at hfront
        cases front with
        | nil => exact .inl hfront.2
        | cons c' front =>
          have hc' : c' = '.' := by
            have hmem := hdots.subset (List.mem_cons_of_mem c (List.mem_cons_self (a := c')))
            exact List.eq_of_mem_replicate hmem
          refine absurd hc' (hhead c' ?_)
          rw [← hfront.2]
          rfl

/-- **Whatever covers the one host covers the other**: it is that host,
without dots in front, or under it. -/
theorem covers_all_iff {host target : Str} :
    (∀ domain : Str, bareDomain domain ≠ [] → Covers (bareDomain domain) host →
      Covers (bareDomain domain) target) ↔
      bareDomain host = [] ∨ Covers (bareDomain host) target := by
  constructor
  · intro h
    by_cases hempty : bareDomain host = []
    · exact .inl hempty
    · exact .inr (h host hempty (covers_bareDomain host))
  · intro h domain hdomain hcovers
    have hbare := covers_of_covers hdomain (head_bareDomain domain) hcovers
    rcases h with hempty | htarget
    · rw [hempty] at hbare
      exact absurd (List.length_eq_zero_iff.mp (Nat.le_zero.mp hbare.length_le)) hdomain
    · exact hbare.trans htarget

/-! ## The cookies of a session -/

/-- Put a cookie in the place of the one of its name, or at the end. -/
def putCookie : List StorageCookie → StorageCookie → List StorageCookie
  | [], cookie => [cookie]
  | first :: rest, cookie =>
      if first.name = cookie.name then cookie :: rest else first :: putCookie rest cookie

/-- The cookie is left out of a session for the host. -/
def Skipped (targetHost : Option Str) (cookie : StorageCookie) : Prop :=
  targetHost.getD [] ≠ [] ∧ bareDomain cookie.domain ≠ [] ∧
    domainMatches (targetHost.getD []) (bareDomain cookie.domain) = false

instance (targetHost : Option Str) (cookie : StorageCookie) :
    Decidable (Skipped targetHost cookie) :=
  inferInstanceAs (Decidable (_ ∧ _))

/-- The cookies of the storage state that are in its session. -/
def placedCookies (state : StorageState) (targetHost : Option Str) : List StorageCookie :=
  state.cookies.foldl (fun placed cookie =>
    if Skipped targetHost cookie then placed else putCookie placed cookie) []

def StorageCookie.item (cookie : StorageCookie) : Str × Str := (cookie.name, cookie.value)

theorem map_putCookie (placed : List StorageCookie) (cookie : StorageCookie) :
    (putCookie placed cookie).map StorageCookie.item =
      Dict.set (placed.map StorageCookie.item) cookie.name cookie.value := by
  induction placed with
  | nil => rfl
  | cons first rest ih =>
    by_cases hname : first.name = cookie.name
    · simp [putCookie, Dict.set, StorageCookie.item, hname]
    · simp only [putCookie, if_neg hname, List.map_cons, ih, StorageCookie.item, Dict.set]

/-- **The session's cookies** are those of the storage state that are not
left out. -/
theorem sessionCookies_eq (state : StorageState) (targetHost : Option Str) :
    sessionCookies state targetHost =
      (placedCookies state targetHost).map StorageCookie.item := by
  have hfold : ∀ (cookies placed : List StorageCookie),
      cookies.foldl (fun result cookie =>
        let domain := lstripChar '.' cookie.domain
        let host := targetHost.getD []
        if host ≠ [] ∧ domain ≠ [] ∧ domainMatches host domain = false then result
        else Dict.set result cookie.name cookie.value) (placed.map StorageCookie.item) =
      (cookies.foldl (fun placed cookie =>
        if Skipped targetHost cookie then placed else putCookie placed cookie) placed).map
          StorageCookie.item := by
    intro cookies
    induction cookies with
    | nil => exact fun _ => rfl
    | cons cookie rest ih =>
      intro placed
      rw [List.foldl_cons, List.foldl_cons]
      by_cases hskipped : Skipped targetHost cookie
      · rw [if_pos hskipped, ← ih]
        exact congrArg (List.foldl _ · rest) (if_pos hskipped)
      · rw [if_neg hskipped, ← ih, map_putCookie]
        exact congrArg (List.foldl _ · rest) (if_neg hskipped)
  exact hfold state.cookies []

theorem mem_putCookie {placed : List StorageCookie} {cookie c : StorageCookie}
    (h : c ∈ putCookie placed cookie) : c = cookie ∨ c ∈ placed := by
  induction placed with
  | nil => exact .inl (List.mem_singleton.mp h)
  | cons first rest ih =>
    unfold putCookie at h
    split at h
    · exact (List.mem_cons.mp h).imp id (List.mem_cons_of_mem first)
    · rcases List.mem_cons.mp h with rfl | h
      · exact .inr List.mem_cons_self
      · exact (ih h).imp id (List.mem_cons_of_mem first)

/-- A cookie of the session is one of the state and is not left out. -/
theorem mem_placedCookies {state : StorageState} {targetHost : Option Str} {c : StorageCookie}
    (h : c ∈ placedCookies state targetHost) : c ∈ state.cookies ∧ ¬ Skipped targetHost c := by
  have hfold : ∀ (cookies placed : List StorageCookie),
      c ∈ cookies.foldl (fun placed cookie =>
        if Skipped targetHost cookie then placed else putCookie placed cookie) placed →
      c ∈ placed ∨ c ∈ cookies ∧ ¬ Skipped targetHost c := by
    intro cookies
    induction cookies with
    | nil => exact fun _ hmem => .inl hmem
    | cons cookie rest ih =>
      intro placed hmem
      rw [List.foldl_cons] at hmem
      rcases ih _ hmem with hplaced | ⟨hrest, hnot⟩
      · split at hplaced
        case isTrue => exact .inl hplaced
        case isFalse hnot =>
          rcases mem_putCookie hplaced with rfl | hplaced
          · exact .inr ⟨List.mem_cons_self, hnot⟩
          · exact .inl hplaced
      · exact .inr ⟨List.mem_cons_of_mem cookie hrest, hnot⟩
  exact (hfold state.cookies [] h).resolve_left (List.not_mem_nil)

/-! ## The header -/

/-- The Cookie header made of these cookies. -/
def cookieText (placed : List StorageCookie) : Str :=
  join "; ".toList (placed.map fun c => c.name ++ '=' :: c.value)

/-- The cookies of the session that the headers of a request carry. -/
def carriedCookies (headers : Dict) (state : StorageState) (targetHost : Option Str) :
    List StorageCookie :=
  if headers.lookup "Cookie".toList = some (cookieText (placedCookies state targetHost)) then
    placedCookies state targetHost
  else []

theorem lookup_of_not_mem_keys {d : Dict} {k : Str} (h : k ∉ d.keys) : d.lookup k = none := by
  rw [List.lookup_eq_none_iff]
  intro kv hkv
  simp only [bne_iff_ne, ne_eq]
  rintro rfl
  exact h (List.mem_map_of_mem hkv)

section

variable [PyRuntime]

/-- The call with the session of a login. -/
def withSession (call : RequestCall) (personaId : Str) (state : StorageState)
    (targetHost : Option Str) : RequestCall :=
  { call with persona := some (personaSession personaId state targetHost) }

/-- **A request of a session carries its cookies**, unless the caller has a
Cookie header. -/
theorem carriedCookies_wireRequest {e : HttpEngine} {call : RequestCall}
    (hown : "Cookie".toList ∉ (call.headers.getD []).keys) (personaId : Str) (state : StorageState)
    (targetHost : Option Str) :
    carriedCookies (e.wireRequest (withSession call personaId state targetHost)).headers state
      targetHost = placedCookies state targetHost := by
  have hbase : "Cookie".toList ∉ ((Dict.merge [("User-Agent".toList, e.userAgent)] []).merge
      (call.headers.getD [])).keys := by
    rw [Dict.mem_keys_merge]
    rintro (hagent | hcaller)
    · revert hagent
      simp [Dict.merge, Dict.keys]
    · exact hown hcaller
  by_cases hplaced : placedCookies state targetHost = []
  · unfold carriedCookies
    rw [hplaced]
    split <;> rfl
  · refine if_pos ?_
    have hcookies : (personaSession personaId state targetHost).cookies ≠ [] := by
      show sessionCookies state targetHost ≠ []
      rw [sessionCookies_eq]
      simpa using hplaced
    show (HttpEngine.requestHeaders e (personaSession personaId state targetHost)
      call.headers).lookup "Cookie".toList = _
    unfold HttpEngine.requestHeaders
    dsimp only
    rw [if_neg hcookies]
    show (Dict.setdefault ((Dict.merge [("User-Agent".toList, e.userAgent)] []).merge
      (call.headers.getD [])) "Cookie".toList _).lookup "Cookie".toList = _
    rw [Dict.setdefault, if_neg hbase, List.lookup_append, lookup_of_not_mem_keys hbase]
    show some (join "; ".toList ((sessionCookies state targetHost).map _)) = _
    rw [sessionCookies_eq, List.map_map]
    rfl

/-- Every cookie of the state has a domain. -/
def HasDomains (state : StorageState) : Prop := ∀ c ∈ state.cookies, bareDomain c.domain ≠ []

/-- The host a recipe starts at. -/
def startHost (recipe : LoginRecipe) : Option Str :=
  match urlsplit recipe.startUrl with
  | .ok parts => parts.hostname
  | .error _ => none

/-- The recipe of a persona. -/
def HasRecipe (persona : ConfiguredPersona) (recipe : LoginRecipe) : Prop :=
  ∃ raw, persona.loginRecipe = some raw ∧ buildLoginRecipe raw = .ok recipe

/-- **Cookies stay where they belong**: however the login goes and whatever
it leaves in the browser, each cookie that a request with its session
carries belongs to the host the request goes to. -/
def CookiesStay (e : HttpEngine) (call : RequestCall) (env : CallEnv) (jar : CookieJar)
    (persona : ConfiguredPersona) (recipe : LoginRecipe) : Prop :=
  ∀ v browser state session, logInPersona v persona browser = .ok (.accepted state session) →
    HasDomains state → ∀ req wire,
      Core.Event.send req wire ∈ (e.request { call with persona := some session } env jar).events →
      ∀ c ∈ carriedCookies req.headers state (startHost recipe),
        Covers (bareDomain c.domain) (hostOf call.url)

/-- A call that the guards let through sends its request. -/
theorem exists_send {e : HttpEngine} {call : RequestCall} (hpass : e.blocks call = false)
    (env : CallEnv) (jar : CookieJar) : ∃ req wire,
      Core.Event.send req wire ∈ (e.request call env jar).events ∧ req = e.wireRequest call := by
  obtain ⟨mid, tail, hrun⟩ := request_dispatched hpass env jar
  have hpos : 0 < sendCount mid := by
    rw [hrun.sends]
    exact attemptsMade_pos e env (by unfold HttpEngine.maxAttempts; omega) 0
  obtain ⟨ev, hev, hsend⟩ := List.countP_pos_iff.mp hpos
  have hmem : ev ∈ (e.request call env jar).events := by
    rw [hrun.events]
    exact List.mem_append_left _ (List.mem_cons_of_mem _ hev)
  cases ev with
  | send req wire =>
    obtain ⟨pre, post, hevents⟩ := List.append_of_mem hmem
    obtain ⟨-, -, hreq, -⟩ := send_mem_request hevents
    exact ⟨req, wire, hmem, hreq⟩
  | acquire _ _ | reportBackpressure _ _ | reportSuccess _ | record _ => cases hsend

/-! ## Logins -/

/-- A login that is accepted comes to the replay, in every browser. -/
theorem logInPersona_replays {v : Vault} {persona : ConfiguredPersona} {browser : BrowserRun}
    {recipe : LoginRecipe} {state : StorageState} {session : SessionState}
    (hrecipe : HasRecipe persona recipe)
    (h : logInPersona v persona browser = .ok (.accepted state session)) :
    ∃ ref plaintext, ∀ browser',
      logInPersona v persona browser' = replayLogin persona browser' recipe ref plaintext := by
  obtain ⟨raw, hraw, hbuilt⟩ := hrecipe
  obtain ⟨raw', ciphertext, recipe', ref, plaintext, hw⟩ := replaysWith_of_accepted h
  have hsame : raw' = raw :=
    Option.some.inj ((Option.filter_eq_some_iff.mp hw.stored).1.symm.trans hraw)
  rw [← hsame] at hbuilt
  have hrecipe : recipe' = recipe := Except.ok.inj (hw.built.symm.trans hbuilt)
  rw [hrecipe] at hw
  exact ⟨ref, plaintext, logInPersona_eq hw⟩

/-- The replay of an accepted login succeeds, and its session is one for the
host the recipe starts at. -/
theorem replayLogin_accepted_iff {persona : ConfiguredPersona} {browser : BrowserRun}
    {recipe : LoginRecipe} {ref plaintext : Str} {state : StorageState} {session : SessionState} :
    replayLogin persona browser recipe ref plaintext = .ok (.accepted state session) ↔
      browser.replay recipe [(ref, ⟨ref, plaintext⟩)] = .ok (.success state) ∧
        (∃ parts, urlsplit recipe.startUrl = .ok parts) ∧
        session = personaSession persona.row.id state (startHost recipe) := by
  simp only [replayLogin, bind_eq_ok, mapError_eq_ok]
  constructor
  · rintro ⟨result, hresult, hlogin⟩
    cases result with
    | failure error => cases hlogin
    | success state' =>
      obtain ⟨parts, hparts, hlogin⟩ := bind_eq_ok.mp hlogin
      have hparts := mapError_eq_ok.mp hparts
      cases hlogin
      refine ⟨hresult, ⟨parts, hparts⟩, ?_⟩
      rw [startHost, hparts]
  · rintro ⟨hresult, ⟨parts, hparts⟩, rfl⟩
    refine ⟨.success state, hresult, bind_eq_ok.mpr ⟨parts, mapError_eq_ok.mpr hparts, ?_⟩⟩
    rw [startHost, hparts]
    rfl

/-- A browser that ends with another storage state. -/
def leaving (browser : BrowserRun) (state : StorageState) : BrowserRun :=
  { browser with storageState := fun _ => .ok state }

/-- No exception is turned into a success. -/
theorem attempt_of_handleReplay {outcome : Except ReplayError LoginReplayResult}
    {state : StorageState} (h : handleReplay outcome = .ok (.success state)) :
    outcome = .ok (.success state) := by
  cases outcome with
  | ok result => exact h
  | error e =>
    cases e with
    | playwright e => cases e <;> cases h
    | keyError key | assertionError | valueError msg => cases h

/-- A replay that succeeds, succeeds with any storage state. -/
theorem replay_leaving {browser : BrowserRun} {recipe : LoginRecipe}
    {credentials : List (Str × Auth.Credential)} {state : StorageState}
    (h : browser.replay recipe credentials = .ok (.success state)) (state' : StorageState) :
    (leaving browser state').replay recipe credentials = .ok (.success state') := by
  obtain ⟨⟨⟩, hcontext, h⟩ := bind_eq_ok.mp h
  obtain ⟨⟨⟩, hpage, h⟩ := bind_eq_ok.mp h
  obtain ⟨⟨⟩, hclose, houtcome⟩ := bind_eq_ok.mp h
  have hattempt := attempt_of_handleReplay houtcome
  obtain ⟨opened, hopened, hattempt⟩ := bind_eq_ok.mp hattempt
  obtain ⟨done, hdone, hfinish⟩ := bind_eq_ok.mp hattempt
  obtain ⟨found, hfound, hfinish⟩ := bind_eq_ok.mp hfinish
  have hattempt' : (leaving browser state').attempt recipe credentials = .ok (.success state') := by
    refine bind_eq_ok.mpr ⟨opened, hopened, bind_eq_ok.mpr ⟨done, hdone, ?_⟩⟩
    refine bind_eq_ok.mpr ⟨found, hfound, ?_⟩
    cases found with
    | none => cases hfinish
    | some done' => rfl
  refine bind_eq_ok.mpr ⟨(), hcontext, bind_eq_ok.mpr ⟨(), hpage, bind_eq_ok.mpr ⟨(), hclose, ?_⟩⟩⟩
  rw [hattempt']
  rfl

/-- What the requests of a login carry is what its session has. -/
theorem cookiesStay_placed_iff {e : HttpEngine} {call : RequestCall} {env : CallEnv}
    {jar : CookieJar} {persona : ConfiguredPersona} {recipe : LoginRecipe} {v : Vault}
    {browser : BrowserRun} {state : StorageState} {session : SessionState}
    (hrecipe : HasRecipe persona recipe)
    (hlogin : logInPersona v persona browser = .ok (.accepted state session))
    (hpass : e.blocks call = false) (hown : "Cookie".toList ∉ (call.headers.getD []).keys) :
    CookiesStay e call env jar persona recipe ↔ ∀ state, HasDomains state →
      ∀ c ∈ placedCookies state (startHost recipe),
        Covers (bareDomain c.domain) (hostOf call.url) := by
  constructor
  · intro h state' hdomains c hc
    obtain ⟨ref, plaintext, hreplays⟩ := logInPersona_replays hrecipe hlogin
    rw [hreplays] at hlogin
    obtain ⟨hreplay, hparts, -⟩ := replayLogin_accepted_iff.mp hlogin
    have haccepted := (hreplays (leaving browser state')).trans
      (replayLogin_accepted_iff.mpr ⟨replay_leaving hreplay state', hparts, rfl⟩)
    have hpass' : e.blocks (withSession call persona.row.id state' (startHost recipe)) = false :=
      hpass
    obtain ⟨req, wire, hsend, rfl⟩ := exists_send hpass' env jar
    refine h v _ state' _ haccepted hdomains _ wire hsend c ?_
    rw [carriedCookies_wireRequest hown]
    exact hc
  · intro h v' browser' state' session' haccepted hdomains req wire hsend c hc
    obtain ⟨ref, plaintext, hreplays⟩ := logInPersona_replays hrecipe haccepted
    rw [hreplays] at haccepted
    obtain ⟨-, -, rfl⟩ := replayLogin_accepted_iff.mp haccepted
    obtain ⟨pre, post, hevents⟩ := List.append_of_mem hsend
    obtain ⟨-, -, rfl, -⟩ := send_mem_request hevents
    rw [show ({ call with persona := some (personaSession persona.row.id state'
      (startHost recipe)) } : RequestCall) = withSession call persona.row.id state'
      (startHost recipe) from rfl, carriedCookies_wireRequest hown] at hc
    exact h state' hdomains c hc

omit [PyRuntime] in
/-- A storage state of one cookie. -/
theorem placedCookies_singleton {json : Str} {targetHost : Option Str} {c : StorageCookie}
    (h : ¬ Skipped targetHost c) : placedCookies ⟨[c], json⟩ targetHost = [c] := by
  simp [placedCookies, h, putCookie]

omit [PyRuntime] in
/-- What belongs to the host the login starts at, and what does not. -/
theorem not_skipped_iff {host : Str} (hhost : host ≠ []) {c : StorageCookie}
    (hdomain : bareDomain c.domain ≠ []) :
    ¬ Skipped (some host) c ↔ Covers (bareDomain c.domain) host := by
  rw [← domainMatches_iff]
  simp [Skipped, hhost, hdomain]

omit [PyRuntime] in
/-- **What a session for a host leaves out** is enough exactly if the request
goes to that host or to one under it. With no host nothing is left out. -/
theorem placed_covers_iff {targetHost : Option Str} {target : Str} :
    (∀ state, HasDomains state → ∀ c ∈ placedCookies state targetHost,
      Covers (bareDomain c.domain) target) ↔
      ∃ host, targetHost = some host ∧ host ≠ [] ∧
        (bareDomain host = [] ∨ Covers (bareDomain host) target) := by
  constructor
  · intro h
    -- with no host to compare with, a cookie of any domain is placed
    have hany : targetHost.getD [] ≠ [] := by
      intro hnone
      have hplaced : placedCookies ⟨[⟨[], [], 'x' :: target⟩], []⟩ targetHost =
          [⟨[], [], 'x' :: target⟩] := placedCookies_singleton fun hs => hs.1 hnone
      have hcovers := h ⟨[⟨[], [], 'x' :: target⟩], []⟩
        (fun c hc => by rw [List.mem_singleton.mp hc]; exact List.cons_ne_nil _ _)
        ⟨[], [], 'x' :: target⟩ (by rw [hplaced]; exact List.mem_singleton.mpr rfl)
      have hlength : ('x' :: target).length ≤ target.length := hcovers.length_le
      simp at hlength
    cases targetHost with
    | none => exact absurd rfl hany
    | some host =>
      refine ⟨host, rfl, hany, covers_all_iff.mp fun domain hdomain hcovers => ?_⟩
      have hskipped : ¬ Skipped (some host) ⟨[], [], domain⟩ :=
        (not_skipped_iff hany hdomain).mpr hcovers
      exact h ⟨[⟨[], [], domain⟩], []⟩
        (fun c hc => by rw [List.mem_singleton.mp hc]; exact hdomain) ⟨[], [], domain⟩
        (by rw [placedCookies_singleton hskipped]; exact List.mem_singleton.mpr rfl)
  · rintro ⟨host, rfl, hne, hcovers⟩ state hdomains c hc
    obtain ⟨hmem, hnot⟩ := mem_placedCookies hc
    exact covers_all_iff.mpr hcovers c.domain (hdomains c hmem)
      ((not_skipped_iff hne (hdomains c hmem)).mp hnot)

/-- **Where cookies stay**: on requests to the host the recipe starts at, or
to one under it. A recipe that starts at no host lets every cookie go
anywhere. -/
theorem cookiesStay_iff {e : HttpEngine} {call : RequestCall} {env : CallEnv} {jar : CookieJar}
    {persona : ConfiguredPersona} {recipe : LoginRecipe} {v : Vault} {browser : BrowserRun}
    {state : StorageState} {session : SessionState} (hrecipe : HasRecipe persona recipe)
    (hlogin : logInPersona v persona browser = .ok (.accepted state session))
    (hpass : e.blocks call = false) (hown : "Cookie".toList ∉ (call.headers.getD []).keys) :
    CookiesStay e call env jar persona recipe ↔ ∃ host, startHost recipe = some host ∧
      host ≠ [] ∧ (bareDomain host = [] ∨ Covers (bareDomain host) (hostOf call.url)) :=
  (cookiesStay_placed_iff hrecipe hlogin hpass hown).trans placed_covers_iff

end

/-! ## A login at somebody else's -/

/-- A persona that logs in at this URL. -/
def loginAt (startUrl : String) : ConfiguredPersona :=
  { acmePersona "alice" "k:hunter2" with
    loginRecipe := some { passwordRecipe with startUrl := some startUrl.toList } }

/-- Its recipe. -/
def recipeAt (startUrl : String) : LoginRecipe where
  startUrl := startUrl.toList
  steps := [{ action := "fill_secret".toList, selector := some "#pw".toList,
              credentialRef := some "pw".toList }]
  successAssertion := { kind := "url_contains".toList, value := "/dashboard".toList }

def acmeKey : Vault := ⟨sealedFernet, [107]⟩

/-- A page of the target. -/
def acmePage : RequestCall := { method := "GET".toList, url := "https://app.acme.test/me".toList }

/-- A login on the target itself. -/
theorem cookiesStay_ownLogin :
    let _ := PyRuntime.ascii
    CookiesStay acmeEngine acmePage limitedThenOk [] (loginAt "https://app.acme.test/login")
      (recipeAt "https://app.acme.test/login") := by
  intro runtime
  have hlogin : logInPersona acmeKey (loginAt "https://app.acme.test/login")
      (smoothEnv []).browser = .ok (.accepted ⟨[], "{}".toList⟩ ⟨some "alice".toList, [], []⟩) := by
    decide +kernel
  refine (cookiesStay_iff ⟨_, rfl, rfl⟩ hlogin (by decide +kernel) (by decide)).mpr ?_
  exact ⟨"app.acme.test".toList, by decide +kernel, by decide, by decide +kernel⟩

/-- The login of an identity provider leaves its cookie, and every page of
the target is asked for with it. -/
theorem foreign_cookie_sent :
    let _ := PyRuntime.ascii
    ¬ CookiesStay acmeEngine acmePage limitedThenOk [] (loginAt "https://login.idp.test/")
      (recipeAt "https://login.idp.test/") := by
  intro runtime h
  have hlogin : logInPersona acmeKey (loginAt "https://login.idp.test/") (smoothEnv []).browser =
      .ok (.accepted ⟨[], "{}".toList⟩ ⟨some "alice".toList, [], []⟩) := by decide +kernel
  have hplaced := (cookiesStay_placed_iff ⟨_, rfl, rfl⟩ hlogin (by decide +kernel) (by decide)).mp h
    ⟨[⟨"sso".toList, "t".toList, "login.idp.test".toList⟩], []⟩
    (by intro c hc; rw [List.mem_singleton.mp hc]; decide)
    ⟨"sso".toList, "t".toList, "login.idp.test".toList⟩ (by decide +kernel)
  exact absurd hplaced (by decide +kernel)

end Sentinel.Worker
