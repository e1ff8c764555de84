/-
Sentinel.Recon.Containment — where recon goes.

Hosts come in from subfinder's output and from redirects, and nothing on
the way compares them with the root domain. `runRecon_staysWithin_iff` is
the exact condition under which recon stays inside it all the same.
-/
import Sentinel.Py.Except
import Sentinel.Recon.Phase

namespace Sentinel.Recon

open Sentinel.Py Sentinel.Core

section

variable [PyRuntime]

/-- A host name as DNS compares it: without case, with or without the dot
of the root. -/
def canonicalHost (host : Str) : Str := rstripChar '.' (lower host)

/-- The host is the root domain or a subdomain of it. -/
def WithinDomain (rootDomain host : Str) : Prop :=
  canonicalHost host = canonicalHost rootDomain ∨
    ('.' :: canonicalHost rootDomain) <:+ canonicalHost host

instance (rootDomain host : Str) : Decidable (WithinDomain rootDomain host) :=
  inferInstanceAs (Decidable (_ ∨ _))

/-- An action that stays within the root domain. The random name is one
under the root domain by its making. -/
def ReconAction.Within (rootDomain : Str) : ReconAction → Prop
  | .resolveWildcardProbe _ => True
  | .resolve host => WithinDomain rootDomain host
  | .http host => WithinDomain rootDomain host

/-- All names resolved, all hosts asked and all assets reported are within
the root domain. -/
def StaysWithin (rootDomain : Str) (run : List ReconAction × Except ReconError ReconResult) :
    Prop :=
  (∀ action ∈ run.1, action.Within rootDomain) ∧
    ∀ result, run.2 = .ok result → ∀ asset ∈ result.assets, WithinDomain rootDomain asset.host

/-- The Python prober comes to this scheme: it asks under `http` if asking
under `https` raised an `HTTPError`. -/
def SchemeReached (net : Network) (host : Str) (scheme : String) : Prop :=
  scheme = "https" ∨ scheme = "http" ∧ net.invalidUrl (schemeUrl "https" host) = none ∧
    ∃ message, responseOrError (net.get (schemeUrl "https" host)).answer = .error message

/-- It comes to the scheme and asks under it. -/
def SchemeTried (net : Network) (host : Str) (scheme : String) : Prop :=
  net.invalidUrl (schemeUrl scheme host) = none ∧ SchemeReached net host scheme

/-- The probe of the host raises, which closes the client. -/
def ProbeRaises (net : Network) (host : Str) : Prop :=
  ∃ scheme, net.invalidUrl (schemeUrl scheme host) ≠ none ∧ SchemeReached net host scheme

/-- No URL that the probe of the host comes to, by the redirects served for
it, has a host outside the root domain. A probe that is overtaken comes as
far as it does before the client is closed. -/
def ProbedWithin (net : Network) (rootDomain host : Str) (overtaken : Prop) : Prop :=
  ∀ scheme, SchemeTried net host scheme → ∀ hop ≤ maxRedirects,
    (overtaken → hop < net.sentBeforeClose (schemeUrl scheme host)) →
    ∀ url, net.client.Leads (net.answers (schemeUrl scheme host)) (schemeUrl scheme host) hop url →
      WithinDomain rootDomain (hostOf url)

/-! ## The Python prober -/

/-- The hosts asked are those of the URLs that the redirects lead to. -/
theorem mem_asks_iff {net : Network} {start : Str} {overtaken : Bool} {action : ReconAction} :
    action ∈ net.asks start overtaken ↔ ∃ hop ≤ maxRedirects,
      (overtaken = true → hop < net.sentBeforeClose start) ∧
      ∃ url, net.client.Leads (net.answers start) start hop url ∧ action = .http (hostOf url) := by
  have hwire (hop : ℕ) (url : Str) : (∃ later, (net.get start).wire[hop]? = some later ∧
      later.url = url) ↔ hop ≤ maxRedirects ∧
        net.client.Leads (net.answers start) start hop url := exchange_wire_url_iff
  have htaken : action ∈ net.asks start overtaken ↔ ∃ hop later,
      (overtaken = true → hop < net.sentBeforeClose start) ∧
        (net.get start).wire[hop]? = some later ∧ action = .http (hostOf later.url) := by
    unfold Network.asks
    rw [List.mem_map]
    simp only [List.mem_iff_getElem?]
    cases overtaken with
    | true =>
      simp only [if_true, List.getElem?_take, forall_const]
      constructor
      · rintro ⟨later, ⟨hop, hlater⟩, rfl⟩
        split at hlater
        case isTrue hsent => exact ⟨hop, later, hsent, hlater, rfl⟩
        case isFalse => cases hlater
      · rintro ⟨hop, later, hsent, hlater, rfl⟩
        exact ⟨later, ⟨hop, by rw [if_pos hsent, hlater]⟩, rfl⟩
    | false =>
      simp only [Bool.false_eq_true, if_false, false_implies, true_and]
      constructor
      · rintro ⟨later, ⟨hop, hlater⟩, rfl⟩
        exact ⟨hop, later, hlater, rfl⟩
      · rintro ⟨hop, later, hlater, rfl⟩
        exact ⟨later, ⟨hop, hlater⟩, rfl⟩
  rw [htaken]
  constructor
  · rintro ⟨hop, later, hsent, hlater, rfl⟩
    obtain ⟨hhop, hleads⟩ := (hwire hop _).mp ⟨later, hlater, rfl⟩
    exact ⟨hop, hhop, hsent, later.url, hleads, rfl⟩
  · rintro ⟨hop, hhop, hsent, url, hleads, rfl⟩
    obtain ⟨later, hlater, rfl⟩ := (hwire hop url).mpr ⟨hhop, hleads⟩
    exact ⟨hop, later, hsent, hlater, rfl⟩

/-- The requests of a probe are those of the schemes it tries. -/
theorem mem_probeOneViaPython {net : Network} {host : Str} {overtaken : Bool}
    {action : ReconAction} :
    action ∈ (probeOneViaPython net host overtaken).1 ↔ ∃ scheme, SchemeTried net host scheme ∧
      action ∈ net.asks (schemeUrl scheme host) overtaken := by
  have hsplit : (∃ scheme, SchemeTried net host scheme ∧
      action ∈ net.asks (schemeUrl scheme host) overtaken) ↔
      (SchemeTried net host "https" ∧ action ∈ net.asks (schemeUrl "https" host) overtaken) ∨
      (SchemeTried net host "http" ∧ action ∈ net.asks (schemeUrl "http" host) overtaken) := by
    constructor
    · rintro ⟨scheme, htried, hmem⟩
      rcases htried.2 with rfl | ⟨rfl, -⟩
      · exact .inl ⟨htried, hmem⟩
      · exact .inr ⟨htried, hmem⟩
    · rintro (⟨htried, hmem⟩ | ⟨htried, hmem⟩)
      · exact ⟨_, htried, hmem⟩
      · exact ⟨_, htried, hmem⟩
  rw [hsplit]
  have hrun := probeOne_cases net host overtaken
  generalize probeOneViaPython net host overtaken = run at hrun ⊢
  unfold SchemeTried SchemeReached
  cases hrun with
  | httpsInvalid hhttps => simp [hhttps]
  | https hhttps hanswer => simp [hhttps, hanswer]
  | httpInvalid hhttps hfailed hhttp => simp [hhttps, hfailed, hhttp]
  | http hhttps hfailed hhttp hanswer | neither hhttps hfailed hhttp hanswer =>
    simp [hhttps, hfailed, hhttp]

/-- A probe comes back, or it raises. -/
theorem probeOne_returns_iff {net : Network} {host : Str} :
    (∃ probe, (probeOneViaPython net host).2 = .ok probe) ↔ ¬ ProbeRaises net host := by
  have hraises : ProbeRaises net host ↔ net.invalidUrl (schemeUrl "https" host) ≠ none ∨
      net.invalidUrl (schemeUrl "http" host) ≠ none ∧ SchemeReached net host "http" := by
    constructor
    · rintro ⟨scheme, hinvalid, hreached⟩
      rcases hreached with rfl | ⟨rfl, hfailed⟩
      · exact .inl hinvalid
      · exact .inr ⟨hinvalid, .inr ⟨rfl, hfailed⟩⟩
    · rintro (hinvalid | ⟨hinvalid, hreached⟩)
      · exact ⟨_, hinvalid, .inl rfl⟩
      · exact ⟨_, hinvalid, hreached⟩
  rw [hraises]
  have hrun := probeOne_cases net host false
  generalize probeOneViaPython net host false = run at hrun ⊢
  unfold SchemeReached
  cases hrun with
  | httpsInvalid hhttps => simp [hhttps]
  | https hhttps hanswer => simp [hhttps, hanswer]
  | httpInvalid hhttps hfailed hhttp => simp [hhttps, hfailed, hhttp]
  | http hhttps hfailed hhttp hanswer | neither hhttps hfailed hhttp hanswer =>
    simp [hhttps, hhttp]

/-- The probe of a host stays within the domain as its requests do. -/
theorem probeOne_within_iff {net : Network} {rootDomain host : Str} {overtaken : Bool} :
    (∀ action ∈ (probeOneViaPython net host overtaken).1, action.Within rootDomain) ↔
      ProbedWithin net rootDomain host (overtaken = true) := by
  constructor
  · intro h scheme htried hop hhop hsent url hleads
    exact h (.http (hostOf url)) (mem_probeOneViaPython.mpr ⟨scheme, htried,
      mem_asks_iff.mpr ⟨hop, hhop, hsent, url, hleads, rfl⟩⟩)
  · intro h action haction
    obtain ⟨scheme, htried, hmem⟩ := mem_probeOneViaPython.mp haction
    obtain ⟨hop, hhop, hsent, url, hleads, rfl⟩ := mem_asks_iff.mp hmem
    exact h scheme htried hop hhop hsent url hleads

/-- The probes of all hosts, each as far as it comes. -/
theorem probeViaPython_within_iff {net : Network} {rootDomain : Str} {hosts : List Str} :
    (∀ action ∈ (probeViaPython net hosts).1, action.Within rootDomain) ↔
      ∀ host ∈ hosts, ProbedWithin net rootDomain host (∃ other ∈ hosts, ProbeRaises net other) := by
  have hall (overtaken : Bool) : (∀ action ∈ hosts.flatMap fun host =>
      (probeOneViaPython net host overtaken).1, action.Within rootDomain) ↔
      ∀ host ∈ hosts, ProbedWithin net rootDomain host (overtaken = true) := by
    simp only [List.mem_flatMap, ← probeOne_within_iff]
    exact ⟨fun h host hhost action haction => h action ⟨host, hhost, haction⟩,
      fun h action ⟨host, hhost, haction⟩ => h host hhost action haction⟩
  have hreturns : (∃ probes, (hosts.mapM fun host => (probeOneViaPython net host).2) =
      .ok probes) ↔ ¬ ∃ other ∈ hosts, ProbeRaises net other := by
    rw [mapM_returns_iff]
    simp only [probeOne_returns_iff, not_exists, not_and]
  unfold probeViaPython
  cases hmade : hosts.mapM fun host => (probeOneViaPython net host).2 with
  | ok probes =>
    have hquiet := hreturns.mp ⟨probes, hmade⟩
    simp only [hquiet]
    exact (hall false).trans (by simp only [Bool.false_eq_true])
  | error e =>
    have hraised : ∃ other ∈ hosts, ProbeRaises net other := by
      by_contra hquiet
      obtain ⟨probes, hprobes⟩ := hreturns.mpr hquiet
      exact nomatch hmade.symm.trans hprobes
    simp only [hraised]
    exact (hall true).trans (by simp only)

variable [JsonReader]

/-- The probes of all hosts, by either prober. -/
theorem probeHosts_within_iff {machine : Machine} {net : Network} {rootDomain : Str}
    {hosts : List Str} {binaryAvailable : Bool}
    (hwithin : ∀ host ∈ hosts, WithinDomain rootDomain host) :
    (∀ action ∈ (probeHosts machine net hosts binaryAvailable).1, action.Within rootDomain) ↔
      (binaryAvailable = false → ∀ host ∈ hosts,
        ProbedWithin net rootDomain host (∃ other ∈ hosts, ProbeRaises net other)) := by
  unfold probeHosts
  cases hosts with
  | nil => simp
  | cons host rest =>
    cases binaryAvailable with
    | true =>
      simp only [List.isEmpty_cons, Bool.false_eq_true, if_false, if_true, probeViaBinary]
      refine ⟨fun _ h => absurd h (by decide), fun _ action haction => ?_⟩
      split at haction
      · obtain ⟨h, hh, rfl⟩ := List.mem_map.mp haction
        exact hwithin h hh
      · cases haction
    | false =>
      simp only [List.isEmpty_cons, Bool.false_eq_true, if_false, forall_const]
      exact probeViaPython_within_iff

/-! ## The phase -/

omit [PyRuntime] [JsonReader] in
theorem mem_resolvedHosts {net : Network} {candidates : List Str} {host : Str} :
    host ∈ (resolvedHosts net candidates).map Prod.fst ↔
      host ∈ candidates ∧ net.resolve host ≠ [] := by
  simp only [resolvedHosts, List.mem_map, List.mem_filterMap]
  constructor
  · rintro ⟨_, ⟨candidate, hcandidate, hsome⟩, rfl⟩
    split at hsome
    case isTrue => cases hsome
    case isFalse hresolves =>
      cases hsome
      exact ⟨hcandidate, by simpa using hresolves⟩
  · rintro ⟨hcandidate, hresolves⟩
    exact ⟨_, ⟨host, hcandidate, if_neg (by simpa using hresolves)⟩, rfl⟩

omit [PyRuntime] [JsonReader] in
/-- The assets of a result are candidates that resolve. -/
theorem mem_assets {env : Environment} {rootDomain : Str} {found : List Str}
    {probes : List HttpProbeResult} {result : ReconResult}
    (h : reconResult env rootDomain found probes = .ok result) {asset : DiscoveredAsset}
    (hasset : asset ∈ result.assets) : asset.host ∈ candidateHosts rootDomain found := by
  obtain ⟨keyed, -, hresult⟩ := bind_eq_ok.mp h
  cases hresult
  obtain ⟨hostIps, hhost, rfl⟩ := List.mem_map.mp hasset
  exact (mem_resolvedHosts.mp (List.mem_map_of_mem hhost)).1

/-- Every candidate's name is resolved. -/
theorem mem_runRecon_resolve {env : Environment} {rootDomain host : Str} {found : List Str}
    (hfound : foundHosts env rootDomain = .ok found)
    (hhost : host ∈ candidateHosts rootDomain found) :
    .resolve host ∈ (runRecon env rootDomain).1 := by
  simp [runRecon, hfound, hhost]

/-- The probe of a candidate that resolves raises. -/
def SomeProbeRaises (env : Environment) (candidates : List Str) : Prop :=
  ∃ host ∈ candidates, env.net.resolve host ≠ [] ∧ ProbeRaises env.net host

/-- **Exactly when recon stays within its domain**: no name that is left
after the cap leads out of it, and no redirect served to the Python prober. -/
theorem runRecon_staysWithin_iff (env : Environment) (rootDomain : Str) :
    StaysWithin rootDomain (runRecon env rootDomain) ↔
      ∀ found, foundHosts env rootDomain = .ok found →
        ∀ host ∈ candidateHosts rootDomain found, WithinDomain rootDomain host ∧
          (env.available "httpx" = false → env.net.resolve host ≠ [] →
            ProbedWithin env.net rootDomain host
              (SomeProbeRaises env (candidateHosts rootDomain found))) := by
  unfold runRecon StaysWithin
  cases hfound : foundHosts env rootDomain with
  | error e => simp [ReconAction.Within]
  | ok found =>
    have hresolved : ∀ host, host ∈ (resolvedHosts env.net
        (candidateHosts rootDomain found)).map Prod.fst ↔
        host ∈ candidateHosts rootDomain found ∧ env.net.resolve host ≠ [] :=
      fun host => mem_resolvedHosts
    have hraises : (∃ other ∈ (resolvedHosts env.net (candidateHosts rootDomain found)).map
        Prod.fst, ProbeRaises env.net other) ↔
        SomeProbeRaises env (candidateHosts rootDomain found) := by
      simp only [hresolved, and_assoc, SomeProbeRaises]
    have hprobes (hcandidates : ∀ host ∈ candidateHosts rootDomain found,
        WithinDomain rootDomain host) :
        (∀ action ∈ (probeHosts env.machine env.net ((resolvedHosts env.net
          (candidateHosts rootDomain found)).map Prod.fst) (env.available "httpx")).1,
          action.Within rootDomain) ↔
        (env.available "httpx" = false → ∀ host ∈ (resolvedHosts env.net
          (candidateHosts rootDomain found)).map Prod.fst, ProbedWithin env.net rootDomain host
            (SomeProbeRaises env (candidateHosts rootDomain found))) := by
      rw [← hraises]
      exact probeHosts_within_iff fun host hhost => hcandidates host ((hresolved host).mp hhost).1
    constructor
    · rintro ⟨hactions, -⟩ found' hok host hhost
      cases hok
      have hcandidates : ∀ host ∈ candidateHosts rootDomain found,
          WithinDomain rootDomain host := by
        intro host hhost
        exact hactions (.resolve host) (by simp [hhost])
      refine ⟨hcandidates host hhost, fun hpython hresolves => ?_⟩
      refine (hprobes hcandidates).mp ?_ hpython host ((hresolved host).mpr ⟨hhost, hresolves⟩)
      exact fun action haction => hactions action (List.mem_append_right _ haction)
    · intro h
      have hcandidates := fun host hhost => (h found rfl host hhost).1
      refine ⟨?_, ?_⟩
      · intro action haction
        rcases List.mem_append.mp haction with haction | haction
        · rcases List.mem_cons.mp haction with rfl | haction
          · trivial
          · obtain ⟨host, hhost, rfl⟩ := List.mem_map.mp haction
            exact hcandidates host hhost
        · refine (hprobes hcandidates).mpr (fun hpython host hhost => ?_) action haction
          obtain ⟨hcandidate, hresolves⟩ := (hresolved host).mp hhost
          exact (h found rfl host hcandidate).2 hpython hresolves
      · intro result hresult asset hasset
        obtain ⟨probes, -, hresult⟩ := bind_eq_ok.mp hresult
        exact hcandidates _ (mem_assets hresult hasset)

end

/-! ## Ways out -/

/-- A machine without tools. -/
def bareMachine : Machine := ⟨fun _ => false, fun _ _ _ => .timeout⟩

/-- A machine with subfinder, which prints one line. -/
def subfinderMachine (line : Str) : Machine where
  toolAvailable tool := tool == "subfinder".toList
  process _ args _ := .exited (if args = ["-version".toList] then [] else line) [] 0

/-- Every name resolves, and `https://acme.test/` redirects. -/
def redirectingNet : Network where
  resolve _ := ["192.0.2.1".toList]
  answers url hop := .response
    (if url = "https://acme.test/".toList ∧ hop = 0
      then { statusCode := 302, headers := [("location".toList, "https://evil.test/".toList)] }
      else { statusCode := 200 })
  redirectTarget _ location := location
  invalidUrl _ := none
  urlText url := url

def redirectingEnv : Environment := ⟨bareMachine, redirectingNet, "00".toList⟩

def evilLine : Str := "\x7b\"host\": \"www.evil.test\"\x7d".toList

/-- `json.loads` on that line. -/
@[reducible] def evilReader : JsonReader where
  loads line :=
    if line = evilLine then .ok (.obj [("host".toList, .str "www.evil.test".toList)])
    else .error .decodeError

def subfinderEnv : Environment := ⟨subfinderMachine evilLine, redirectingNet, "00".toList⟩

/-- Both ways out: the redirect is followed, and the name is resolved. -/
theorem recon_leaves_domain :
    let _ := PyRuntime.ascii
    let _ := evilReader
    ¬ StaysWithin "acme.test".toList (runRecon redirectingEnv "acme.test".toList) ∧
      ¬ StaysWithin "acme.test".toList (runRecon subfinderEnv "acme.test".toList) := by
  intro runtime reader
  have hevil : ¬ WithinDomain "acme.test".toList "evil.test".toList := by decide +kernel
  have hwww : ¬ WithinDomain "acme.test".toList "www.evil.test".toList := by decide +kernel
  constructor
  · intro h
    exact hevil (h.1 (.http "evil.test".toList) (by decide +kernel))
  · intro h
    have hfound : foundHosts subfinderEnv "acme.test".toList = .ok ["www.evil.test".toList] := by
      decide +kernel
    have hcandidate : "www.evil.test".toList ∈
        candidateHosts "acme.test".toList ["www.evil.test".toList] :=
      (mem_candidateHosts (by decide)).mpr (by simp)
    exact hwww (h.1 (.resolve "www.evil.test".toList) (mem_runRecon_resolve hfound hcandidate))

end Sentinel.Recon
