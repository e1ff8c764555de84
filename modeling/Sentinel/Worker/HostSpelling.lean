/-
Sentinel.Worker.HostSpelling — the host of a target, as the layers spell it.

The API keeps the root domain as it was typed. Recon files a probe under the
host of the URL the prober reports, the crawler compares the netloc of a
link with that of the root URL, and the merge looks for the asset row of the
host of a URL; browser and probers report hosts in lower case.
`hostAgreement_iff` says for which root domains all of them agree.
-/
import Sentinel.Crawler.CrawlerTheorems
import Sentinel.Recon.ProbePairing
import Sentinel.Worker.Substrate
import Sentinel.Worker.SurfaceMerge

namespace Sentinel.Worker

open Sentinel.Py Sentinel.Core Sentinel.Db Sentinel.Crawler Sentinel.Durable

/-! ## Lower case -/

section

variable [PyRuntime]

/-- What `str.lower` does to every text: a second time it does nothing, and
it makes no `/` and no `:`. -/
structure LowerLaws : Prop where
  lower_lower : ∀ s : Str, lower (lower s) = lower s
  delimiter : ∀ s : Str, ∀ c ∈ ['/', ':'], c ∈ lower s → c ∈ s

/-- The target whose root domain is spelled in lower case. -/
def lowered (target : Target) : Target := { target with rootDomain := lower target.rootDomain }

theorem lowered_eq_self {target : Target} (h : lower target.rootDomain = target.rootDomain) :
    lowered target = target := by
  cases target
  simp only [lowered] at h ⊢
  rw [h]

end

theorem toLower_of_not_ascii {c : Char} (h : isAsciiChar c = false) : c.toLower = c := by
  unfold Char.toLower
  rw [dif_neg]
  rintro ⟨-, hle⟩
  have hle : c.toNat ≤ 90 := hle
  simp only [isAsciiChar, decide_eq_false_iff_not] at h
  omega

/-- Lower case stays, and no delimiter comes out of another character. -/
theorem toLower_laws (c : Char) : c.toLower.toLower = c.toLower ∧
    (c.toLower ∈ ['/', ':'] → c.toLower = c) := by
  cases hascii : isAsciiChar c with
  | true =>
    exact ascii_forall (P := fun c => c.toLower.toLower = c.toLower ∧
      (c.toLower ∈ ['/', ':'] → c.toLower = c)) (by decide) hascii
  | false =>
    rw [toLower_of_not_ascii hascii]
    exact ⟨toLower_of_not_ascii hascii, fun _ => rfl⟩

theorem lowerLaws_ascii :
    let _ := PyRuntime.ascii
    LowerLaws := by
  intro runtime
  constructor
  · intro s
    show (s.map Char.toLower).map Char.toLower = s.map Char.toLower
    rw [List.map_map]
    exact List.map_congr_left fun c _ => (toLower_laws c).1
  · intro s c hc hmem
    obtain ⟨d, hd, rfl⟩ := List.mem_map.mp (hmem : c ∈ s.map Char.toLower)
    rwa [(toLower_laws d).2 hc]

/-! ## Agreement -/

/-- `effective_root_url`, which nothing overrides. -/
def effectiveRootUrl (target : Target) : Str :=
  "https://".toList ++ target.rootDomain ++ "/".toList

/-- The URL is one of the host: a scheme, the host, and then the end, a path
or a port. -/
def IsUrlOf (host url : Str) : Prop :=
  ∃ scheme ∈ ["http".toList, "https".toList], ∃ rest : Str,
    url = scheme ++ "://".toList ++ host ++ rest ∧ ∀ c ∈ rest.head?, c = '/' ∨ c = ':'

/-- The rows are those that recon adds. -/
structure ReconRows (result : Recon.ReconResult) (db : Snapshot) : Prop where
  assets : db.assets.map Asset.host = result.assets.map Recon.DiscoveredAsset.host
  endpoints : db.endpoints = []

/-- The layers agree on what the host of the target is. A link is to the
target's own host if it has the netloc of the root URL, port included. -/
structure HostAgreement [PyRuntime] [JsonReader] (target : Target) : Prop where
  /-- Every link to the host, in lower case, is kept. -/
  links : ∀ page links root,
    extractSameOriginLinks page (effectiveRootUrl target) = .ok links →
    urlsplit (effectiveRootUrl (lowered target)) = .ok root →
    ∀ anchor ∈ page.anchors.getD [], ∀ parts, urlsplit anchor.href = .ok parts →
      parts.scheme ∈ ["http".toList, "https".toList] → parts.netloc = root.netloc →
      (partition '#' anchor.href).1 ∈ links
  /-- Every probe of the host, in lower case, is one of the root asset. -/
  probes : ∀ env found probes result,
    Recon.foundHosts env target.rootDomain = .ok found →
    Recon.candidateProbes env target.rootDomain found = .ok probes →
    (Recon.runRecon env target.rootDomain).2 = .ok result →
    ∀ probe ∈ probes, ∀ url, probe.url = .str url → IsUrlOf (lower target.rootDomain) url →
      ∀ asset ∈ result.assets, asset.source = "root_domain".toList → probe ∈ asset.httpProbes
  /-- After recon and the merge of surfaces whose hosts are in lower case,
  no two asset rows are of one host. -/
  rows : ∀ env result db surfaces total db',
    (Recon.runRecon env target.rootDomain).2 = .ok result → ReconRows result db →
    (∀ e ∈ allEndpoints surfaces, lower (hostOf e) = hostOf e) →
    (surfaces.foldlM totalStep {}).Returns db total db' →
    (db'.assets.map fun asset => lower asset.host).Nodup
  /-- Recon makes the same of the same answers. -/
  sameAssets : ∀ env result result',
    Recon.foundHosts env target.rootDomain = Recon.foundHosts env (lower target.rootDomain) →
    (∀ found, Recon.candidateProbes env target.rootDomain found =
      Recon.candidateProbes env (lower target.rootDomain) found) →
    env.net.resolve target.rootDomain = env.net.resolve (lower target.rootDomain) →
    (Recon.runRecon env target.rootDomain).2 = .ok result →
    (Recon.runRecon env (lower target.rootDomain)).2 = .ok result' →
    result.assets.map (fun a => (lower a.host, a.ips, a.httpProbes)) =
      result'.assets.map (fun a => (lower a.host, a.ips, a.httpProbes))
  /-- So does the crawl. -/
  sameEndpoints : ∀ rules guard maxPages personaId surface surface' browser,
    (∀ n, browser n (effectiveRootUrl target) = browser n (effectiveRootUrl (lowered target))) →
    PersonaCrawler.crawl ⟨buildScopeGuard target rules, guard, maxPages⟩ browser
      (effectiveRootUrl target) personaId = .ok surface →
    PersonaCrawler.crawl ⟨buildScopeGuard (lowered target) rules, guard, maxPages⟩ browser
      (effectiveRootUrl (lowered target)) personaId = .ok surface' →
    surface.endpoints.map learned = surface'.endpoints.map learned

/-! ## The key of a probe -/

/-- **The key of a URL of a host is the host**, if it has no delimiter in it. -/
theorem urlKey_of_isUrlOf {host url : Str} (h : IsUrlOf host url) (hslash : '/' ∉ host)
    (hcolon : ':' ∉ host) : Recon.urlKey url = host := by
  obtain ⟨scheme, hscheme, rest, rfl, hrest⟩ := h
  rw [List.append_assoc, Recon.urlKey_of_scheme (by simpa [or_comm] using hscheme),
    Recon.takeWhile_ne_append hslash, Recon.takeWhile_ne_append hcolon]
  cases rest with
  | nil => simp
  | cons c rest =>
    rcases hrest c rfl with rfl | rfl
    · simp
    · simp

/-! ## A root domain in lower case -/

section

variable [PyRuntime] [JsonReader]

/-- A probe is one of the root asset exactly if its key is the root domain. -/
theorem root_asset_probes {env : Recon.Environment} {rootDomain : Str} {found : List Str}
    {probes : List Recon.HttpProbeResult} {result : Recon.ReconResult}
    (hfound : Recon.foundHosts env rootDomain = .ok found)
    (hprobes : Recon.candidateProbes env rootDomain found = .ok probes)
    (h : (Recon.runRecon env rootDomain).2 = .ok result) {probe : Recon.HttpProbeResult}
    (hprobe : probe ∈ probes) {url : Str} (hurl : probe.url = .str url)
    {asset : Recon.DiscoveredAsset} (hasset : asset ∈ result.assets)
    (hroot : asset.source = "root_domain".toList) :
    probe ∈ asset.httpProbes ↔ Recon.urlKey url = rootDomain := by
  obtain ⟨found', probes', keyed, hfound', hprobes', hkeyed, hassets⟩ := Recon.runRecon_ok h
  obtain rfl := Except.ok.inj (hfound.symm.trans hfound')
  obtain rfl := Except.ok.inj (hprobes.symm.trans hprobes')
  rw [hassets] at hasset
  obtain ⟨hostIps, -, rfl⟩ := List.mem_map.mp hasset
  have hhost : hostIps.1 = rootDomain := by
    by_contra hne
    simp only [Recon.assetOf, if_neg hne] at hroot
    revert hroot
    decide
  have hkey : Recon.probeKey probe = .ok (Recon.urlKey url, probe) := by
    simp only [Recon.probeKey, hurl]
  show probe ∈ Recon.probesFor keyed hostIps.1 ↔ _
  rw [Recon.mem_probesFor, hhost, mem_of_mapM hkeyed]
  constructor
  · rintro ⟨filed, -, hfiled⟩
    obtain rfl : probe = filed := Recon.probeKey_snd hfiled
    exact congrArg Prod.fst (Except.ok.inj (hkey.symm.trans hfiled))
  · rintro rfl
    exact ⟨probe, hprobe, hkey⟩

omit [JsonReader] in
/-- A host of the rows after the merge was there, or is one of the surfaces. -/
theorem host_of_storeAll {db : Snapshot} {endpoints : List DiscoveredEndpoint} {asset : Asset}
    (h : asset ∈ (storeAll db endpoints).assets) :
    asset ∈ db.assets ∨ ∃ e ∈ endpoints, asset.host = hostOf e := by
  induction endpoints generalizing db with
  | nil => exact .inl h
  | cons endpoint rest ih =>
    rcases ih h with hstored | ⟨e, he, hhost⟩
    · rw [Snapshot.store_assets] at hstored
      split at hstored
      · rcases List.mem_append.mp hstored with hold | hnew
        · exact .inl hold
        · obtain rfl := List.mem_singleton.mp hnew
          exact .inr ⟨endpoint, List.mem_cons_self, rfl⟩
      · exact .inl hstored
    · exact .inr ⟨e, List.mem_cons_of_mem endpoint he, hhost⟩

/-- Hosts in lower case that differ, differ in lower case. -/
theorem rows_nodup (hlaws : LowerLaws) {target : Target}
    (hlower : lower target.rootDomain = target.rootDomain) {env : Recon.Environment}
    {result : Recon.ReconResult} {db db' : Snapshot} {surfaces : List SurfaceMap}
    {total : MergeStats} (hresult : (Recon.runRecon env target.rootDomain).2 = .ok result)
    (hrows : ReconRows result db)
    (hreported : ∀ e ∈ allEndpoints surfaces, lower (hostOf e) = hostOf e)
    (hmerge : (surfaces.foldlM totalStep {}).Returns db total db') :
    (db'.assets.map fun asset => lower asset.host).Nodup := by
  have hconsistent : db.Consistent := by
    refine ⟨?_, ?_, ?_, ?_⟩
    · rw [hrows.assets]
      exact Recon.runRecon_hosts_nodup hresult
    · simp [hrows.endpoints]
    · simp [hrows.endpoints]
    · simp [hrows.endpoints]
  obtain ⟨total', hreturns, -⟩ :=
    mergeSurfaces_returns (parses_of_mergeSurfaces hmerge) hconsistent {}
  obtain ⟨-, rfl⟩ := hmerge.unique hreturns
  have hsame : ∀ asset ∈ (storeAll db (allEndpoints surfaces)).assets,
      lower asset.host = asset.host := by
    intro asset hasset
    rcases host_of_storeAll hasset with hold | ⟨e, he, hhost⟩
    · have hmem : asset.host ∈ result.assets.map Recon.DiscoveredAsset.host := by
        rw [← hrows.assets]
        exact List.mem_map_of_mem hold
      obtain ⟨found, hfound, hhost⟩ := List.mem_map.mp hmem
      rw [← hhost]
      rcases Recon.runRecon_host hresult hfound with hroot | ⟨hosts, hhosts, hmem⟩
      · rw [hroot, hlower]
      · obtain ⟨text, htext⟩ := Recon.foundHosts_lower hhosts hmem
        rw [htext, hlaws.lower_lower]
    · rw [hhost, hreported e he]
  have hnodup := (storeAll_consistent hconsistent (allEndpoints surfaces)).hosts
  rwa [← List.map_congr_left hsame] at hnodup

/-- **A lower-case host name is the same to all layers.** -/
theorem agreement_of_lower (hlaws : LowerLaws) {target : Target}
    (hlower : lower target.rootDomain = target.rootDomain) (hslash : '/' ∉ target.rootDomain)
    (hcolon : ':' ∉ target.rootDomain) : HostAgreement target := by
  have hself := lowered_eq_self hlower
  constructor
  case links =>
    intro page links root hlinks hroot anchor hanchor parts hparts hscheme hnetloc
    rw [hself] at hroot
    exact (mem_extractSameOriginLinks hlinks _).mpr
      ⟨anchor, hanchor, root, parts, hroot, hparts, hscheme, hnetloc, rfl⟩
  case probes =>
    intro env found probes result hfound hprobes h probe hprobe url hurl hof asset hasset hsource
    rw [hlower] at hof
    exact (root_asset_probes hfound hprobes h hprobe hurl hasset hsource).mpr
      (urlKey_of_isUrlOf hof hslash hcolon)
  case rows =>
    intro env result db surfaces total db' hresult hrows hreported hmerge
    exact rows_nodup hlaws hlower hresult hrows hreported hmerge
  case sameAssets =>
    intro env result result' _ _ _ hresult hresult'
    rw [hlower, hresult] at hresult'
    rw [Except.ok.inj hresult']
  case sameEndpoints =>
    intro rules guard maxPages personaId surface surface' browser _ hsurface hsurface'
    rw [hself, hsurface] at hsurface'
    rw [Except.ok.inj hsurface']

/-! ## Any other root domain -/

/-- Every name resolves, every request is answered, and the prober reports
this URL. -/
def reportingNet (url : Str) : Recon.Network where
  resolve _ := ["192.0.2.1".toList]
  answers _ _ := .response { statusCode := 200 }
  redirectTarget _ location := location
  invalidUrl _ := none
  urlText _ := url

def reportingEnv (url : Str) : Recon.Environment := ⟨Recon.bareMachine, reportingNet url, []⟩

/-- What the prober makes of the answer. -/
def reportedProbe (url : Str) : Recon.HttpProbeResult :=
  Recon.probeOfResponse url { statusCode := 200 }

omit [PyRuntime] [JsonReader] in
theorem resolvedHosts_reporting (url rootDomain : Str) :
    Recon.resolvedHosts (reportingEnv url).net (Recon.candidateHosts rootDomain []) =
      [(rootDomain, ["192.0.2.1".toList])] := by
  simp [Recon.candidateHosts, sortedSet, Recon.maxCandidateHosts, Recon.resolvedHosts,
    reportingEnv, reportingNet]

theorem candidateProbes_reporting (url rootDomain : Str) :
    Recon.candidateProbes (reportingEnv url) rootDomain [] = .ok [reportedProbe url] := by
  unfold Recon.candidateProbes
  rw [resolvedHosts_reporting]
  rfl

/-- Where the layers agree, the root domain is the key of its probes. -/
theorem urlKey_of_agreement {target : Target} (h : HostAgreement target) {url : Str}
    (hurl : IsUrlOf (lower target.rootDomain) url) : Recon.urlKey url = target.rootDomain := by
  have hfound : Recon.foundHosts (reportingEnv url) target.rootDomain = .ok [] := rfl
  have hprobes := candidateProbes_reporting url target.rootDomain
  have hkeyed : [reportedProbe url].mapM Recon.probeKey =
      .ok [(Recon.urlKey url, reportedProbe url)] := rfl
  obtain ⟨result, hresult, hassets⟩ := Recon.runRecon_of_ok hfound hprobes hkeyed
  rw [resolvedHosts_reporting] at hassets
  have hasset : Recon.assetOf target.rootDomain [(Recon.urlKey url, reportedProbe url)]
      (target.rootDomain, ["192.0.2.1".toList]) ∈ result.assets := by
    rw [hassets]
    exact List.mem_singleton.mpr rfl
  have hsource : (Recon.assetOf target.rootDomain [(Recon.urlKey url, reportedProbe url)]
      (target.rootDomain, ["192.0.2.1".toList])).source = "root_domain".toList := if_pos rfl
  have hprobe : reportedProbe url ∈ [reportedProbe url] := List.mem_singleton.mpr rfl
  have hattached := h.probes (reportingEnv url) [] _ result hfound hprobes hresult _ hprobe url rfl
    hurl _ hasset hsource
  exact (root_asset_probes hfound hprobes hresult hprobe rfl hasset hsource).mp hattached

/-- **When the layers agree on the host of a target**: when its root domain
is a host name in lower case. -/
theorem hostAgreement_iff (hlaws : LowerLaws) (target : Target) :
    HostAgreement target ↔ lower target.rootDomain = target.rootDomain ∧
      '/' ∉ target.rootDomain ∧ ':' ∉ target.rootDomain := by
  constructor
  · intro h
    have hurl : IsUrlOf (lower target.rootDomain)
        ("https".toList ++ "://".toList ++ lower target.rootDomain ++ []) :=
      ⟨"https".toList, by simp, [], rfl, by simp⟩
    have hkey := urlKey_of_agreement h hurl
    obtain ⟨hslash, hcolon⟩ : '/' ∉ target.rootDomain ∧ ':' ∉ target.rootDomain := by
      rw [← hkey]
      exact Recon.not_mem_urlKey _
    have hlowerSlash := fun hmem => hslash (hlaws.delimiter target.rootDomain '/' (by simp) hmem)
    have hlowerColon := fun hmem => hcolon (hlaws.delimiter target.rootDomain ':' (by simp) hmem)
    exact ⟨(urlKey_of_isUrlOf hurl hlowerSlash hlowerColon).symm.trans hkey, hslash, hcolon⟩
  · rintro ⟨hlower, hslash, hcolon⟩
    exact agreement_of_lower hlaws hlower hslash hcolon

end

/-- A target, with its root domain as it was typed. -/
def typedTarget (rootDomain : String) : Target := { id := "t".toList, rootDomain := rootDomain.toList }

theorem hostAgreement_acme :
    let _ := PyRuntime.ascii
    let _ := Recon.evilReader
    HostAgreement (typedTarget "acme.test") := by
  intro runtime reader
  exact (hostAgreement_iff lowerLaws_ascii _).mpr (by decide +kernel)

/-- A page with one link to the host, as the browser reports it. -/
def loginPage : Page where
  anchors := some [⟨"https://acme.test/login".toList, "Log in".toList⟩]
  forms := some []

/-- The crawl of `Acme.test` drops its own links. -/
theorem capital_not_agreement :
    let _ := PyRuntime.ascii
    let _ := Recon.evilReader
    ¬ HostAgreement (typedTarget "Acme.test") := by
  intro runtime reader h
  have hdropped : extractSameOriginLinks loginPage (effectiveRootUrl (typedTarget "Acme.test")) =
      .ok [] := by decide +kernel
  have hroot : urlsplit (effectiveRootUrl (lowered (typedTarget "Acme.test"))) =
      .ok ⟨"https".toList, "acme.test".toList, "/".toList, [], []⟩ := by decide +kernel
  have hparts : urlsplit "https://acme.test/login".toList =
      .ok ⟨"https".toList, "acme.test".toList, "/login".toList, [], []⟩ := by decide +kernel
  have hkept := h.links loginPage [] _ hdropped hroot
    ⟨"https://acme.test/login".toList, "Log in".toList⟩ (by simp [loginPage]) _ hparts (by decide) rfl
  cases hkept

end Sentinel.Worker
