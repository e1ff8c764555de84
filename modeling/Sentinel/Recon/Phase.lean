/-
Sentinel.Recon.Phase — `sentinel_recon.phase`: `run_recon`, with what it
does to others and what it returns or raises.

The candidates are a set; they are taken in sorted order here. The order
does not show in the result, whose assets are sorted.
-/
import Sentinel.Py.Except
import Sentinel.Recon.HttpProbe

namespace Sentinel.Recon

open Sentinel.Py Sentinel.Core

/-- `MAX_CANDIDATE_HOSTS`. -/
def maxCandidateHosts : Nat := 50

/-- What recon runs in. `probeToken` is `secrets.token_hex(8)`. -/
structure Environment where
  machine : Machine
  net : Network
  probeToken : Str

def Environment.available (env : Environment) (tool : String) : Bool :=
  looksLikeProjectdiscoveryTool env.machine tool.toList

def Environment.toolAvailability (env : Environment) : List (Str × Bool) :=
  ["subfinder", "httpx", "tlsx"].map fun tool => (tool.toList, env.available tool)

/-! ## Notes -/

def wildcardNote (rootDomain : Str) : Str :=
  rootDomain ++ (" has wildcard DNS — any subdomain resolves, so subdomain " ++
    "discovery here is lower-confidence (docs/04 §F).").toList

def foundNote (count : Nat) : Str :=
  "subfinder found ".toList ++ ofInt count ++ " candidate subdomain(s).".toList

def noSubfinderNote : Str :=
  ("subfinder is not installed — subdomain discovery limited to the root domain " ++
    "itself (docs/adr/0002-build-vs-adopt-open-source.md).").toList

def cappedNote (count : Nat) : Str :=
  ofInt count ++ " candidate hosts found; capped to ".toList ++ ofInt maxCandidateHosts ++
    " for this scan (cost/time budget).".toList

def noTlsxNote : Str :=
  "tlsx is not installed — TLS/cipher grading (docs/03 §1) is skipped this scan.".toList

/-! ## Hosts -/

/-- `{root_domain}` with what was found, up to the cap. -/
def candidateHosts (rootDomain : Str) (found : List Str) : List Str :=
  let all := sortedSet (rootDomain :: found)
  if all.length > maxCandidateHosts then all.take maxCandidateHosts else all

/-- `resolved.items()`, sorted. -/
def resolvedHosts (net : Network) (candidates : List Str) : List (Str × List Str) :=
  candidates.filterMap fun host =>
    if (net.resolve host).isEmpty then none else some (host, net.resolve host)

theorem mem_sortedSet {host : Str} {hosts : List Str} : host ∈ sortedSet hosts ↔ host ∈ hosts := by
  rw [sortedSet, List.mem_mergeSort, List.mem_dedup]

/-- A candidate is the root domain or was found. -/
theorem of_mem_candidateHosts {rootDomain host : Str} {found : List Str}
    (h : host ∈ candidateHosts rootDomain found) : host = rootDomain ∨ host ∈ found := by
  simp only [candidateHosts] at h
  have hmem : host ∈ sortedSet (rootDomain :: found) := by
    split at h
    · exact List.mem_of_mem_take h
    · exact h
  exact List.mem_cons.mp (mem_sortedSet.mp hmem)

/-- Under the cap nothing is dropped. -/
theorem mem_candidateHosts {rootDomain host : Str} {found : List Str}
    (h : found.length < maxCandidateHosts) :
    host ∈ candidateHosts rootDomain found ↔ host = rootDomain ∨ host ∈ found := by
  have hlength : (sortedSet (rootDomain :: found)).length ≤ found.length + 1 := by
    rw [sortedSet, List.length_mergeSort]
    exact (List.dedup_sublist _).length_le
  simp only [candidateHosts]
  rw [if_neg (by omega), mem_sortedSet, List.mem_cons]

/-- No candidate is there twice. -/
theorem nodup_candidateHosts (rootDomain : Str) (found : List Str) :
    (candidateHosts rootDomain found).Nodup := by
  have hall : (sortedSet (rootDomain :: found)).Nodup :=
    (List.mergeSort_perm _ _).nodup_iff.mpr (List.nodup_dedup _)
  simp only [candidateHosts]
  split
  · exact hall.sublist (List.take_sublist _ _)
  · exact hall

theorem resolvedHosts_sublist (net : Network) (candidates : List Str) :
    ((resolvedHosts net candidates).map Prod.fst).Sublist candidates := by
  induction candidates with
  | nil => exact List.Sublist.refl _
  | cons host rest ih =>
    simp only [resolvedHosts, List.filterMap_cons]
    split
    · exact ih.cons _
    · rename_i r hr
      split at hr
      · cases hr
      · obtain rfl := Option.some.inj hr
        exact ih.cons_cons _

/-- What follows the first `//`, if there is one. -/
def afterDoubleSlash : Str → Option Str
  | [] => none
  | [_] => none
  | a :: b :: rest => if a = '/' ∧ b = '/' then some rest else afterDoubleSlash (b :: rest)

/-- `url.split("//", 1)[-1].split("/", 1)[0].split(":", 1)[0]`. -/
def urlKey (url : Str) : Str :=
  (((afterDoubleSlash url).getD url).takeWhile (· != '/')).takeWhile (· != ':')

/-- The key a probe is filed under; a `url` that is no string has no `split`. -/
def probeKey (probe : HttpProbeResult) : Except ReconError (Str × HttpProbeResult) :=
  match probe.url with
  | .str url => .ok (urlKey url, probe)
  | _ => .error .attributeError

example : urlKey "https://app.acme.test:8443/login//x".toList = "app.acme.test".toList := by
  decide +kernel

/-- `probes_by_host.get(host, [])`. -/
def probesFor (keyed : List (Str × HttpProbeResult)) (host : Str) : List HttpProbeResult :=
  (keyed.filter (·.1 == host)).map Prod.snd

section

variable [PyRuntime] [JsonReader]

/-- What subfinder finds, if it is there. -/
def foundHosts (env : Environment) (rootDomain : Str) : Except ReconError (List Str) :=
  if env.available "subfinder" then enumerateSubdomains env.machine rootDomain else .ok []

def wildcardProbeHost (env : Environment) (rootDomain : Str) : Str :=
  "sentinel-wildcard-probe-".toList ++ env.probeToken ++ ".".toList ++ rootDomain

/-- `detect_wildcard_dns`. -/
def detectWildcardDns (env : Environment) (rootDomain : Str) : Bool :=
  !(env.net.resolve (wildcardProbeHost env rootDomain)).isEmpty

def reconNotes (env : Environment) (rootDomain : Str) (found : List Str) : List Str :=
  let all := sortedSet (rootDomain :: found)
  (if detectWildcardDns env rootDomain then [wildcardNote rootDomain] else []) ++
    (if env.available "subfinder" then [foundNote found.length] else [noSubfinderNote]) ++
    (if all.length > maxCandidateHosts then [cappedNote all.length] else []) ++
    (if env.available "tlsx" then [] else [noTlsxNote])

/-- The result, once the probes are there. -/
def reconResult (env : Environment) (rootDomain : Str) (found : List Str)
    (probes : List HttpProbeResult) : Except ReconError ReconResult := do
  let keyed ← probes.mapM probeKey
  return {
    rootDomain := rootDomain
    assets := (resolvedHosts env.net (candidateHosts rootDomain found)).map fun hostIps => {
      host := hostIps.1
      source := if hostIps.1 = rootDomain then "root_domain".toList else "subfinder".toList
      ips := hostIps.2
      httpProbes := probesFor keyed hostIps.1 }
    toolAvailability := env.toolAvailability
    wildcardDnsSuspected := detectWildcardDns env rootDomain
    notes := reconNotes env rootDomain found }

/-- `run_recon`. -/
def runRecon (env : Environment) (rootDomain : Str) :
    List ReconAction × Except ReconError ReconResult :=
  let wildcard := ReconAction.resolveWildcardProbe (wildcardProbeHost env rootDomain)
  match foundHosts env rootDomain with
  | .error e => ([wildcard], .error e)
  | .ok found =>
      let candidates := candidateHosts rootDomain found
      let probes := probeHosts env.machine env.net
        ((resolvedHosts env.net candidates).map Prod.fst) (env.available "httpx")
      (wildcard :: candidates.map .resolve ++ probes.1, do
        reconResult env rootDomain found (← probes.2))

/-- The asset of a host, with the probes that were filed under it. -/
def assetOf (rootDomain : Str) (keyed : List (Str × HttpProbeResult)) (hostIps : Str × List Str) :
    DiscoveredAsset where
  host := hostIps.1
  source := if hostIps.1 = rootDomain then "root_domain".toList else "subfinder".toList
  ips := hostIps.2
  httpProbes := probesFor keyed hostIps.1

/-- The probes of the candidates that resolve. -/
def candidateProbes (env : Environment) (rootDomain : Str) (found : List Str) :
    Except ReconError (List HttpProbeResult) :=
  (probeHosts env.machine env.net
    ((resolvedHosts env.net (candidateHosts rootDomain found)).map Prod.fst)
    (env.available "httpx")).2

/-- **When recon comes back**, and with which assets. -/
theorem runRecon_ok {env : Environment} {rootDomain : Str} {result : ReconResult}
    (h : (runRecon env rootDomain).2 = .ok result) :
    ∃ found probes keyed, foundHosts env rootDomain = .ok found ∧
      candidateProbes env rootDomain found = .ok probes ∧ probes.mapM probeKey = .ok keyed ∧
      result.assets =
        (resolvedHosts env.net (candidateHosts rootDomain found)).map (assetOf rootDomain keyed) := by
  unfold runRecon at h
  cases hfound : foundHosts env rootDomain with
  | error e =>
    simp only [hfound] at h
    cases h
  | ok found =>
    simp only [hfound] at h
    obtain ⟨probes, hprobes, h⟩ := bind_eq_ok.mp h
    obtain ⟨keyed, hkeyed, h⟩ := bind_eq_ok.mp h
    obtain rfl := Except.ok.inj h
    exact ⟨found, probes, keyed, rfl, hprobes, hkeyed, rfl⟩

/-- Recon comes back once hosts, probes and keys are there. -/
theorem runRecon_of_ok {env : Environment} {rootDomain : Str} {found : List Str}
    {probes : List HttpProbeResult} {keyed : List (Str × HttpProbeResult)}
    (hfound : foundHosts env rootDomain = .ok found)
    (hprobes : candidateProbes env rootDomain found = .ok probes)
    (hkeyed : probes.mapM probeKey = .ok keyed) :
    ∃ result, (runRecon env rootDomain).2 = .ok result ∧ result.assets =
      (resolvedHosts env.net (candidateHosts rootDomain found)).map (assetOf rootDomain keyed) := by
  unfold candidateProbes at hprobes
  simp only [runRecon, hfound, hprobes]
  refine ⟨_, bind_eq_ok.mpr ⟨probes, rfl, bind_eq_ok.mpr ⟨keyed, hkeyed, rfl⟩⟩, rfl⟩

/-- **Recon returns one asset for each host.** -/
theorem runRecon_hosts_nodup {env : Environment} {rootDomain : Str} {result : ReconResult}
    (h : (runRecon env rootDomain).2 = .ok result) :
    (result.assets.map DiscoveredAsset.host).Nodup := by
  obtain ⟨found, probes, keyed, -, -, -, hassets⟩ := runRecon_ok h
  rw [hassets, List.map_map]
  exact (nodup_candidateHosts rootDomain found).sublist (resolvedHosts_sublist env.net _)

/-- The host of an asset is the root domain or was found. -/
theorem runRecon_host {env : Environment} {rootDomain : Str} {result : ReconResult}
    (h : (runRecon env rootDomain).2 = .ok result) {asset : DiscoveredAsset}
    (hasset : asset ∈ result.assets) :
    asset.host = rootDomain ∨
      ∃ found, foundHosts env rootDomain = .ok found ∧ asset.host ∈ found := by
  obtain ⟨found, probes, keyed, hfound, -, -, hassets⟩ := runRecon_ok h
  rw [hassets] at hasset
  obtain ⟨hostIps, hmem, rfl⟩ := List.mem_map.mp hasset
  have hcandidate : hostIps.1 ∈ candidateHosts rootDomain found :=
    (resolvedHosts_sublist env.net _).subset (List.mem_map_of_mem hmem)
  exact (of_mem_candidateHosts hcandidate).imp id fun h => ⟨found, hfound, h⟩

/-! ## Hosts in lower case -/

/-- What subfinder finds is put in lower case. -/
theorem foundHosts_lower {env : Environment} {rootDomain : Str} {found : List Str}
    (h : foundHosts env rootDomain = .ok found) {host : Str} (hhost : host ∈ found) :
    ∃ text, host = lower text := by
  unfold foundHosts at h
  split at h
  · unfold enumerateSubdomains at h
    dsimp only at h
    split at h
    · obtain ⟨hosts, hhosts, h⟩ := bind_eq_ok.mp h
      obtain rfl := Except.ok.inj h
      obtain ⟨line, hline, hsome⟩ := List.mem_filterMap.mp (mem_sortedSet.mp hhost)
      obtain ⟨text, -, htext⟩ := (mem_of_mapM hhosts line).mp hline
      obtain rfl : line = some host := hsome
      exact subfinderLine_lower htext
    · obtain rfl := Except.ok.inj h
      cases hhost
  · obtain rfl := Except.ok.inj h
    cases hhost

end

end Sentinel.Recon
