/-
Sentinel.Recon.ProbePairing — which asset a probe comes to.

Recon asks each host that resolves and gets the probes back as a list; it
finds the host of a probe again in the URL the probe reports. The Python
prober follows redirects and reports where it ended, so
`probesPaired_iff` asks that every host answers from a URL of its own.
-/
import Sentinel.Recon.Containment

namespace Sentinel.Recon

open Sentinel.Py Sentinel.Core

/-! ## The key of a probe -/

theorem afterDoubleSlash_append {before : Str} (h : '/' ∉ before) (rest : Str) :
    afterDoubleSlash (before ++ '/' :: '/' :: rest) = some rest := by
  induction before with
  | nil => rfl
  | cons c before ih =>
    obtain ⟨hc, hbefore⟩ := not_or.mp (List.mem_cons.not.mp h)
    have hne : c ≠ '/' := fun heq => hc heq.symm
    cases before with
    | nil => simp [afterDoubleSlash, hne]
    | cons d before =>
      have hrest := ih hbefore
      rw [List.cons_append] at hrest ⊢
      rw [List.cons_append, afterDoubleSlash, if_neg (fun hand => hne hand.1)]
      exact hrest

/-- A key has no delimiter in it. -/
theorem not_mem_urlKey (url : Str) : '/' ∉ urlKey url ∧ ':' ∉ urlKey url := by
  unfold urlKey
  generalize (afterDoubleSlash url).getD url = rest
  constructor
  · intro h
    have hslash := List.mem_takeWhile_imp ((List.takeWhile_prefix _).subset h)
    simp at hslash
  · intro h
    have hcolon := List.mem_takeWhile_imp h
    simp at hcolon

theorem takeWhile_ne_append {c : Char} {host : Str} (h : c ∉ host) (rest : Str) :
    (host ++ rest).takeWhile (· != c) = host ++ rest.takeWhile (· != c) := by
  refine List.takeWhile_append_of_pos fun d hd => ?_
  simp only [bne_iff_ne]
  rintro rfl
  exact h hd

/-- What follows the scheme of a URL, cut at its first delimiter. -/
theorem urlKey_of_scheme {scheme : Str} (hscheme : scheme ∈ ["http".toList, "https".toList])
    (rest : Str) : urlKey (scheme ++ "://".toList ++ rest) =
      (rest.takeWhile (· != '/')).takeWhile (· != ':') := by
  have hbefore : '/' ∉ scheme ++ [':'] := by
    simp only [List.mem_cons, List.not_mem_nil, or_false] at hscheme
    rcases hscheme with rfl | rfl <;> decide
  have happend : scheme ++ "://".toList ++ rest = (scheme ++ [':']) ++ '/' :: '/' :: rest := by
    simp
  rw [urlKey, happend, afterDoubleSlash_append hbefore, Option.getD_some]

/-- The URL that is asked for first has the host as its key, if the host has
no delimiter in it. -/
theorem urlKey_schemeUrl (host : Str) :
    urlKey (schemeUrl "http" host) = host ↔ '/' ∉ host ∧ ':' ∉ host := by
  constructor
  · intro h
    rw [← h]
    exact not_mem_urlKey _
  · rintro ⟨hslash, hcolon⟩
    have hurl : schemeUrl "http" host = "http".toList ++ "://".toList ++ (host ++ "/".toList) := by
      simp [schemeUrl]
    have hend : (['/'] : Str).takeWhile (· != '/') = [] := by decide
    rw [hurl, urlKey_of_scheme (by simp), takeWhile_ne_append hslash]
    show (host ++ (['/'] : Str).takeWhile (· != '/')).takeWhile (· != ':') = host
    rw [hend, takeWhile_ne_append hcolon]
    simp

theorem mem_probesFor {keyed : List (Str × HttpProbeResult)} {host : Str}
    {probe : HttpProbeResult} : probe ∈ probesFor keyed host ↔ (host, probe) ∈ keyed := by
  simp only [probesFor, List.mem_map, List.mem_filter, beq_iff_eq]
  constructor
  · rintro ⟨⟨key, p⟩, ⟨hmem, rfl⟩, rfl⟩
    exact hmem
  · exact fun hmem => ⟨_, ⟨hmem, rfl⟩, rfl⟩

/-- A probe keeps itself. -/
theorem probeKey_snd {probe : HttpProbeResult} {filed : Str × HttpProbeResult}
    (h : probeKey probe = .ok filed) : filed.2 = probe := by
  unfold probeKey at h
  split at h
  · rw [← Except.ok.inj h]
  · cases h

/-! ## What the Python prober reports -/

section

variable [PyRuntime]

/-- The URL of the response a host is reported with, redirects followed;
none if no scheme answers. -/
def answeredUrl (net : Network) (host : Str) : Option Str :=
  match responseOrError (net.get (schemeUrl "https" host)).answer with
  | .ok _ => some (net.urlText (net.get (schemeUrl "https" host)).finalUrl)
  | .error _ =>
      match responseOrError (net.get (schemeUrl "http" host)).answer with
      | .ok _ => some (net.urlText (net.get (schemeUrl "http" host)).finalUrl)
      | .error _ => none

/-- The host answers from a URL with its own name in it. One that does not
answer is reported under the URL it was asked for. -/
def AnswersAtHome (net : Network) (host : Str) : Prop :=
  match answeredUrl net host with
  | some url => urlKey url = host
  | none => '/' ∉ host ∧ ':' ∉ host

/-- The URL in the probe of a host. -/
def reportedUrl (net : Network) (host : Str) : Str :=
  (answeredUrl net host).getD (schemeUrl "http" host)

theorem answersAtHome_iff {net : Network} {host : Str} :
    AnswersAtHome net host ↔ urlKey (reportedUrl net host) = host := by
  unfold AnswersAtHome reportedUrl
  cases answeredUrl net host with
  | some url => rfl
  | none => exact (urlKey_schemeUrl host).symm

/-- A probe of a host that comes back is a probe, of the URL it reports. -/
theorem probeOneViaPython_ok {net : Network} {host : Str} {probe? : Option HttpProbeResult}
    (h : (probeOneViaPython net host).2 = .ok probe?) :
    ∃ probe, probe? = some probe ∧ probe.url = .str (reportedUrl net host) := by
  unfold reportedUrl answeredUrl
  have hrun := probeOne_cases net host false
  generalize probeOneViaPython net host false = run at hrun h
  cases hrun with
  | httpsInvalid | httpInvalid => cases h
  | https hhttps hanswer =>
    rw [hanswer]
    exact ⟨_, (Except.ok.inj h).symm, rfl⟩
  | http hhttps hfailed hhttp hanswer | neither hhttps hfailed hhttp hanswer =>
    simp only [hfailed, hanswer]
    exact ⟨_, (Except.ok.inj h).symm, rfl⟩

/-! ## Filing -/

/-- What the probe of a host is filed as. -/
structure FiledAs (net : Network) (host : Str) (filed : Str × HttpProbeResult) : Prop where
  key : filed.1 = urlKey (reportedUrl net host)
  url : filed.2.url = .str (reportedUrl net host)
  probe : (probeOneViaPython net host).2 = .ok (some filed.2)

/-- What is filed is the probe of one of the hosts. -/
theorem of_mem_keyed {net : Network} {hosts : List Str} {keyed : List (Str × HttpProbeResult)}
    (hkeyed : List.Forall₂ (FiledAs net) hosts keyed) {filed : Str × HttpProbeResult}
    (h : filed ∈ keyed) : ∃ host ∈ hosts, FiledAs net host filed := by
  induction hkeyed with
  | nil => cases h
  | @cons host first hosts keyed hfirst hrest ih =>
    rcases List.mem_cons.mp h with rfl | hmem
    · exact ⟨host, List.mem_cons_self, hfirst⟩
    · obtain ⟨host', hhost', hfiled⟩ := ih hmem
      exact ⟨host', List.mem_cons_of_mem host hhost', hfiled⟩

/-- At home, no probe comes to a host that is not among the probed. -/
theorem probesFor_of_not_mem {net : Network} {hosts : List Str}
    {keyed : List (Str × HttpProbeResult)} (hkeyed : List.Forall₂ (FiledAs net) hosts keyed)
    (hhome : ∀ host ∈ hosts, AnswersAtHome net host) {host : Str} (hhost : host ∉ hosts) :
    probesFor keyed host = [] := by
  rw [List.eq_nil_iff_forall_not_mem]
  intro probe hprobe
  obtain ⟨host', hhost', hfiled⟩ := of_mem_keyed hkeyed (mem_probesFor.mp hprobe)
  have hkey : host = host' := hfiled.key.trans (answersAtHome_iff.mp (hhome host' hhost'))
  exact hhost (hkey ▸ hhost')

/-- At home, a host that is probed once gets its own probe and no other. -/
theorem probesFor_of_mem {net : Network} {hosts : List Str}
    {keyed : List (Str × HttpProbeResult)} (hkeyed : List.Forall₂ (FiledAs net) hosts keyed)
    (hnodup : hosts.Nodup) (hhome : ∀ host ∈ hosts, AnswersAtHome net host) {host : Str}
    (hhost : host ∈ hosts) : ∃ probe, (probeOneViaPython net host).2 = .ok (some probe) ∧
      probesFor keyed host = [probe] := by
  induction hkeyed with
  | nil => cases hhost
  | @cons host' filed hosts keyed hfiled hrest ih =>
    obtain ⟨hfirst, hnodup⟩ := List.nodup_cons.mp hnodup
    have hkey : filed.1 = host' :=
      hfiled.key.trans (answersAtHome_iff.mp (hhome host' List.mem_cons_self))
    have hhome' : ∀ host ∈ hosts, AnswersAtHome net host :=
      fun host h => hhome host (List.mem_cons_of_mem host' h)
    rcases List.mem_cons.mp hhost with rfl | hmem
    · have hnone := probesFor_of_not_mem hrest hhome' hfirst
      refine ⟨filed.2, hfiled.probe, ?_⟩
      simpa [probesFor, hkey] using hnone
    · have hne : host' ≠ host := fun h => hfirst (h ▸ hmem)
      obtain ⟨probe, hprobe, hone⟩ := ih hnodup hhome' hmem
      refine ⟨probe, hprobe, ?_⟩
      simpa [probesFor, hkey, hne] using hone

/-- A host that gets its own probe answers at home. -/
theorem answersAtHome_of_mem {net : Network} {hosts : List Str}
    {keyed : List (Str × HttpProbeResult)} (hkeyed : List.Forall₂ (FiledAs net) hosts keyed)
    {host : Str} {probe : HttpProbeResult}
    (hprobe : (probeOneViaPython net host).2 = .ok (some probe))
    (hmem : probe ∈ probesFor keyed host) : AnswersAtHome net host := by
  obtain ⟨probe', heq, hurl⟩ := probeOneViaPython_ok hprobe
  obtain rfl := Option.some.inj heq
  obtain ⟨host', -, hfiled⟩ := of_mem_keyed hkeyed (mem_probesFor.mp hmem)
  -- the probe it got may have been made of another host, but its URL is the same
  have hsame : reportedUrl net host' = reportedUrl net host :=
    Json.str.inj (hfiled.url.symm.trans hurl)
  rw [answersAtHome_iff, ← hsame]
  exact hfiled.key.symm

/-! ## The phase -/

variable [JsonReader]

/-- Every asset carries the one probe that was made of its host. -/
def ProbesPaired (env : Environment) (result : ReconResult) : Prop :=
  ∀ asset ∈ result.assets, ∃ probe,
    (probeOneViaPython env.net asset.host).2 = .ok (some probe) ∧ asset.httpProbes = [probe]

omit [JsonReader] in
/-- The Python prober makes one probe of each host. -/
theorem probeViaPython_ok {net : Network} {hosts : List Str} {probes : List HttpProbeResult}
    (h : (probeViaPython net hosts).2 = .ok probes) :
    List.Forall₂ (fun host probe => (probeOneViaPython net host).2 = .ok (some probe))
      hosts probes := by
  unfold probeViaPython at h
  cases hmade : hosts.mapM fun host => (probeOneViaPython net host).2 with
  | error e =>
    rw [hmade] at h
    cases h
  | ok made =>
    rw [hmade] at h
    obtain rfl := Except.ok.inj h
    have hall := mapM_eq_ok.mp hmade
    clear hmade h
    induction hall with
    | nil => exact .nil
    | @cons host probe? hosts made hfirst hrest ih =>
      obtain ⟨probe, rfl, -⟩ := probeOneViaPython_ok hfirst
      exact .cons hfirst ih

/-- What recon files, where the binary is not there. -/
theorem filedAs_of_candidateProbes {env : Environment} {rootDomain : Str} {found : List Str}
    {probes : List HttpProbeResult} {keyed : List (Str × HttpProbeResult)}
    (hpython : env.available "httpx" = false)
    (hprobes : candidateProbes env rootDomain found = .ok probes)
    (hkeyed : probes.mapM probeKey = .ok keyed) :
    List.Forall₂ (FiledAs env.net)
      ((resolvedHosts env.net (candidateHosts rootDomain found)).map Prod.fst) keyed := by
  unfold candidateProbes probeHosts at hprobes
  generalize (resolvedHosts env.net (candidateHosts rootDomain found)).map Prod.fst = hosts
    at hprobes ⊢
  have hmade : List.Forall₂ (fun host probe =>
      (probeOneViaPython env.net host).2 = .ok (some probe)) hosts probes := by
    cases hosts with
    | nil =>
      obtain rfl := Except.ok.inj (hprobes : Except.ok [] = _)
      exact .nil
    | cons host rest =>
      rw [hpython] at hprobes
      exact probeViaPython_ok hprobes
  have hfiled := mapM_eq_ok.mp hkeyed
  clear hkeyed hprobes
  induction hmade generalizing keyed with
  | nil =>
    cases hfiled
    exact .nil
  | @cons host probe hosts probes hfirst hrest ih =>
    cases hfiled with
    | @cons _ filed _ keyed hkey hkeyed =>
      refine .cons ?_ (ih hkeyed)
      obtain ⟨probe', heq, hurl⟩ := probeOneViaPython_ok hfirst
      obtain rfl := Option.some.inj heq
      simp only [probeKey, hurl] at hkey
      obtain rfl := Except.ok.inj hkey
      exact ⟨rfl, hurl, hfirst⟩

/-- **When probes come to the hosts they were made of**: when every host
that resolves answers from a URL of its own. -/
theorem probesPaired_iff {env : Environment} {rootDomain : Str} {found : List Str}
    {result : ReconResult} (hpython : env.available "httpx" = false)
    (hfound : foundHosts env rootDomain = .ok found)
    (hresult : (runRecon env rootDomain).2 = .ok result) :
    ProbesPaired env result ↔ ∀ host ∈ candidateHosts rootDomain found,
      env.net.resolve host ≠ [] → AnswersAtHome env.net host := by
  obtain ⟨found', probes, keyed, hfound', hprobes, hkeyed, hassets⟩ := runRecon_ok hresult
  obtain rfl := Except.ok.inj (hfound.symm.trans hfound')
  have hfiled := filedAs_of_candidateProbes hpython hprobes hkeyed
  constructor
  · intro h host hhost hresolves
    obtain ⟨hostIps, hmem, rfl⟩ := List.mem_map.mp (mem_resolvedHosts.mpr ⟨hhost, hresolves⟩)
    have hasset : assetOf rootDomain keyed hostIps ∈ result.assets := by
      rw [hassets]
      exact List.mem_map_of_mem hmem
    obtain ⟨probe, hprobe, hone⟩ := h _ hasset
    have hown : probe ∈ (assetOf rootDomain keyed hostIps).httpProbes := by
      rw [hone]
      exact List.mem_singleton.mpr rfl
    exact answersAtHome_of_mem hfiled hprobe hown
  · intro h asset hasset
    rw [hassets] at hasset
    obtain ⟨hostIps, hmem, rfl⟩ := List.mem_map.mp hasset
    have hnodup := (nodup_candidateHosts rootDomain found).sublist
      (resolvedHosts_sublist env.net (candidateHosts rootDomain found))
    have hhome : ∀ host ∈ (resolvedHosts env.net (candidateHosts rootDomain found)).map Prod.fst,
        AnswersAtHome env.net host := by
      intro host hhost
      obtain ⟨hcandidate, hresolves⟩ := mem_resolvedHosts.mp hhost
      exact h host hcandidate hresolves
    exact probesFor_of_mem hfiled hnodup hhome (List.mem_map_of_mem hmem)

end

/-! ## A redirect -/

theorem resolvedHosts_redirecting (rootDomain : Str) :
    resolvedHosts redirectingNet (candidateHosts rootDomain []) =
      [(rootDomain, ["192.0.2.1".toList])] := by
  have hcandidates : candidateHosts rootDomain [] = [rootDomain] := by
    simp [candidateHosts, sortedSet, maxCandidateHosts]
  rw [hcandidates]
  rfl

/-- `quiet.test` does not redirect, and its asset carries its probe. -/
theorem quiet_probesPaired :
    let _ := PyRuntime.ascii
    let _ := evilReader
    ∃ result, (runRecon redirectingEnv "quiet.test".toList).2 = .ok result ∧
      ProbesPaired redirectingEnv result := by
  intro runtime reader
  have hprobes : candidateProbes redirectingEnv "quiet.test".toList [] =
      .ok [probeOfResponse "https://quiet.test/".toList { statusCode := 200 }] := by
    unfold candidateProbes
    rw [show redirectingEnv.net = redirectingNet from rfl, resolvedHosts_redirecting]
    rfl
  obtain ⟨result, hresult, -⟩ := runRecon_of_ok rfl hprobes rfl
  refine ⟨result, hresult, (probesPaired_iff rfl rfl hresult).mpr ?_⟩
  intro host hhost _
  have hroot : host = "quiet.test".toList := by
    simpa using of_mem_candidateHosts hhost
  subst hroot
  exact answersAtHome_iff.mpr (by decide +kernel)

/-- `https://acme.test/` redirects to another host, and the asset of
`acme.test` carries no probe at all. -/
theorem redirected_probe_lost :
    let _ := PyRuntime.ascii
    let _ := evilReader
    ∃ result, (runRecon redirectingEnv "acme.test".toList).2 = .ok result ∧
      ¬ ProbesPaired redirectingEnv result := by
  intro runtime reader
  have hprobes : candidateProbes redirectingEnv "acme.test".toList [] =
      .ok [probeOfResponse "https://evil.test/".toList { statusCode := 200 }] := by
    unfold candidateProbes
    rw [show redirectingEnv.net = redirectingNet from rfl, resolvedHosts_redirecting]
    rfl
  obtain ⟨result, hresult, hassets⟩ := runRecon_of_ok rfl hprobes rfl
  refine ⟨result, hresult, fun h => ?_⟩
  rw [show redirectingEnv.net = redirectingNet from rfl, resolvedHosts_redirecting] at hassets
  obtain ⟨probe, -, hone⟩ := h _ (by rw [hassets]; exact List.mem_singleton.mpr rfl)
  cases hone

end Sentinel.Recon
