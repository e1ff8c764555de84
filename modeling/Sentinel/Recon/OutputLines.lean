/-
Sentinel.Recon.OutputLines — what a line of a tool's output can do to recon.

Both wrappers read their tool's output line by line and skip a line that is
no JSON. A line that is JSON is then used as an object, its host as a string
and, in `run_recon`, its URL as a string, and nothing looks whether they are.
One line of another shape ends the phase (`outputSurvived_iff`); the lines
of the right shape do not depend on one another.
-/
import Sentinel.Recon.Containment

namespace Sentinel.Recon

open Sentinel.Py Sentinel.Core

/-! ## The lines of a run -/

/-- The lines a wrapper reads: none where the run did not succeed. -/
def ToolRunResult.lines (result : ToolRunResult) : List Str :=
  if result.succeeded then splitlines result.stdout else []

/-- The lines subfinder prints about the domain. -/
def subfinderLines (machine : Machine) (rootDomain : Str) : List Str :=
  (runTool machine "subfinder".toList
    ["-d".toList, rootDomain, "-silent".toList, "-json".toList]).lines

/-- The lines httpx prints about the hosts. -/
def httpxLines (machine : Machine) (hosts : List Str) : List Str :=
  (runTool machine "httpx".toList
    ["-silent".toList, "-json".toList, "-title".toList, "-server".toList, "-tech-detect".toList]
    (some (join "\n".toList hosts))).lines

variable [JsonReader]

/-- The line is a JSON object. -/
def IsObject (line : Str) (items : List (Str × Json)) : Prop :=
  readLine line = .ok (some (.obj items))

/-- The line is blank, no JSON, or an object whose host is a string, or
missing or falsy. -/
def HostLineOk (line : Str) : Prop :=
  readLine line = .ok none ∨ ∃ items, IsObject line items ∧
    (((Json.lookup items "host".toList).getD .null).truthy = false ∨
      ∃ host, (Json.lookup items "host".toList).getD .null = .str host)

/-- The line is blank, no JSON, or an object whose URL is a string or
missing. -/
def UrlLineOk (line : Str) : Prop :=
  readLine line = .ok none ∨ ∃ items, IsObject line items ∧
    ∃ url, (Json.lookup items "url".toList).getD (.str []) = .str url

omit [JsonReader] in
theorem docItems_ok_iff {doc : Json} {items : List (Str × Json)} :
    docItems doc = .ok items ↔ doc = .obj items := by
  cases doc with
  | obj items' => simp [docItems]
  | _ => simp [docItems]

/-! ## One line -/

/-- The probe a document of the binary stands for. -/
def probeOfItems (items : List (Str × Json)) : HttpProbeResult :=
  let get (key : String) (default : Json) := (Json.lookup items key.toList).getD default
  { url := get "url" (.str [])
    statusCode := get "status_code" .null
    title := get "title" .null
    server := get "webserver" .null
    tech := if (get "tech" (.arr [])).truthy then get "tech" (.arr []) else .arr [] }

theorem probeLine_eq_ok_iff {line : Str} {probe? : Option HttpProbeResult} :
    probeLine line = .ok probe? ↔ readLine line = .ok none ∧ probe? = none ∨
      ∃ items, IsObject line items ∧ probe? = some (probeOfItems items) := by
  unfold probeLine IsObject
  rw [bind_eq_ok]
  constructor
  · rintro ⟨doc, hdoc, h⟩
    cases doc with
    | none => exact Or.inl ⟨hdoc, (Except.ok.inj h).symm⟩
    | some doc =>
      obtain ⟨probe, hprobe, hdone⟩ := bind_eq_ok.mp h
      obtain ⟨items, hitems, hmade⟩ := bind_eq_ok.mp hprobe
      obtain rfl := docItems_ok_iff.mp hitems
      obtain rfl := Except.ok.inj hmade
      exact Or.inr ⟨items, hdoc, (Except.ok.inj hdone).symm⟩
  · rintro (⟨hdoc, rfl⟩ | ⟨items, hdoc, rfl⟩)
    · exact ⟨none, hdoc, rfl⟩
    · exact ⟨some (.obj items), hdoc, rfl⟩

omit [JsonReader] in
theorem probeKey_returns_iff {probe : HttpProbeResult} :
    (∃ keyed, probeKey probe = .ok keyed) ↔ ∃ url, probe.url = .str url := by
  unfold probeKey
  cases probe.url with
  | str url => simp
  | _ => simp

variable [PyRuntime]

theorem subfinderLine_eq_ok_iff {line : Str} {host? : Option Str} :
    subfinderLine line = .ok host? ↔ readLine line = .ok none ∧ host? = none ∨
      ∃ items, IsObject line items ∧
        (((Json.lookup items "host".toList).getD .null).truthy = false ∧ host? = none ∨
          ∃ host, (Json.lookup items "host".toList).getD .null = .str host ∧ host ≠ [] ∧
            host? = some (lower host)) := by
  unfold subfinderLine IsObject
  rw [bind_eq_ok]
  constructor
  · rintro ⟨doc, hdoc, h⟩
    cases doc with
    | none => exact Or.inl ⟨hdoc, (Except.ok.inj h).symm⟩
    | some doc =>
      obtain ⟨items, hitems, hread⟩ := bind_eq_ok.mp (h : lineHost doc = _)
      obtain rfl := docItems_ok_iff.mp hitems
      refine Or.inr ⟨items, hdoc, ?_⟩
      dsimp only at hread
      split at hread
      · next htruthy =>
        split at hread
        · next host hhost =>
          refine Or.inr ⟨host, hhost, ?_, (Except.ok.inj hread).symm⟩
          rintro rfl
          rw [hhost] at htruthy
          exact absurd htruthy Bool.false_ne_true
        · cases hread
      · next hfalsy => exact Or.inl ⟨Bool.eq_false_iff.mpr hfalsy, (Except.ok.inj hread).symm⟩
  · rintro (⟨hdoc, rfl⟩ | ⟨items, hdoc, hhost⟩)
    · exact ⟨none, hdoc, rfl⟩
    · refine ⟨some (.obj items), hdoc, bind_eq_ok.mpr ⟨items, rfl, ?_⟩⟩
      dsimp only
      rcases hhost with ⟨hfalsy, rfl⟩ | ⟨host, hhost, hne, rfl⟩
      · rw [hfalsy]
        rfl
      · have htruthy : (Json.str host).truthy = true := by
          simpa [Json.truthy, List.isEmpty_eq_false_iff] using hne
        rw [hhost, if_pos htruthy]
        rfl

/-- Which lines subfinder's wrapper survives. -/
theorem subfinderLine_returns_iff {line : Str} :
    (∃ host?, subfinderLine line = .ok host?) ↔ HostLineOk line := by
  unfold HostLineOk
  constructor
  · rintro ⟨host?, h⟩
    rcases subfinderLine_eq_ok_iff.mp h with
      ⟨hnone, -⟩ | ⟨items, hitems, ⟨hfalsy, -⟩ | ⟨host, hhost, -, -⟩⟩
    · exact Or.inl hnone
    · exact Or.inr ⟨items, hitems, Or.inl hfalsy⟩
    · exact Or.inr ⟨items, hitems, Or.inr ⟨host, hhost⟩⟩
  · rintro (hnone | ⟨items, hitems, hfalsy | ⟨host, hhost⟩⟩)
    · exact ⟨none, subfinderLine_eq_ok_iff.mpr (Or.inl ⟨hnone, rfl⟩)⟩
    · exact ⟨none, subfinderLine_eq_ok_iff.mpr (Or.inr ⟨items, hitems, Or.inl ⟨hfalsy, rfl⟩⟩)⟩
    · cases host with
      | nil =>
        have hfalsy : ((Json.lookup items "host".toList).getD .null).truthy = false := by
          rw [hhost]
          rfl
        exact ⟨none, subfinderLine_eq_ok_iff.mpr (Or.inr ⟨items, hitems, Or.inl ⟨hfalsy, rfl⟩⟩)⟩
      | cons c host =>
        exact ⟨_, subfinderLine_eq_ok_iff.mpr
          (Or.inr ⟨items, hitems, Or.inr ⟨c :: host, hhost, List.cons_ne_nil c host, rfl⟩⟩)⟩

/-! ## All lines -/

/-- The wrapper reads its lines one by one. -/
theorem enumerateSubdomains_eq (machine : Machine) (rootDomain : Str) :
    enumerateSubdomains machine rootDomain = do
      let hosts ← (subfinderLines machine rootDomain).mapM subfinderLine
      return sortedSet (hosts.filterMap id) := by
  unfold enumerateSubdomains subfinderLines ToolRunResult.lines
  dsimp only
  split
  · rfl
  · simp [sortedSet, pure, Except.pure, bind, Except.bind]

omit [PyRuntime] in
theorem probeViaBinary_eq (machine : Machine) (hosts : List Str) :
    (probeViaBinary machine hosts).2 = do
      return (← (httpxLines machine hosts).mapM probeLine).filterMap id := by
  unfold probeViaBinary httpxLines ToolRunResult.lines
  dsimp only
  split <;> rfl

/-- **Tool output cannot crash recon**: the wrappers come back whatever the
tools print, with the host or the record of every well-formed line; the
records can be filed by host; and a phase with both tools comes back. -/
structure OutputSurvived (env : Environment) (rootDomain : Str) : Prop where
  found : ∃ found, enumerateSubdomains env.machine rootDomain = .ok found ∧
    ∀ line ∈ subfinderLines env.machine rootDomain, ∀ items, IsObject line items →
      ∀ host, Json.lookup items "host".toList = some (.str host) → host ≠ [] → lower host ∈ found
  probed : ∀ hosts, ∃ probes, (probeViaBinary env.machine hosts).2 = .ok probes ∧
    (∀ line ∈ httpxLines env.machine hosts, ∀ items, IsObject line items →
      probeOfItems items ∈ probes) ∧
    ∃ keyed, probes.mapM probeKey = .ok keyed
  recon : env.available "subfinder" = true → env.available "httpx" = true →
    ∃ result, (runRecon env rootDomain).2 = .ok result

theorem found_iff (machine : Machine) (rootDomain : Str) :
    (∃ found, enumerateSubdomains machine rootDomain = .ok found) ↔
      ∀ line ∈ subfinderLines machine rootDomain, HostLineOk line := by
  rw [enumerateSubdomains_eq]
  simp only [← subfinderLine_returns_iff, ← mapM_returns_iff]
  constructor
  · rintro ⟨found, h⟩
    obtain ⟨hosts, hhosts, -⟩ := bind_eq_ok.mp h
    exact ⟨hosts, hhosts⟩
  · rintro ⟨hosts, hhosts⟩
    exact ⟨_, bind_eq_ok.mpr ⟨hosts, hhosts, rfl⟩⟩

omit [PyRuntime] in
theorem probed_iff (machine : Machine) (hosts : List Str) :
    (∃ probes, (probeViaBinary machine hosts).2 = .ok probes ∧
        ∃ keyed, probes.mapM probeKey = .ok keyed) ↔
      ∀ line ∈ httpxLines machine hosts, UrlLineOk line := by
  rw [probeViaBinary_eq]
  constructor
  · rintro ⟨probes, h, hkeyed⟩ line hline
    obtain ⟨read, hread, h⟩ := bind_eq_ok.mp h
    obtain rfl := Except.ok.inj h
    obtain ⟨probe?, hprobe⟩ := mapM_returns_iff.mp ⟨read, hread⟩ line hline
    rcases probeLine_eq_ok_iff.mp hprobe with ⟨hnone, -⟩ | ⟨items, hitems, rfl⟩
    · exact Or.inl hnone
    · have hmem : probeOfItems items ∈ read.filterMap id :=
        List.mem_filterMap.mpr ⟨_, (mem_of_mapM hread _).mpr ⟨line, hline, hprobe⟩, rfl⟩
      exact Or.inr ⟨items, hitems, probeKey_returns_iff.mp (mapM_returns_iff.mp hkeyed _ hmem)⟩
  · intro hlines
    have hreturns : ∀ line ∈ httpxLines machine hosts, ∃ probe?, probeLine line = .ok probe? := by
      intro line hline
      rcases hlines line hline with hnone | ⟨items, hitems, -⟩
      · exact ⟨none, probeLine_eq_ok_iff.mpr (Or.inl ⟨hnone, rfl⟩)⟩
      · exact ⟨_, probeLine_eq_ok_iff.mpr (Or.inr ⟨items, hitems, rfl⟩)⟩
    obtain ⟨read, hread⟩ := mapM_ok hreturns
    refine ⟨_, bind_eq_ok.mpr ⟨read, hread, rfl⟩, mapM_ok fun probe hprobe => ?_⟩
    obtain ⟨probe?, hmem, hsome⟩ := List.mem_filterMap.mp hprobe
    obtain rfl : probe? = some probe := hsome
    obtain ⟨line, hline, hread'⟩ := (mem_of_mapM hread _).mp hmem
    rcases probeLine_eq_ok_iff.mp hread' with ⟨-, hnone⟩ | ⟨items, hitems, hsome⟩
    · exact nomatch hnone
    · obtain rfl := Option.some.inj hsome
      rcases hlines line hline with hnone | ⟨items', hitems', hurl⟩
      · exact nomatch hnone.symm.trans hitems
      · obtain rfl := Json.obj.inj (Option.some.inj (Except.ok.inj (hitems.symm.trans hitems')))
        exact probeKey_returns_iff.mpr hurl

/-- A phase with both tools comes back when their wrappers do. -/
theorem runRecon_returns {env : Environment} {rootDomain : Str}
    (hsubfinder : env.available "subfinder" = true) (hhttpx : env.available "httpx" = true)
    (hfound : ∃ found, enumerateSubdomains env.machine rootDomain = .ok found)
    (hprobed : ∀ hosts, ∃ probes, (probeViaBinary env.machine hosts).2 = .ok probes ∧
      ∃ keyed, probes.mapM probeKey = .ok keyed) :
    ∃ result, (runRecon env rootDomain).2 = .ok result := by
  obtain ⟨found, hfound⟩ := hfound
  have hhosts : foundHosts env rootDomain = .ok found := by
    rw [foundHosts, if_pos hsubfinder, hfound]
  have hprobes : ∃ probes, candidateProbes env rootDomain found = .ok probes ∧
      ∃ keyed, probes.mapM probeKey = .ok keyed := by
    unfold candidateProbes probeHosts
    rw [hhttpx]
    split
    · exact ⟨[], rfl, [], rfl⟩
    · exact hprobed _
  obtain ⟨probes, hprobes, keyed, hkeyed⟩ := hprobes
  obtain ⟨result, hresult, -⟩ := runRecon_of_ok hhosts hprobes hkeyed
  exact ⟨result, hresult⟩

/-- **Which output recon survives**: every line subfinder prints has a shape
its wrapper can use, and every line httpx prints has one that its wrapper
and the phase can use. -/
theorem outputSurvived_iff (env : Environment) (rootDomain : Str) :
    OutputSurvived env rootDomain ↔
      (∀ line ∈ subfinderLines env.machine rootDomain, HostLineOk line) ∧
        ∀ hosts, ∀ line ∈ httpxLines env.machine hosts, UrlLineOk line := by
  constructor
  · intro h
    obtain ⟨found, hfound, -⟩ := h.found
    refine ⟨(found_iff env.machine rootDomain).mp ⟨found, hfound⟩, fun hosts => ?_⟩
    obtain ⟨probes, hprobes, -, hkeyed⟩ := h.probed hosts
    exact (probed_iff env.machine hosts).mp ⟨probes, hprobes, hkeyed⟩
  · rintro ⟨hhosts, hurls⟩
    have hfound := (found_iff env.machine rootDomain).mpr hhosts
    have hprobed := fun hosts => (probed_iff env.machine hosts).mpr (hurls hosts)
    constructor
    case found =>
      obtain ⟨found, hfound⟩ := hfound
      refine ⟨found, hfound, fun line hline items hitems host hhost hne => ?_⟩
      rw [enumerateSubdomains_eq] at hfound
      obtain ⟨read, hread, hdone⟩ := bind_eq_ok.mp hfound
      obtain rfl := Except.ok.inj hdone
      have hmade : subfinderLine line = .ok (some (lower host)) :=
        subfinderLine_eq_ok_iff.mpr
          (Or.inr ⟨items, hitems, Or.inr ⟨host, by rw [hhost]; rfl, hne, rfl⟩⟩)
      exact mem_sortedSet.mpr
        (List.mem_filterMap.mpr ⟨_, (mem_of_mapM hread _).mpr ⟨line, hline, hmade⟩, rfl⟩)
    case probed =>
      intro hosts
      obtain ⟨probes, hprobes, hkeyed⟩ := hprobed hosts
      refine ⟨probes, hprobes, fun line hline items hitems => ?_, hkeyed⟩
      rw [probeViaBinary_eq] at hprobes
      obtain ⟨read, hread, hdone⟩ := bind_eq_ok.mp hprobes
      obtain rfl := Except.ok.inj hdone
      have hmade : probeLine line = .ok (some (probeOfItems items)) :=
        probeLine_eq_ok_iff.mpr (Or.inr ⟨items, hitems, rfl⟩)
      exact List.mem_filterMap.mpr ⟨_, (mem_of_mapM hread _).mpr ⟨line, hline, hmade⟩, rfl⟩
    case recon =>
      intro hsubfinder hhttpx
      exact runRecon_returns hsubfinder hhttpx hfound hprobed

/-- `json.loads` on a line that is `null`. -/
@[reducible] def nullReader : JsonReader where
  loads line := if line = "null".toList then .ok .null else .error .decodeError

omit [JsonReader] [PyRuntime] in
/-- Subfinder prints one line that is JSON and no object. -/
theorem null_line_raises :
    let _ := PyRuntime.ascii
    let _ := nullReader
    ¬ OutputSurvived ⟨subfinderMachine "null".toList, redirectingNet, "00".toList⟩
      "acme.test".toList := by
  intro runtime reader h
  obtain ⟨found, hfound, -⟩ := h.found
  have hraises : enumerateSubdomains (subfinderMachine "null".toList) "acme.test".toList =
      .error .attributeError := by decide +kernel
  exact nomatch hraises.symm.trans hfound

end Sentinel.Recon
