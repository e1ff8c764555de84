/-
Sentinel.Recon.Tooling — `sentinel_recon.tooling`, `.models`,
`.subfinder_wrapper` and `.resolver`: the tools recon runs and what it makes
of their output.

A tool is another program: which ones are installed and what they print is
an argument. Names resolve as the environment says, to no address where
`resolve` raises a `DNSException`.
-/
import Sentinel.Py.Json
import Sentinel.Py.Dict
import Sentinel.Py.Except

namespace Sentinel.Recon

open Sentinel.Py

/-! ## `tooling` -/

/-- What a started process does: it is killed at the timeout, or exits. -/
inductive ProcessOutcome where
  | timeout
  | exited (stdout stderr : Str) (returncode : Int)
  deriving DecidableEq, Repr

/-- The programs of the worker's machine. -/
structure Machine where
  /-- `shutil.which(binary_name) is not None`. -/
  toolAvailable : Str → Bool
  /-- A process with these arguments and this standard input. -/
  process : (binaryName : Str) → (args : List Str) → (stdin : Option Str) → ProcessOutcome

structure ToolRunResult where
  ran : Bool
  stdout : Str := []
  stderr : Str := []
  returncode : Option Int := none
  timedOut : Bool := false
  deriving DecidableEq, Repr

/-- `run_tool`. -/
def runTool (machine : Machine) (binaryName : Str) (args : List Str) (stdin : Option Str := none) :
    ToolRunResult :=
  if machine.toolAvailable binaryName then
    match machine.process binaryName args stdin with
    | .timeout => { ran := true, timedOut := true }
    | .exited stdout stderr returncode =>
        { ran := true, stdout := stdout, stderr := stderr, returncode := some returncode }
  else { ran := false }

/-- `looks_like_projectdiscovery_tool`. -/
def looksLikeProjectdiscoveryTool (machine : Machine) (binaryName : Str) : Bool :=
  if machine.toolAvailable binaryName then
    let result := runTool machine binaryName ["-version".toList]
    result.ran && !result.timedOut && result.returncode == some 0
  else false

/-- The check both wrappers make before they read the output. -/
def ToolRunResult.succeeded (result : ToolRunResult) : Bool :=
  !(!result.ran || result.timedOut || result.returncode != some 0)

/-! ## `models` -/

/-- The fields of a probe. The binary's values come out of its JSON as they
are; nothing checks their types. -/
structure HttpProbeResult where
  url : Json
  statusCode : Json
  title : Json
  server : Json
  tech : Json := .arr []
  error : Option Str := none

structure DiscoveredAsset where
  host : Str
  source : Str
  ips : List Str := []
  httpProbes : List HttpProbeResult := []

structure ReconResult where
  rootDomain : Str
  assets : List DiscoveredAsset
  toolAvailability : List (Str × Bool)
  wildcardDnsSuspected : Bool
  notes : List Str := []

/-- `ReconResult.degraded`. -/
def ReconResult.degraded (r : ReconResult) : Bool := !r.toolAvailability.all Prod.snd

/-- What recon may raise. -/
inductive ReconError where
  /-- A value is not of the type whose method or attribute is used. -/
  | attributeError
  /-- `json.loads` raises something else than `JSONDecodeError`. -/
  | jsonError (message : Str)
  /-- `httpx.InvalidURL`, which is no `HTTPError`. -/
  | invalidUrl (message : Str)
  deriving DecidableEq, Repr

/-! ## Lines of JSON -/

section

variable [JsonReader]

/-- One line of a tool's output: `none` for a blank line and for one that
is no JSON. -/
def readLine (line : Str) : Except ReconError (Option Json) :=
  let line := strip line
  if line.isEmpty then .ok none
  else
    match JsonReader.loads line with
    | .ok doc => .ok (some doc)
    | .error .decodeError => .ok none
    | .error (.otherError message) => .error (.jsonError message)

/-- `doc.get`, which only a dictionary has. -/
def docItems : Json → Except ReconError (List (Str × Json))
  | .obj items => .ok items
  | _ => .error .attributeError

/-! ## `subfinder_wrapper` -/

variable [PyRuntime]

/-- `host.lower()` of the field, if it is there and true. -/
def lineHost (doc : Json) : Except ReconError (Option Str) := do
  let items ← docItems doc
  let host := (Json.lookup items "host".toList).getD .null
  if host.truthy then
    match host with
    | .str host => return some (lower host)
    | _ => throw .attributeError
  else return none

/-- What one line adds to `hosts`. -/
def subfinderLine (line : Str) : Except ReconError (Option Str) := do
  match ← readLine line with
  | none => return none
  | some doc => lineHost doc

/-- A host that is added is in lower case. -/
theorem subfinderLine_lower {line host : Str} (h : subfinderLine line = .ok (some host)) :
    ∃ text, host = lower text := by
  obtain ⟨doc, -, h⟩ := bind_eq_ok.mp h
  cases doc with
  | none => cases h
  | some doc =>
    obtain ⟨items, -, h⟩ := bind_eq_ok.mp (h : lineHost doc = _)
    dsimp only at h
    split at h
    · split at h
      · next text _ =>
        obtain rfl := Option.some.inj (Except.ok.inj h)
        exact ⟨text, rfl⟩
      · cases h
    · cases h

/-- `enumerate_subdomains`. -/
def enumerateSubdomains (machine : Machine) (rootDomain : Str) : Except ReconError (List Str) := do
  let result := runTool machine "subfinder".toList
    ["-d".toList, rootDomain, "-silent".toList, "-json".toList]
  if result.succeeded then
    let hosts ← (splitlines result.stdout).mapM subfinderLine
    return sortedSet (hosts.filterMap id)
  else return []

end

end Sentinel.Recon
