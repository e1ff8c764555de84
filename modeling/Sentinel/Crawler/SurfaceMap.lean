/-
Sentinel.Crawler.SurfaceMap — `sentinel_crawler.models` and
`sentinel_crawler.surface_mapper`: endpoints and their path templates.
-/
import Sentinel.Py.UrlSplit

namespace Sentinel.Crawler

open Sentinel.Py

inductive DiscoverySource where
  | link
  | form
  | network
  deriving DecidableEq, Repr

structure DiscoveredEndpoint where
  method : Str
  url : Str
  pathTemplate : Str
  source : DiscoverySource
  personaId : Str
  deriving DecidableEq, Repr

structure SurfaceMap where
  rootUrl : Str
  personaId : Str
  endpoints : List DiscoveredEndpoint := []
  pagesVisited : Nat := 0
  notes : List Str := []
  deriving DecidableEq, Repr

/-! ## Path templates -/

/-- `$` without `re.MULTILINE`: at the end, or before a final newline. -/
def matchesLine (p : Str → Bool) (s : Str) : Bool :=
  p s || (s.getLast? == some '\n' && p s.dropLast)

def isHexChar (c : Char) : Bool :=
  c.isDigit || ('a' ≤ c && c ≤ 'f') || ('A' ≤ c && c ≤ 'F')

/-- `_UUID_SEGMENT`: groups of 8, 4, 4, 4 and 12 hexadecimal digits. -/
def isUuid (s : Str) : Bool :=
  s.length == 36 && s.zipIdx.all fun (c, i) =>
    if i = 8 ∨ i = 13 ∨ i = 18 ∨ i = 23 then c == '-' else isHexChar c

/-- `_OPAQUE_TOKEN`. -/
def isOpaqueToken (s : Str) : Bool := 16 ≤ s.length && s.all isHexChar

variable [PyRuntime]

/-- `_NUMERIC_SEGMENT`. -/
def isNumeric (s : Str) : Bool := s != [] && s.all PyRuntime.isDecimal

/-- The segment matches one of the three identifier patterns. -/
def isIdentifier (segment : Str) : Bool :=
  matchesLine isNumeric segment || matchesLine isUuid segment || matchesLine isOpaqueToken segment

/-- `_normalize_segment`. -/
def normalizeSegment (segment : Str) : Str :=
  if isIdentifier segment then "{id}".toList else segment

/-- `normalize_path`. -/
def normalizePath (path : Str) : Str :=
  join "/".toList ((path.splitOn '/').map normalizeSegment)

/-- A number, a UUID and a plain word. -/
example :
    let _ := PyRuntime.ascii
    normalizePath "/users/42/files/0f8fad5b-d9cb-469f-a165-70867728950e/edit".toList =
      "/users/{id}/files/{id}/edit".toList := by decide +kernel

/-- The host an endpoint is stored under: `urlsplit(url).hostname or ""`. -/
def urlHost (url : Str) : Option Str :=
  match urlsplit url with
  | .ok parts => some (parts.hostname.getD [])
  | .error _ => none

/-! ## Recording endpoints -/

/-- What the crawl has recorded: the keys seen and the surface. -/
structure Recording where
  seenTemplates : List (Str × Str)
  surface : SurfaceMap
  deriving DecidableEq, Repr

/-- `_record_endpoint`. -/
def Recording.recordEndpoint (recording : Recording) (method url : Str) (source : DiscoverySource) :
    Except PyError Recording := do
  let parts ← urlsplit url
  let template := normalizePath parts.pathOrRoot
  let key := (upper method, template)
  if key ∈ recording.seenTemplates then return recording
  else
    return {
      seenTemplates := recording.seenTemplates ++ [key]
      surface := { recording.surface with
        endpoints := recording.surface.endpoints ++
          [⟨upper method, url, template, source, recording.surface.personaId⟩] } }

/-- Whose surface is recorded, and from which root. -/
def Recording.head (recording : Recording) : Str × Str :=
  (recording.surface.rootUrl, recording.surface.personaId)

/-- `surface.notes.append(...)`. -/
def Recording.note (recording : Recording) (text : Str) : Recording :=
  { recording with surface := { recording.surface with notes := recording.surface.notes ++ [text] } }

omit [PyRuntime] in
@[simp] theorem note_head (recording : Recording) (text : Str) :
    (recording.note text).head = recording.head := rfl

/-- The endpoint of a URL that parses is recorded. -/
theorem recordEndpoint_of_urlsplit (recording : Recording) (method : Str) {url : Str}
    {parts : SplitResult} (hparts : urlsplit url = .ok parts) (source : DiscoverySource) :
    ∃ recording', recording.recordEndpoint method url source = .ok recording' := by
  unfold Recording.recordEndpoint
  rw [hparts]
  dsimp only [bind, Except.bind]
  split <;> exact ⟨_, rfl⟩

theorem recordEndpoint_head {recording recording' : Recording} {method url : Str}
    {source : DiscoverySource}
    (h : recording.recordEndpoint method url source = .ok recording') :
    recording'.head = recording.head := by
  unfold Recording.recordEndpoint at h
  cases hparts : urlsplit url with
  | error e => simp [hparts, bind, Except.bind] at h
  | ok parts =>
    rw [hparts] at h
    dsimp only [bind, Except.bind] at h
    split at h <;> obtain rfl := Except.ok.inj h <;> rfl

end Sentinel.Crawler
