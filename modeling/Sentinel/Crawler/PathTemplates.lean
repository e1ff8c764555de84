/-
Sentinel.Crawler.PathTemplates — what a path template stands for.

`normalize_path` writes `{id}` for every segment that one of the three
patterns takes for an identifier, whichever of them it is, and leaves the
others alone. `{id}` itself is none, so a template is its own template; and
two paths that do not spell it have one template exactly if they differ in
identifiers only (`normalizePath_eq_iff`). The crawl keys its endpoints by
template: what it merges are the endpoints of such paths
(`recordEndpoint_merges_iff`).
-/
import Sentinel.Crawler.SurfaceMap
import Sentinel.Delimited.Parts

namespace Sentinel.Crawler

open Sentinel.Py Sentinel.Delimited

/-- `path.split("/")`. -/
def segments (path : Str) : List Str := path.splitOn '/'

/-- No segment of the path spells the placeholder. -/
def PlaceholderFree (path : Str) : Prop := "{id}".toList ∉ segments path

variable [PyRuntime]

/-- The paths differ in identifiers only: as many segments, and at each
position the same one or two identifiers. -/
structure SameTemplate (path path' : Str) : Prop where
  length : (segments path).length = (segments path').length
  segment : ∀ (i : Nat) (segment segment' : Str), (segments path)[i]? = some segment →
    (segments path')[i]? = some segment' →
    segment = segment' ∨ isIdentifier segment = true ∧ isIdentifier segment' = true

/-! ## The placeholder -/

/-- The placeholder is no identifier. -/
theorem isIdentifier_placeholder : isIdentifier "{id}".toList = false := by
  have hbrace : PyRuntime.isDecimal '{' = false := by
    rw [PyRuntime.isDecimal_ascii '{' (by decide)]
    decide
  have hnumeric : isNumeric "{id}".toList = false := by
    show (true && (PyRuntime.isDecimal '{' && _)) = false
    rw [hbrace]
    rfl
  have huuid : matchesLine isUuid "{id}".toList = false := by decide
  have htoken : matchesLine isOpaqueToken "{id}".toList = false := by decide
  have hlast : ("{id}".toList.getLast? == some '\n') = false := by decide
  have hline : matchesLine isNumeric "{id}".toList = false := by
    rw [matchesLine, hnumeric, hlast]
    rfl
  rw [isIdentifier, hline, huuid, htoken]
  rfl

theorem normalizeSegment_eq_collapse :
    normalizeSegment = collapse isIdentifier "{id}".toList := rfl

/-- A segment stays one: no slash comes in. -/
theorem normalizeSegment_slash (segment : Str) (h : '/' ∉ segment) :
    '/' ∉ normalizeSegment segment := by
  cases hid : isIdentifier segment with
  | true =>
    rw [normalizeSegment, if_pos hid]
    decide
  | false =>
    rw [normalizeSegment, hid, if_neg Bool.false_ne_true]
    exact h

theorem normalizeSegment_idem (segment : Str) :
    normalizeSegment (normalizeSegment segment) = normalizeSegment segment := by
  rw [normalizeSegment_eq_collapse]
  exact collapse_idem isIdentifier_placeholder segment

/-! ## Templates -/

theorem normalizePath_eq_mapParts (path : Str) :
    normalizePath path = mapParts '/' normalizeSegment path := rfl

/-- The segments of a template. -/
theorem segments_normalizePath (path : Str) :
    segments (normalizePath path) = (segments path).map normalizeSegment :=
  splitOn_mapParts normalizeSegment_slash path

/-- **When two paths have one template.** -/
theorem normalizePath_eq_iff {path path' : Str} (hfree : PlaceholderFree path)
    (hfree' : PlaceholderFree path') :
    normalizePath path = normalizePath path' ↔ SameTemplate path path' := by
  have hsegment : ∀ segment ∈ segments path, ∀ segment' ∈ segments path',
      normalizeSegment segment = normalizeSegment segment' ↔
        segment = segment' ∨ isIdentifier segment = true ∧ isIdentifier segment' = true := by
    intro segment hmem segment' hmem'
    have hne : segment ≠ "{id}".toList := fun h => hfree (h ▸ hmem)
    have hne' : segment' ≠ "{id}".toList := fun h => hfree' (h ▸ hmem')
    exact collapse_eq_iff hne hne'
  have hparts : normalizePath path = normalizePath path' ↔
      (segments path).map normalizeSegment = (segments path').map normalizeSegment := by
    rw [normalizePath_eq_mapParts, normalizePath_eq_mapParts]
    exact mapParts_eq_iff normalizeSegment_slash
  rw [hparts]
  constructor
  · intro h
    have hlength := congrArg List.length h
    rw [List.length_map, List.length_map] at hlength
    refine ⟨hlength, fun i segment segment' hi hi' => ?_⟩
    have hat := congrArg (·[i]?) h
    simp only [List.getElem?_map, hi, hi', Option.map_some, Option.some.injEq] at hat
    exact (hsegment segment (List.mem_of_getElem? hi) segment' (List.mem_of_getElem? hi')).mp hat
  · intro h
    apply List.ext_getElem?
    intro i
    rw [List.getElem?_map, List.getElem?_map]
    by_cases hi : i < (segments path).length
    · have hi' : i < (segments path').length := h.length ▸ hi
      rw [List.getElem?_eq_getElem hi, List.getElem?_eq_getElem hi']
      have hsame := h.segment i _ _ (List.getElem?_eq_getElem hi) (List.getElem?_eq_getElem hi')
      have hmap := (hsegment _ (List.getElem_mem hi) _ (List.getElem_mem hi')).mpr hsame
      simp [hmap]
    · have hi' : ¬ i < (segments path').length := h.length ▸ hi
      rw [List.getElem?_eq_none (Nat.le_of_not_lt hi), List.getElem?_eq_none (Nat.le_of_not_lt hi')]

/-- **What a path template stands for.** Paths that do not spell the
placeholder have one template exactly if they differ in identifiers only;
a template has as many segments as the path, and is its own template. -/
theorem normalizePath_classes :
    (∀ path path' : Str, PlaceholderFree path → PlaceholderFree path' →
      (normalizePath path = normalizePath path' ↔ SameTemplate path path')) ∧
    (∀ path, (segments (normalizePath path)).length = (segments path).length) ∧
    ∀ path, normalizePath (normalizePath path) = normalizePath path := by
  refine ⟨fun path path' hfree hfree' => normalizePath_eq_iff hfree hfree', fun path => ?_,
    fun path => ?_⟩
  · rw [segments_normalizePath, List.length_map]
  · rw [normalizePath_eq_mapParts, normalizePath_eq_mapParts]
    exact mapParts_idem normalizeSegment_slash normalizeSegment_idem path

omit [PyRuntime] in
/-- A number and a session token fall together; two words do not. -/
theorem usersTemplate_classes :
    let _ := PyRuntime.ascii
    SameTemplate "/users/42/files".toList "/users/0123456789abcdef/files".toList ∧
      ¬ SameTemplate "/users/42/files".toList "/users/42/edit".toList := by
  intro runtime
  have hfiles : PlaceholderFree "/users/42/files".toList := by unfold PlaceholderFree; decide
  have htoken : PlaceholderFree "/users/0123456789abcdef/files".toList := by
    unfold PlaceholderFree
    decide
  have hedit : PlaceholderFree "/users/42/edit".toList := by unfold PlaceholderFree; decide
  have hdiff : normalizePath "/users/42/files".toList ≠ normalizePath "/users/42/edit".toList := by
    decide +kernel
  exact ⟨(normalizePath_classes.1 _ _ hfiles htoken).mp (by decide +kernel),
    fun h => hdiff ((normalizePath_classes.1 _ _ hfiles hedit).mpr h)⟩

/-! ## What the crawl merges -/

/-- Recording an endpoint changes nothing exactly if its key was seen. -/
theorem recordEndpoint_unchanged_iff {recording : Recording} {method url : Str}
    {parts : SplitResult} (hparts : urlsplit url = .ok parts) (source : DiscoverySource) :
    recording.recordEndpoint method url source = .ok recording ↔
      (upper method, normalizePath parts.pathOrRoot) ∈ recording.seenTemplates := by
  unfold Recording.recordEndpoint
  rw [hparts]
  dsimp only [bind, Except.bind]
  split
  · next hseen => exact iff_of_true rfl hseen
  · next hseen =>
    refine iff_of_false (fun h => ?_) hseen
    have htemplates := congrArg Recording.seenTemplates (Except.ok.inj h)
    simp at htemplates

/-- A recorded endpoint adds its key to those seen. -/
theorem mem_seenTemplates_record {recording recording' : Recording} {method url : Str}
    {parts : SplitResult} {source : DiscoverySource} (hparts : urlsplit url = .ok parts)
    (h : recording.recordEndpoint method url source = .ok recording') (key : Str × Str) :
    key ∈ recording'.seenTemplates ↔
      key ∈ recording.seenTemplates ∨ key = (upper method, normalizePath parts.pathOrRoot) := by
  unfold Recording.recordEndpoint at h
  rw [hparts] at h
  dsimp only [bind, Except.bind] at h
  split at h
  · next hseen =>
    obtain rfl := Except.ok.inj h
    constructor
    · exact .inl
    · rintro (hold | rfl)
      · exact hold
      · exact hseen
  · obtain rfl := Except.ok.inj h
    simp

/-- **What the crawl merges.** An endpoint that has not been seen before is
dropped behind another one exactly if the methods agree and the paths
differ in identifiers only. -/
theorem recordEndpoint_merges_iff {recording recording' : Recording}
    {method url method' url' : Str} {parts parts' : SplitResult} {source : DiscoverySource}
    (hparts : urlsplit url = .ok parts) (hparts' : urlsplit url' = .ok parts')
    (hrecorded : recording.recordEndpoint method url source = .ok recording')
    (hnew : (upper method', normalizePath parts'.pathOrRoot) ∉ recording.seenTemplates)
    (hfree : PlaceholderFree parts.pathOrRoot) (hfree' : PlaceholderFree parts'.pathOrRoot)
    (source' : DiscoverySource) :
    recording'.recordEndpoint method' url' source' = .ok recording' ↔
      upper method' = upper method ∧ SameTemplate parts'.pathOrRoot parts.pathOrRoot := by
  rw [recordEndpoint_unchanged_iff hparts', mem_seenTemplates_record hparts hrecorded,
    or_iff_right hnew, Prod.mk.injEq, normalizePath_eq_iff hfree' hfree]

end Sentinel.Crawler
