/-
Sentinel.Crawler.Observations — what a crawl sees and what it records.

`observations` lists what an iteration sees: the page it visits, requests
the browser reports, forms, and links too suspect to follow. The last
requests come when the context is closed. `Records`
relates them to the recording, which keeps the first of each method and
path template. The host is not part of that key, so an endpoint is lost
exactly when it shares its method and template with one of another host.
-/
import Sentinel.Crawler.CrawlerTheorems

namespace Sentinel.Crawler

open Sentinel.Py Sentinel.Core

/-- A call of `_record_endpoint`. -/
structure Observation where
  method : Str
  url : Str
  source : DiscoverySource
  deriving DecidableEq, Repr

variable [PyRuntime]

/-- `normalize_path` of the path of the URL. -/
def urlTemplate (url : Str) : Option Str :=
  match urlsplit url with
  | .ok parts => some (normalizePath parts.pathOrRoot)
  | .error _ => none

/-! ## One recording -/

/-- The endpoint was recorded under the key of the observation. -/
def DiscoveredEndpoint.SharesKey (e : DiscoveredEndpoint) (o : Observation) : Prop :=
  e.method = upper o.method ∧ urlTemplate o.url = some e.pathTemplate

/-- The endpoint has the method, the host and the template of the
observation. -/
def DiscoveredEndpoint.Captures (e : DiscoveredEndpoint) (o : Observation) : Prop :=
  e.SharesKey o ∧ urlHost e.url = urlHost o.url

instance (o : Observation) : DecidablePred fun e : DiscoveredEndpoint => e.Captures o :=
  fun e => by
    unfold DiscoveredEndpoint.Captures DiscoveredEndpoint.SharesKey
    infer_instance

/-- `(method.upper(), template)`. -/
def DiscoveredEndpoint.key (e : DiscoveredEndpoint) : Str × Str := (e.method, e.pathTemplate)

/-- The recording holds one endpoint for each key that was observed. -/
structure Recording.Records (recording : Recording) (observed : List Observation) : Prop where
  seen : recording.seenTemplates = recording.surface.endpoints.map DiscoveredEndpoint.key
  nodup : (recording.surface.endpoints.map DiscoveredEndpoint.key).Nodup
  sound : ∀ e ∈ recording.surface.endpoints, ∃ o ∈ observed, e.url = o.url ∧ e.SharesKey o
  complete : ∀ o ∈ observed, ∃ e ∈ recording.surface.endpoints, e.SharesKey o

namespace Recording.Records

variable {recording recording' : Recording} {observed : List Observation}

theorem note (h : recording.Records observed) (text : Str) :
    (recording.note text).Records observed :=
  ⟨h.seen, h.nodup, h.sound, h.complete⟩

theorem recordEndpoint (h : recording.Records observed) {o : Observation}
    (hrecord : recording.recordEndpoint o.method o.url o.source = .ok recording') :
    recording'.Records (observed ++ [o]) := by
  unfold Recording.recordEndpoint at hrecord
  obtain ⟨parts, hparts, hrecord⟩ := bind_eq_ok.mp hrecord
  have htemplate : urlTemplate o.url = some (normalizePath parts.pathOrRoot) := by
    rw [urlTemplate, hparts]
  dsimp only at hrecord
  split at hrecord
  · next hseen =>
    obtain rfl := Except.ok.inj hrecord
    have hkey : ∃ e ∈ recording.surface.endpoints, e.SharesKey o := by
      rw [h.seen] at hseen
      obtain ⟨e, he, hkey⟩ := List.mem_map.mp hseen
      obtain ⟨hmethod, hpath⟩ := Prod.mk.inj hkey
      exact ⟨e, he, hmethod, htemplate.trans (congrArg some hpath.symm)⟩
    constructor
    case seen => exact h.seen
    case nodup => exact h.nodup
    case sound =>
      exact fun e he => (h.sound e he).imp fun o' ho' => ⟨List.mem_append_left _ ho'.1, ho'.2⟩
    case complete =>
      exact List.forall_mem_append.mpr ⟨h.complete, List.forall_mem_singleton.mpr hkey⟩
  · next hnew =>
    obtain rfl := Except.ok.inj hrecord
    rw [h.seen] at hnew
    constructor
    case seen => simp [h.seen, DiscoveredEndpoint.key]
    case nodup =>
      rw [List.map_append]
      refine h.nodup.append (List.nodup_singleton _) ?_
      exact List.disjoint_singleton.mpr hnew
    case sound =>
      intro e he
      rcases List.mem_append.mp he with hold | hlast
      · exact (h.sound e hold).imp fun o' ho' => ⟨List.mem_append_left _ ho'.1, ho'.2⟩
      · obtain rfl := List.mem_singleton.mp hlast
        exact ⟨o, List.mem_append_right _ (List.mem_singleton_self o), rfl, rfl, htemplate⟩
    case complete =>
      refine List.forall_mem_append.mpr ⟨fun o' ho' => ?_, List.forall_mem_singleton.mpr ?_⟩
      · obtain ⟨e, he, hkey⟩ := h.complete o' ho'
        exact ⟨e, List.mem_append_left _ he, hkey⟩
      · exact ⟨_, List.mem_append_right _ (List.mem_singleton_self _), rfl, htemplate⟩

/-- At most one endpoint has the key of an observation. -/
theorem eq_of_sharesKey (h : recording.Records observed) {e e' : DiscoveredEndpoint}
    (he : e ∈ recording.surface.endpoints) (he' : e' ∈ recording.surface.endpoints)
    {o : Observation} (hkey : e.SharesKey o) (hkey' : e'.SharesKey o) : e = e' := by
  refine List.inj_on_of_nodup_map h.nodup he he' ?_
  exact Prod.ext (hkey.1.trans hkey'.1.symm)
    (Option.some.inj (hkey.2.symm.trans hkey'.2))

end Recording.Records

/-! ## What an iteration sees -/

/-- The requests the handler of the browser's `request` events records. -/
def PersonaCrawler.networkObservations (c : PersonaCrawler) (requests : List NetworkRequest) :
    List Observation :=
  (requests.filter fun r => decide (r.resourceType ∈ interestingResourceTypes) &&
    c.scopeGuard.allows r.method r.url).map fun r => ⟨r.method, r.url, .network⟩

/-- The new links of a page that are too suspect to follow. -/
def PersonaCrawler.suspectLinks (c : PersonaCrawler) (visited queue links : List Str) :
    List Observation :=
  (links.filter fun link => decide (link ∉ visited) && decide (link ∉ queue) &&
    !c.destructiveGuard.clears "GET".toList link).map fun link => ⟨"GET".toList, link, .link⟩

/-- What the crawl sees on a page it takes in. -/
def PersonaCrawler.pageObservations (c : PersonaCrawler) (s : CrawlState) (url : Str)
    (visit : Visit) (page : Page) : List Observation :=
  match extractSameOriginLinks page s.recording.surface.rootUrl,
    extractForms page s.recording.surface.rootUrl with
  | .ok links, .ok forms =>
      [⟨"GET".toList, url, .link⟩] ++ c.networkObservations visit.duringLinks ++
        c.networkObservations visit.duringForms ++ forms.map (fun form => ⟨form.1, form.2, .form⟩) ++
        c.suspectLinks (s.visited ++ [url]) s.queue links
  | _, _ => []

/-- What the crawl sees behind the guards. -/
def PersonaCrawler.visitObservations (c : PersonaCrawler) (s : CrawlState) (url : Str)
    (visit : Visit) : List Observation :=
  c.networkObservations visit.duringAcquire ++ c.networkObservations visit.duringLoad ++
    match visit.outcome with
    | .error _ => []
    | .ok page => c.pageObservations s url visit page

/-- What the next iteration sees. -/
def PersonaCrawler.observations (c : PersonaCrawler) (browser : Browser) (s : CrawlState) :
    List Observation :=
  match s.queue with
  | [] => []
  | url :: rest =>
      if url ∉ s.visited ∧ c.Guarded url then
        c.visitObservations { s with queue := rest } url (browser s.gotos.length url)
      else []

/-- What the crawl sees when it closes the context. -/
def PersonaCrawler.closingObservations (c : PersonaCrawler) (browser : Browser)
    (rootUrl personaId : Str) : List Observation :=
  c.networkObservations ((c.crawlState browser rootUrl personaId).closing browser)

/-- What the crawl sees in any of its iterations and at its end. -/
def PersonaCrawler.Observed (c : PersonaCrawler) (browser : Browser) (rootUrl personaId : Str) :
    Set Observation :=
  {o | (∃ k, c.running (c.iterate browser k (.start rootUrl personaId)) = true ∧
      o ∈ c.observations browser (c.iterate browser k (.start rootUrl personaId))) ∨
    o ∈ c.closingObservations browser rootUrl personaId}

/-- A browser that reports nothing at the end. -/
theorem closingObservations_eq_nil (c : PersonaCrawler) {browser : Browser}
    (h : ∀ n url, (browser n url).duringClose = []) (rootUrl personaId : Str) :
    c.closingObservations browser rootUrl personaId = [] := by
  have hclosing (s : CrawlState) : s.closing browser = [] := by
    unfold CrawlState.closing
    split
    · exact h _ _
    · rfl
  unfold PersonaCrawler.closingObservations
  rw [hclosing]
  rfl

/-! ## What an iteration records

The lemmas are about any relation between a recording and the observations
it was made of that a note and a call of `_record_endpoint` keep. -/

/-- One more observation keeps the relation, and so does a note. -/
structure Registers (R : Recording → List Observation → Prop) : Prop where
  note : ∀ {recording observed} text, R recording observed → R (recording.note text) observed
  record : ∀ {recording recording' observed} {o : Observation}, R recording observed →
    recording.recordEndpoint o.method o.url o.source = .ok recording' →
    R recording' (observed ++ [o])

theorem records_registers : Registers Recording.Records where
  note text h := h.note text
  record h hrecord := h.recordEndpoint hrecord

variable {R : Recording → List Observation → Prop}

/-- A request is recorded when it is an XHR or a fetch in scope, and else
passed over. -/
theorem recordNetworkRequest_cases (c : PersonaCrawler) (recording : Recording)
    (request : NetworkRequest) :
    if request.resourceType ∈ interestingResourceTypes ∧
        c.scopeGuard.allows request.method request.url = true then
      recording.recordEndpoint request.method request.url .network =
        .ok (c.recordNetworkRequest recording request)
    else c.recordNetworkRequest recording request = recording := by
  unfold PersonaCrawler.recordNetworkRequest
  by_cases hkind : request.resourceType ∈ interestingResourceTypes
  · rw [if_neg (not_not.mpr hkind)]
    cases hevaluate : c.scopeGuard.evaluate request.method request.url with
    | error e => simp [ScopeGuard.allows, hevaluate]
    | ok decision =>
      dsimp only
      cases hallowed : decision.allowed with
      | false => simp [ScopeGuard.allows, hevaluate, hallowed]
      | true =>
        have hallows : c.scopeGuard.allows request.method request.url = true := by
          simp [ScopeGuard.allows, hevaluate, hallowed]
        obtain ⟨parts, hparts⟩ := parses_of_allows hallows
        obtain ⟨recorded, hrecord⟩ :=
          recordEndpoint_of_urlsplit recording request.method hparts .network
        rw [if_pos ⟨hkind, hallows⟩, hrecord]
        rfl
  · rw [if_pos hkind, if_neg fun h => hkind h.1]

theorem recordNetwork_records (hR : Registers R) (c : PersonaCrawler) {recording : Recording}
    {observed : List Observation} (h : R recording observed)
    (requests : List NetworkRequest) :
    R (c.recordNetwork recording requests) (observed ++ c.networkObservations requests) := by
  unfold PersonaCrawler.networkObservations
  induction requests generalizing recording observed with
  | nil => simpa [PersonaCrawler.recordNetwork] using h
  | cons request rest ih =>
    have hcases := recordNetworkRequest_cases c recording request
    split at hcases
    · next hrecorded =>
      have hstep := ih (hR.record (o := ⟨request.method, request.url, .network⟩) h hcases)
      rw [List.filter_cons_of_pos (by simpa using hrecorded), List.map_cons, List.append_cons]
      exact hstep
    · next hskipped =>
      have hstep := ih h
      rw [← hcases] at hstep
      rw [List.filter_cons_of_neg (by simpa using hskipped)]
      exact hstep

theorem recordForms_records (hR : Registers R) {forms : List (Str × Str)}
    {recording recording' : Recording} {observed : List Observation} (h : R recording observed)
    (hforms : recordForms recording forms = .ok recording') :
    R recording' (observed ++ forms.map fun form => ⟨form.1, form.2, .form⟩) := by
  induction forms generalizing recording observed with
  | nil =>
    obtain rfl := Except.ok.inj hforms
    simpa using h
  | cons form rest ih =>
    obtain ⟨recorded, hrecord, hrest⟩ := bind_eq_ok.mp hforms
    rw [List.map_cons, List.append_cons]
    exact ih (hR.record (o := ⟨form.1, form.2, .form⟩) h hrecord) hrest

/-- The loop over the links, if it raises nothing. -/
theorem followLinks_records (hR : Registers R) (c : PersonaCrawler) (links : List Str)
    {s : CrawlState} {observed : List Observation} (h : R s.recording observed)
    (hraised : (c.followLinks s links).raised = none) :
    R (c.followLinks s links).recording
      (observed ++ c.suspectLinks s.visited s.queue links) := by
  unfold PersonaCrawler.suspectLinks
  induction links generalizing s observed with
  | nil => simpa [PersonaCrawler.followLinks] using h
  | cons link rest ih =>
    unfold PersonaCrawler.followLinks at hraised ⊢
    split at hraised
    · next hnew =>
      rw [if_pos hnew]
      cases hcheck : c.destructiveGuard.check "GET".toList link with
      | error e =>
        rw [hcheck] at hraised
        exact nomatch hraised
      | ok check =>
        rw [hcheck] at hraised
        dsimp only at hraised ⊢
        have hclears : c.destructiveGuard.clears "GET".toList link = !check.isSuspect := by
          rw [DestructiveActionGuard.clears, hcheck]
        split at hraised
        · next hsuspect =>
          rw [if_pos hsuspect]
          cases hrecord : s.recording.recordEndpoint "GET".toList link .link with
          | error e =>
            rw [hrecord] at hraised
            exact nomatch hraised
          | ok recording =>
            rw [hrecord] at hraised
            rw [List.filter_cons_of_pos (by rw [hclears, hsuspect]; simpa using hnew), List.map_cons,
              List.append_cons]
            exact ih (s := { s with recording := recording })
              (hR.record (o := ⟨"GET".toList, link, .link⟩) h hrecord) hraised
        · next hclear =>
          have hcleared : c.destructiveGuard.clears "GET".toList link = true := by
            rw [hclears, Bool.eq_false_iff.mpr hclear]
            rfl
          -- the link that joins the queue is not among the suspect ones
          have hsame : (rest.filter fun l => decide (l ∉ s.visited) &&
              decide (l ∉ s.queue ++ [link]) && !c.destructiveGuard.clears "GET".toList l) =
              rest.filter fun l => decide (l ∉ s.visited) && decide (l ∉ s.queue) &&
                !c.destructiveGuard.clears "GET".toList l := by
            refine List.filter_congr fun l _ => ?_
            by_cases hl : l = link
            · rw [hl, hcleared, Bool.not_true, Bool.and_false, Bool.and_false]
            · simp [hl]
          rw [if_neg hclear, List.filter_cons_of_neg (by rw [hcleared]; simp), ← hsame]
          exact ih (s := { s with queue := s.queue ++ [link] }) h hraised
    · next hknown =>
      rw [if_neg hknown, List.filter_cons_of_neg (by simpa using fun hv hq => absurd ⟨hv, hq⟩ hknown)]
      exact ih h hraised

theorem absorbPage_records (hR : Registers R) (c : PersonaCrawler) {s : CrawlState} {url : Str}
    {visit : Visit} {page : Page} {observed : List Observation} (h : R s.recording observed)
    (hraised : (c.absorbPage s url visit page).raised = none) :
    R (c.absorbPage s url visit page).recording
      (observed ++ c.pageObservations s url visit page) := by
  unfold PersonaCrawler.absorbPage at hraised ⊢
  unfold PersonaCrawler.pageObservations
  dsimp only at hraised ⊢
  cases hrecord : s.recording.recordEndpoint "GET".toList url .link with
  | error e =>
    rw [hrecord] at hraised
    exact nomatch hraised
  | ok recorded =>
    rw [hrecord] at hraised
    have hvisited := hR.record (o := ⟨"GET".toList, url, .link⟩) h hrecord
    have hduringLinks := recordNetwork_records hR c hvisited visit.duringLinks
    have hhead := (recordNetwork_head c recorded visit.duringLinks).trans (recordEndpoint_head hrecord)
    dsimp only at hraised ⊢
    generalize c.recordNetwork recorded visit.duringLinks = first at hraised hduringLinks hhead ⊢
    have hroot : first.surface.rootUrl = s.recording.surface.rootUrl := congrArg Prod.fst hhead
    rw [hroot] at hraised ⊢
    cases hlinks : extractSameOriginLinks page s.recording.surface.rootUrl with
    | error e =>
      rw [hlinks] at hraised
      exact nomatch hraised
    | ok links =>
      rw [hlinks] at hraised
      have hduringForms := recordNetwork_records hR c hduringLinks visit.duringForms
      have hhead' := (recordNetwork_head c first visit.duringForms).trans hhead
      dsimp only at hraised ⊢
      generalize c.recordNetwork first visit.duringForms = second at hraised hduringForms hhead' ⊢
      have hroot' : second.surface.rootUrl = s.recording.surface.rootUrl := congrArg Prod.fst hhead'
      rw [hroot'] at hraised ⊢
      cases hforms : extractForms page s.recording.surface.rootUrl with
      | error e =>
        rw [hforms] at hraised
        exact nomatch hraised
      | ok forms =>
        rw [hforms] at hraised
        dsimp only at hraised ⊢
        cases hdone : recordForms second forms with
        | error e =>
          rw [hdone] at hraised
          exact nomatch hraised
        | ok third =>
          rw [hdone] at hraised
          have hthird := recordForms_records hR hduringForms hdone
          have hall := followLinks_records hR c links (s := { s with
            visited := s.visited ++ [url], recording := third }) hthird hraised
          simp only [List.append_assoc] at hall ⊢
          exact hall

theorem visitUrl_records (hR : Registers R) (c : PersonaCrawler) (browser : Browser)
    {s : CrawlState} {url : Str} {observed : List Observation} (h : R s.recording observed)
    (hraised : (c.visitUrl browser s url).raised = none) :
    R (c.visitUrl browser s url).recording
      (observed ++ c.visitObservations s url (browser s.gotos.length url)) := by
  unfold PersonaCrawler.visitUrl at hraised ⊢
  unfold PersonaCrawler.visitObservations
  have hbefore := recordNetwork_records hR c (recordNetwork_records hR c h
    (browser s.gotos.length url).duringAcquire) (browser s.gotos.length url).duringLoad
  dsimp only at hraised ⊢
  cases hload : (browser s.gotos.length url).outcome with
  | error msg =>
    simp only [List.append_nil, List.append_assoc] at hbefore ⊢
    exact hR.note _ hbefore
  | ok page =>
    rw [hload] at hraised
    have hhead : (c.recordNetwork (c.recordNetwork s.recording
        (browser s.gotos.length url).duringAcquire) (browser s.gotos.length url).duringLoad).head =
          s.recording.head := by
      rw [recordNetwork_head, recordNetwork_head]
    have hpage := absorbPage_records hR c (s := { s with
      recording := c.recordNetwork (c.recordNetwork s.recording
        (browser s.gotos.length url).duringAcquire) (browser s.gotos.length url).duringLoad
      gotos := s.gotos ++ [url :: (browser s.gotos.length url).chain]
      acquired := s.acquired + 1 }) hbefore hraised
    have hroot : (c.recordNetwork (c.recordNetwork s.recording
        (browser s.gotos.length url).duringAcquire)
          (browser s.gotos.length url).duringLoad).surface.rootUrl =
        s.recording.surface.rootUrl := congrArg Prod.fst hhead
    unfold PersonaCrawler.pageObservations at hpage ⊢
    simp only [hroot, List.append_assoc] at hpage ⊢
    exact hpage

/-- A URL that is skipped leaves at most a note. -/
theorem processUrl_skip_records (hR : Registers R) (c : PersonaCrawler) (browser : Browser)
    {s : CrawlState} {url : Str} {observed : List Observation} (h : R s.recording observed)
    (hskip : url ∈ s.visited ∨ ¬ c.Guarded url) :
    R (c.processUrl browser s url).recording observed := by
  unfold PersonaCrawler.processUrl
  by_cases hvisited : url ∈ s.visited
  · rw [if_pos hvisited]
    exact h
  · rw [if_neg hvisited]
    have hstop := hskip.resolve_left hvisited
    unfold PersonaCrawler.Guarded ScopeGuard.allows DestructiveActionGuard.clears at hstop
    cases hevaluate : c.scopeGuard.evaluate "GET".toList url with
    | error e => exact h
    | ok decision =>
      rw [hevaluate] at hstop
      dsimp only at hstop ⊢
      cases hallowed : decision.allowed with
      | false => exact hR.note _ h
      | true =>
        cases hcheck : c.destructiveGuard.check "GET".toList url with
        | error e => exact h
        | ok check =>
          rw [hcheck] at hstop
          dsimp only at hstop ⊢
          cases hsuspect : check.isSuspect with
          | true => exact hR.note _ h
          | false => exact absurd ⟨hallowed, by rw [hsuspect]; rfl⟩ hstop

theorem crawlStep_records (hR : Registers R) (c : PersonaCrawler) (browser : Browser) {s : CrawlState}
    {observed : List Observation} (h : R s.recording observed)
    (hraised : (c.crawlStep browser s).raised = none) :
    R (c.crawlStep browser s).recording (observed ++ c.observations browser s) := by
  unfold PersonaCrawler.crawlStep at hraised ⊢
  unfold PersonaCrawler.observations
  cases hqueue : s.queue with
  | nil => simpa using h
  | cons url rest =>
    rw [hqueue] at hraised
    dsimp only at hraised ⊢
    rcases processUrl_cases c browser { s with queue := rest } url with
      ⟨hnew, hguarded, hvisit⟩ | ⟨hskip, -, -⟩
    · rw [hvisit] at hraised ⊢
      rw [if_pos ⟨hnew, hguarded⟩]
      exact visitUrl_records hR c browser (s := { s with queue := rest }) h hraised
    · rw [if_neg fun hn => hskip.elim hn.1 fun hg => hg hn.2, List.append_nil]
      exact processUrl_skip_records hR c browser (s := { s with queue := rest }) h hskip

/-! ## The whole crawl -/

/-- What the first iterations see. -/
def PersonaCrawler.observedBefore (c : PersonaCrawler) (browser : Browser) (s : CrawlState)
    (n : Nat) : List Observation :=
  (List.range n).flatMap fun k =>
    if c.running (c.iterate browser k s) then c.observations browser (c.iterate browser k s) else []

theorem iterate_records (hR : Registers R) (c : PersonaCrawler) (browser : Browser) {s : CrawlState}
    (h : R s.recording []) (n : Nat) (hraised : (c.iterate browser n s).raised = none) :
    R (c.iterate browser n s).recording (c.observedBefore browser s n) := by
  induction n with
  | zero => exact h
  | succ n ih =>
    unfold PersonaCrawler.observedBefore at ih ⊢
    rw [List.range_succ, List.flatMap_append, List.flatMap_singleton]
    rw [iterate_succ] at hraised ⊢
    split at hraised
    · next hrunning =>
      rw [if_pos hrunning, if_pos hrunning]
      simp only [PersonaCrawler.running, Bool.and_eq_true, Option.isNone_iff_eq_none] at hrunning
      exact crawlStep_records hR c browser (ih hrunning.1.1) hraised
    · next hstopped =>
      rw [if_neg hstopped, if_neg hstopped, List.append_nil]
      exact ih hraised

/-- What a crawl sees whose loop has stopped after that many iterations. -/
def PersonaCrawler.observedAll (c : PersonaCrawler) (browser : Browser) (rootUrl personaId : Str)
    (n : Nat) : List Observation :=
  c.observedBefore browser (.start rootUrl personaId) n ++
    c.closingObservations browser rootUrl personaId

theorem mem_observedAll {c : PersonaCrawler} {browser : Browser} {rootUrl personaId : Str}
    {n : Nat} (hstop : c.running (c.iterate browser n (.start rootUrl personaId)) = false)
    (o : Observation) :
    o ∈ c.observedAll browser rootUrl personaId n ↔ o ∈ c.Observed browser rootUrl personaId := by
  refine List.mem_append.trans (or_congr_left ?_)
  simp only [PersonaCrawler.observedBefore, List.mem_flatMap, List.mem_range]
  constructor
  · rintro ⟨k, -, ho⟩
    split at ho
    · next hrunning => exact ⟨k, hrunning, ho⟩
    · exact absurd ho List.not_mem_nil
  · rintro ⟨k, hrunning, ho⟩
    have hbefore : k < n := by
      by_contra hge
      rw [iterate_of_stopped hstop (not_lt.mp hge), hstop] at hrunning
      exact Bool.false_ne_true hrunning
    exact ⟨k, hbefore, by rwa [if_pos hrunning]⟩

/-- A crawl that comes back has recorded what it saw, in the order it saw
it. -/
theorem crawl_registers (hR : Registers R) {c : PersonaCrawler} {browser : Browser}
    {rootUrl personaId : Str} (hstart : R (CrawlState.start rootUrl personaId).recording [])
    {surface : SurfaceMap} (h : c.crawl browser rootUrl personaId = .ok surface) :
    ∃ recording n, c.running (c.iterate browser n (.start rootUrl personaId)) = false ∧
      R recording (c.observedAll browser rootUrl personaId n) ∧
      recording.surface.endpoints = surface.endpoints := by
  unfold PersonaCrawler.crawl at h
  dsimp only at h
  cases hraised : (c.crawlState browser rootUrl personaId).raised with
  | some e =>
    rw [hraised] at h
    exact nomatch h
  | none =>
    rw [hraised] at h
    obtain rfl := Except.ok.inj h
    obtain ⟨n, hstop⟩ := crawlLoop_iterates c browser (.start rootUrl personaId)
    have hend : c.crawlState browser rootUrl personaId =
        c.iterate browser n (.start rootUrl personaId) := crawlLoop_eq_iterate hstop
    refine ⟨_, n, hstop, recordNetwork_records hR c ?_ _, rfl⟩
    rw [hend] at hraised ⊢
    exact iterate_records hR c browser hstart n hraised

theorem records_start (rootUrl personaId : Str) :
    (CrawlState.start rootUrl personaId).recording.Records [] :=
  ⟨rfl, List.nodup_nil, by simp [CrawlState.start], by simp⟩

/-- A crawl that comes back recorded what it saw. -/
theorem crawl_records {c : PersonaCrawler} {browser : Browser} {rootUrl personaId : Str}
    {surface : SurfaceMap} (h : c.crawl browser rootUrl personaId = .ok surface) :
    ∃ recording : Recording, ∃ observed : List Observation, recording.Records observed ∧
      recording.surface.endpoints = surface.endpoints ∧
      ∀ o, o ∈ observed ↔ o ∈ c.Observed browser rootUrl personaId := by
  obtain ⟨recording, n, hstop, hrecords, hendpoints⟩ :=
    crawl_registers records_registers (records_start rootUrl personaId) h
  exact ⟨recording, _, hrecords, hendpoints, mem_observedAll hstop⟩

/-- The URLs in the surface of a crawl parse. -/
theorem crawl_parses {c : PersonaCrawler} {browser : Browser} {rootUrl personaId : Str}
    {surface : SurfaceMap} (h : c.crawl browser rootUrl personaId = .ok surface) :
    ∀ e ∈ surface.endpoints, Parses e.url := by
  obtain ⟨recording, observed, hrecords, hendpoints, -⟩ := crawl_records h
  intro e he
  obtain ⟨o, -, hurl, -, htemplate⟩ := hrecords.sound e (hendpoints ▸ he)
  rw [hurl]
  unfold urlTemplate at htemplate
  cases hparts : urlsplit o.url with
  | ok parts => exact ⟨parts, hparts⟩
  | error e =>
    rw [hparts] at htemplate
    exact nomatch htemplate

/-- **Every observed endpoint is in the surface exactly once, if and only if
no two observations differ in the host alone**: those that agree in method
and path template must agree in the host. -/
theorem surface_captures_iff {c : PersonaCrawler} {browser : Browser} {rootUrl personaId : Str}
    {surface : SurfaceMap} (h : c.crawl browser rootUrl personaId = .ok surface) :
    (∀ o ∈ c.Observed browser rootUrl personaId,
        surface.endpoints.countP (fun e => e.Captures o) = 1) ↔
      ∀ o ∈ c.Observed browser rootUrl personaId, ∀ o' ∈ c.Observed browser rootUrl personaId,
        upper o.method = upper o'.method → urlTemplate o.url = urlTemplate o'.url →
          urlHost o.url = urlHost o'.url := by
  obtain ⟨recording, observed, hrecords, hendpoints, hmem⟩ := crawl_records h
  simp only [← hmem, ← hendpoints]
  constructor
  · intro hall o ho o' ho' hmethod htemplate
    obtain ⟨e, he, hcaptures⟩ := List.countP_pos_iff.mp ((hall o ho).symm ▸ Nat.one_pos)
    obtain ⟨e', he', hcaptures'⟩ := List.countP_pos_iff.mp ((hall o' ho').symm ▸ Nat.one_pos)
    obtain ⟨hkey, hhost⟩ := of_decide_eq_true hcaptures
    obtain ⟨hkey', hhost'⟩ := of_decide_eq_true hcaptures'
    have hshares : e'.SharesKey o :=
      ⟨hkey'.1.trans hmethod.symm, htemplate.trans hkey'.2⟩
    obtain rfl := hrecords.eq_of_sharesKey he he' hkey hshares
    exact hhost.symm.trans hhost'
  · intro hhosts o ho
    obtain ⟨e, he, hkey⟩ := hrecords.complete o ho
    obtain ⟨o', ho', hurl, hkey'⟩ := hrecords.sound e he
    have hhost : urlHost o.url = urlHost o'.url :=
      hhosts o ho o' ho' (hkey.1.symm.trans hkey'.1) (hkey.2.trans hkey'.2.symm)
    have hcaptures : e.Captures o := ⟨hkey, by rw [hurl, hhost]⟩
    have hnodup : recording.surface.endpoints.Nodup := List.Nodup.of_map _ hrecords.nodup
    have hsame : recording.surface.endpoints.countP (fun e => e.Captures o) =
        recording.surface.endpoints.count e := by
      refine List.countP_congr fun e' he' => ?_
      simp only [decide_eq_true_eq, beq_iff_eq]
      constructor
      · intro hc
        exact hrecords.eq_of_sharesKey he' he hc.1 hkey
      · rintro rfl
        exact hcaptures
    rw [hsame]
    exact List.count_eq_one_of_mem hnodup he

/-! ## Two hosts -/

/-- A crawler for two hosts of a verified target. -/
def twoHostCrawler : PersonaCrawler where
  scopeGuard := .init ["app.acme.test".toList, "api.acme.test".toList] [] true
  destructiveGuard := .default

/-- A browser whose pages fetch a user from a host and another from the
application itself. -/
def fetchingBrowser (host : String) : Browser := fun _ _ =>
  { chain := []
    outcome := .ok ⟨some [], some []⟩
    duringLoad := [⟨"fetch".toList, "GET".toList, ("https://" ++ host ++ "/users/1").toList⟩,
      ⟨"fetch".toList, "GET".toList, "https://app.acme.test/users/2".toList⟩] }

omit [PyRuntime] in
/-- With one host nothing is lost. -/
theorem fetchingBrowser_one_host :
    let _ := PyRuntime.ascii
    ∃ surface, twoHostCrawler.crawl (fetchingBrowser "app.acme.test")
        "https://app.acme.test/".toList "alice".toList = .ok surface ∧
      ∀ o ∈ twoHostCrawler.Observed (fetchingBrowser "app.acme.test")
          "https://app.acme.test/".toList "alice".toList,
        surface.endpoints.countP (fun e => e.Captures o) = 1 := by
  intro runtime
  have hstop : twoHostCrawler.running (twoHostCrawler.iterate (fetchingBrowser "app.acme.test") 1
      (.start "https://app.acme.test/".toList "alice".toList)) = false := by decide +kernel
  have hraised : (twoHostCrawler.crawlState (fetchingBrowser "app.acme.test")
      "https://app.acme.test/".toList "alice".toList).raised = none := by
    rw [PersonaCrawler.crawlState, crawlLoop_eq_iterate hstop]
    decide +kernel
  have hhost : ∀ o ∈ twoHostCrawler.Observed (fetchingBrowser "app.acme.test")
      "https://app.acme.test/".toList "alice".toList,
      urlHost o.url = some "app.acme.test".toList := by
    rintro o (⟨k, hrunning, ho⟩ | ho)
    case inr =>
      rw [closingObservations_eq_nil _ fun _ _ => rfl] at ho
      exact absurd ho List.not_mem_nil
    match k with
    | 0 =>
      have hall : ∀ o ∈ twoHostCrawler.observations (fetchingBrowser "app.acme.test")
        (.start "https://app.acme.test/".toList "alice".toList),
        urlHost o.url = some "app.acme.test".toList := by decide +kernel
      exact hall o ho
    | k + 1 =>
      rw [iterate_of_stopped hstop (Nat.le_add_left 1 k), hstop] at hrunning
      exact absurd hrunning Bool.false_ne_true
  exact ⟨_, crawl_eq_ok hraised, (surface_captures_iff (crawl_eq_ok hraised)).mpr
    fun o ho o' ho' _ _ => (hhost o ho).trans (hhost o' ho').symm⟩

omit [PyRuntime] in
/-- With two hosts the second user is lost. -/
theorem fetchingBrowser_two_hosts :
    let _ := PyRuntime.ascii
    ¬ ∀ surface, twoHostCrawler.crawl (fetchingBrowser "api.acme.test")
        "https://app.acme.test/".toList "alice".toList = .ok surface →
      ∀ o ∈ twoHostCrawler.Observed (fetchingBrowser "api.acme.test")
          "https://app.acme.test/".toList "alice".toList,
        surface.endpoints.countP (fun e => e.Captures o) = 1 := by
  intro runtime hall
  have hstop : twoHostCrawler.running (twoHostCrawler.iterate (fetchingBrowser "api.acme.test") 1
      (.start "https://app.acme.test/".toList "alice".toList)) = false := by decide +kernel
  have hend : twoHostCrawler.crawlState (fetchingBrowser "api.acme.test")
      "https://app.acme.test/".toList "alice".toList =
        twoHostCrawler.iterate (fetchingBrowser "api.acme.test") 1
          (.start "https://app.acme.test/".toList "alice".toList) := crawlLoop_eq_iterate hstop
  have hraised : (twoHostCrawler.crawlState (fetchingBrowser "api.acme.test")
      "https://app.acme.test/".toList "alice".toList).raised = none := by
    rw [hend]
    decide +kernel
  have hlost := hall _ (crawl_eq_ok hraised)
    ⟨"GET".toList, "https://app.acme.test/users/2".toList, .network⟩
    (.inl ⟨0, by decide +kernel, by decide +kernel⟩)
  rw [hend] at hlost
  revert hlost
  decide +kernel

end Sentinel.Crawler
