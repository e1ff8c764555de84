/-
Sentinel.Crawler.Crawler — `sentinel_crawler.crawler.PersonaCrawler`.

The browser is third-party code: what it does with the n-th `page.goto`
is an argument (`Browser`), with the documents it requests on the way,
the other requests it reports and the page it ends on. A static site is
one browser behaviour (`Site.browse`). The crawl is a step function on
explicit state, iterated while the source's loop condition holds; an
exception that ends it is part of the state.
-/
import Sentinel.Crawler.SurfaceMap
import Sentinel.Core.ScopeGuardTheorems
import Sentinel.Core.Destructive
import Sentinel.Py.Except
import Mathlib.Data.Prod.Lex

namespace Sentinel.Crawler

open Sentinel.Py Sentinel.Core

/-! ## What the browser reports -/

/-- An `a[href]` element: `e.href` and its visible text. -/
structure Anchor where
  href : Str
  text : Str
  deriving DecidableEq, Repr

/-- A `form` element: `e.action` and the upper-cased method. -/
structure RawForm where
  action : Str
  method : Str
  deriving DecidableEq, Repr

/-- A Playwright `Request` as the handler sees it. -/
structure NetworkRequest where
  resourceType : Str
  method : Str
  url : Str
  deriving DecidableEq, Repr

/-- A loaded page. `none` is a selector evaluation that raises. -/
structure Page where
  anchors : Option (List Anchor)
  forms : Option (List RawForm)
  deriving DecidableEq, Repr

/-- One `page.goto`: the documents the browser requested by itself behind
the given URL, what it ended in, and the requests it reported while the
limiter was awaited, during the load, during the two extractions and, if it
was the last one, while the context was closed. -/
structure Visit where
  chain : List Str
  outcome : Except Str Page
  duringAcquire : List NetworkRequest := []
  duringLoad : List NetworkRequest := []
  duringLinks : List NetworkRequest := []
  duringForms : List NetworkRequest := []
  duringClose : List NetworkRequest := []

/-- What the browser does with the n-th `page.goto` of a URL. -/
abbrev Browser := Nat → Str → Visit

/-- A static site: redirects and pages by URL. -/
structure Site where
  redirect : Str → Option Str
  page : Str → Except Str Page

/-- The documents requested behind a URL, following at most `fuel`
redirects, and the page at the end. -/
def Site.follow (site : Site) : Nat → Str → List Str × Except Str Page
  | fuel, url =>
      match site.redirect url, fuel with
      | none, _ => ([], site.page url)
      | some _, 0 => ([], .error "net::ERR_TOO_MANY_REDIRECTS".toList)
      | some next, fuel + 1 =>
          let (chain, outcome) := site.follow fuel next
          (next :: chain, outcome)

/-- A browser on a static site follows at most 20 redirects. -/
def Site.browse (site : Site) : Browser := fun _ url =>
  let (chain, outcome) := site.follow 20 url
  { chain := chain, outcome := outcome }

/-! ## The crawler -/

structure PersonaCrawler where
  scopeGuard : ScopeGuard
  destructiveGuard : DestructiveActionGuard
  maxPages : Nat := 30

/-- The local variables of `crawl`. `gotos` lists the documents requested
by each `page.goto`, `acquired` counts the completed `acquire` calls, and
`raised` is the exception that ended the crawl. -/
structure CrawlState where
  queue : List Str
  visited : List Str
  recording : Recording
  gotos : List (List Str)
  acquired : Nat
  raised : Option PyError
  deriving DecidableEq, Repr

/-- The local variables before the loop. -/
def CrawlState.start (rootUrl personaId : Str) : CrawlState where
  queue := [rootUrl]
  visited := []
  recording := ⟨[], { rootUrl := rootUrl, personaId := personaId }⟩
  gotos := []
  acquired := 0
  raised := none

/-- Every document the browser requested. -/
def CrawlState.documents (s : CrawlState) : List Str := s.gotos.flatten

/-- `_INTERESTING_RESOURCE_TYPES`. -/
def interestingResourceTypes : List Str := ["xhr", "fetch"].map String.toList

variable [PyRuntime]

/-- `_record_network_request`. An exception in this event handler does not
reach the crawl. -/
def PersonaCrawler.recordNetworkRequest (c : PersonaCrawler) (recording : Recording)
    (request : NetworkRequest) : Recording :=
  if request.resourceType ∉ interestingResourceTypes then recording
  else
    match c.scopeGuard.evaluate request.method request.url with
    | .error _ => recording
    | .ok decision =>
        if !decision.allowed then recording
        else
          match recording.recordEndpoint request.method request.url .network with
          | .error _ => recording
          | .ok recording => recording

def PersonaCrawler.recordNetwork (c : PersonaCrawler) (recording : Recording)
    (requests : List NetworkRequest) : Recording :=
  requests.foldl c.recordNetworkRequest recording

/-- `_extract_same_origin_links`. -/
def extractSameOriginLinks (page : Page) (rootUrl : Str) : Except PyError (List Str) := do
  let rootOrigin ← urlsplit rootUrl
  let links ← (page.anchors.getD []).mapM fun anchor => do
    let parts ← urlsplit anchor.href
    return if parts.scheme ∈ ["http".toList, "https".toList] ∧ parts.netloc = rootOrigin.netloc
      then some (partition '#' anchor.href).1 else none
  return links.filterMap fun link => link

/-- `_extract_forms`. -/
def extractForms (page : Page) (rootUrl : Str) : Except PyError (List (Str × Str)) := do
  let rootOrigin ← urlsplit rootUrl
  let forms ← (page.forms.getD []).mapM fun form => do
    let action := if form.action = [] then rootUrl else form.action
    let parts ← urlsplit action
    return if parts.netloc ≠ [] ∧ parts.netloc ≠ rootOrigin.netloc then none
      else some (form.method, action)
  return forms.filterMap fun form => form

/-- The loop over the forms of a page. -/
def recordForms (recording : Recording) : List (Str × Str) → Except PyError Recording
  | [] => .ok recording
  | (method, url) :: rest => do
      let recording ← recording.recordEndpoint method url .form
      recordForms recording rest

/-- The exception ends the crawl. -/
def CrawlState.raise (s : CrawlState) (e : PyError) : CrawlState := { s with raised := some e }

/-- The loop over the links of a page: a new link is queued, or recorded
only when it is suspect. -/
def PersonaCrawler.followLinks (c : PersonaCrawler) (s : CrawlState) : List Str → CrawlState
  | [] => s
  | link :: rest =>
      if link ∉ s.visited ∧ link ∉ s.queue then
        match c.destructiveGuard.check "GET".toList link with
        | .error e => s.raise e
        | .ok check =>
            if check.isSuspect then
              match s.recording.recordEndpoint "GET".toList link .link with
              | .error e => s.raise e
              | .ok recording => c.followLinks { s with recording := recording } rest
            else c.followLinks { s with queue := s.queue ++ [link] } rest
      else c.followLinks s rest

/-- The part of the loop body behind a load that succeeded. -/
def PersonaCrawler.absorbPage (c : PersonaCrawler) (s : CrawlState) (url : Str) (visit : Visit)
    (page : Page) : CrawlState :=
  let s := { s with visited := s.visited ++ [url] }
  match s.recording.recordEndpoint "GET".toList url .link with
  | .error e => s.raise e
  | .ok recording =>
      let s := { s with recording := c.recordNetwork recording visit.duringLinks }
      match extractSameOriginLinks page s.recording.surface.rootUrl with
      | .error e => s.raise e
      | .ok links =>
          let s := { s with recording := c.recordNetwork s.recording visit.duringForms }
          match extractForms page s.recording.surface.rootUrl with
          | .error e => s.raise e
          | .ok forms =>
              match recordForms s.recording forms with
              | .error e => s.raise e
              | .ok recording => c.followLinks { s with recording := recording } links

/-- The part of the loop body behind the guards: acquire, go, absorb. -/
def PersonaCrawler.visitUrl (c : PersonaCrawler) (browser : Browser) (s : CrawlState) (url : Str) :
    CrawlState :=
  let visit := browser s.gotos.length url
  let recording := c.recordNetwork (c.recordNetwork s.recording visit.duringAcquire) visit.duringLoad
  let s := { s with
    recording := recording, gotos := s.gotos ++ [url :: visit.chain], acquired := s.acquired + 1 }
  match visit.outcome with
  | .error msg =>
      { s with recording := s.recording.note ("Failed to load ".toList ++ url ++ ": ".toList ++ msg) }
  | .ok page => c.absorbPage s url visit page

/-- The body of the crawl loop for the URL taken from the queue. -/
def PersonaCrawler.processUrl (c : PersonaCrawler) (browser : Browser) (s : CrawlState)
    (url : Str) : CrawlState :=
  if url ∈ s.visited then s
  else
    match c.scopeGuard.evaluate "GET".toList url with
    | .error e => s.raise e
    | .ok decision =>
        if !decision.allowed then
          { s with recording := s.recording.note ("Skipped out-of-scope URL: ".toList ++ url ++ " (".toList ++
              decision.reason ++ ")".toList) }
        else
          match c.destructiveGuard.check "GET".toList url with
          | .error e => s.raise e
          | .ok check =>
              if check.isSuspect then
                { s with recording :=
                    s.recording.note ("Skipped suspected-destructive URL: ".toList ++ url) }
              else c.visitUrl browser s url

/-- `while queue and len(visited) < self._max_pages`, and nothing raised. -/
def PersonaCrawler.running (c : PersonaCrawler) (s : CrawlState) : Bool :=
  s.raised.isNone && s.queue != [] && s.visited.length < c.maxPages

/-- One iteration: `queue.pop(0)` and the body. -/
def PersonaCrawler.crawlStep (c : PersonaCrawler) (browser : Browser) (s : CrawlState) :
    CrawlState :=
  match s.queue with
  | [] => s
  | url :: rest => c.processUrl browser { s with queue := rest } url

/-! ## What an iteration does to the loop's measure -/

/-- A state that differs from another in what was recorded and raised, and
maybe in the queue. -/
structure CrawlState.SameVisits (s t : CrawlState) : Prop where
  visited : t.visited = s.visited
  gotos : t.gotos = s.gotos

theorem followLinks_sameVisits (c : PersonaCrawler) (links : List Str) (s : CrawlState) :
    s.SameVisits (c.followLinks s links) := by
  induction links generalizing s with
  | nil => exact ⟨rfl, rfl⟩
  | cons link rest ih =>
    unfold PersonaCrawler.followLinks
    split
    · cases c.destructiveGuard.check "GET".toList link with
      | error e => exact ⟨rfl, rfl⟩
      | ok check =>
        dsimp only
        split
        · cases s.recording.recordEndpoint "GET".toList link .link with
          | error e => exact ⟨rfl, rfl⟩
          | ok recording =>
            have h := ih { s with recording := recording }
            exact ⟨h.visited, h.gotos⟩
        · have h := ih { s with queue := s.queue ++ [link] }
          exact ⟨h.visited, h.gotos⟩
    · exact ih s

/-- What the loop over the links adds to the queue: new links of the page
that the guard clears by their URL. -/
theorem followLinks_queue (c : PersonaCrawler) (links : List Str) (s : CrawlState) (url : Str)
    (hurl : url ∈ (c.followLinks s links).queue) :
    url ∈ s.queue ∨
      url ∈ links ∧ url ∉ s.visited ∧ c.destructiveGuard.clears "GET".toList url = true := by
  induction links generalizing s with
  | nil => exact Or.inl hurl
  | cons link rest ih =>
    -- what holds of the rest of the links holds of all of them
    have hrest : ∀ t : CrawlState, t.visited = s.visited → (∀ u ∈ t.queue, u ∈ s.queue) →
        url ∈ (c.followLinks t rest).queue → url ∈ s.queue ∨ url ∈ link :: rest ∧
          url ∉ s.visited ∧ c.destructiveGuard.clears "GET".toList url = true := by
      intro t hvisited hqueue hmem
      rcases ih t hmem with hold | ⟨hlink, hnew, hclear⟩
      · exact Or.inl (hqueue url hold)
      · exact Or.inr ⟨List.mem_cons_of_mem link hlink, hvisited ▸ hnew, hclear⟩
    unfold PersonaCrawler.followLinks at hurl
    split at hurl
    · next hnew =>
      cases hcheck : c.destructiveGuard.check "GET".toList link with
      | error e =>
        rw [hcheck] at hurl
        exact Or.inl hurl
      | ok check =>
        rw [hcheck] at hurl
        dsimp only at hurl
        split at hurl
        · cases hrecord : s.recording.recordEndpoint "GET".toList link .link with
          | error e =>
            rw [hrecord] at hurl
            exact Or.inl hurl
          | ok recording =>
            rw [hrecord] at hurl
            exact hrest { s with recording := recording } rfl (fun u hu => hu) hurl
        · next hsuspect =>
          rcases ih _ hurl with hold | ⟨hlink, hvisited, hclear⟩
          · rcases List.mem_append.mp hold with hold | hlast
            · exact Or.inl hold
            · obtain rfl := List.mem_singleton.mp hlast
              have hclear : c.destructiveGuard.clears "GET".toList url = true :=
                (clears_iff _ _ _ _).mpr ⟨check, hcheck, Bool.eq_false_iff.mpr hsuspect⟩
              exact Or.inr ⟨List.mem_cons_self, hnew.1, hclear⟩
          · exact Or.inr ⟨List.mem_cons_of_mem link hlink, hvisited, hclear⟩
    · exact hrest s rfl (fun u hu => hu) hurl

/-! ## Whose surface it is -/

theorem recordNetwork_head (c : PersonaCrawler) (recording : Recording)
    (requests : List NetworkRequest) :
    (c.recordNetwork recording requests).head = recording.head := by
  unfold PersonaCrawler.recordNetwork
  induction requests generalizing recording with
  | nil => rfl
  | cons request rest ih =>
    rw [List.foldl_cons, ih]
    unfold PersonaCrawler.recordNetworkRequest
    split
    · rfl
    · cases c.scopeGuard.evaluate request.method request.url with
      | error e => rfl
      | ok decision =>
        dsimp only
        split
        · rfl
        · cases hrecord : recording.recordEndpoint request.method request.url .network with
          | error e => rfl
          | ok recording' => exact recordEndpoint_head hrecord

theorem recordForms_head {forms : List (Str × Str)} {recording recording' : Recording}
    (h : recordForms recording forms = .ok recording') : recording'.head = recording.head := by
  induction forms generalizing recording with
  | nil => rw [Except.ok.inj h]
  | cons form rest ih =>
    unfold recordForms at h
    cases hrecord : recording.recordEndpoint form.1 form.2 .form with
    | error e => simp [hrecord, bind, Except.bind] at h
    | ok recorded =>
      rw [hrecord] at h
      exact (ih h).trans (recordEndpoint_head hrecord)

theorem followLinks_head (c : PersonaCrawler) (links : List Str) (s : CrawlState) :
    (c.followLinks s links).recording.head = s.recording.head := by
  induction links generalizing s with
  | nil => rfl
  | cons link rest ih =>
    unfold PersonaCrawler.followLinks
    split
    · cases c.destructiveGuard.check "GET".toList link with
      | error e => rfl
      | ok check =>
        dsimp only
        split
        · cases hrecord : s.recording.recordEndpoint "GET".toList link .link with
          | error e => rfl
          | ok recording =>
            exact (ih { s with recording := recording }).trans (recordEndpoint_head hrecord)
        · exact ih { s with queue := s.queue ++ [link] }
    · exact ih s

/-! ## Taking in a page -/

theorem parses_of_allows {g : ScopeGuard} {method url : Str}
    (h : g.allows method url = true) : Parses url := by
  obtain ⟨-, parts, hparts, -⟩ := (allows_iff g method url).mp h
  exact ⟨parts, hparts⟩

/-- Nothing on the page makes the crawl raise. -/
structure Absorbable (page : Page) (rootUrl url : Str) : Prop where
  url : Parses url
  links : ∃ links, extractSameOriginLinks page rootUrl = .ok links
  forms : ∃ forms, extractForms page rootUrl = .ok forms ∧ ∀ form ∈ forms, Parses form.2

theorem recordForms_ok {forms : List (Str × Str)} (hparse : ∀ form ∈ forms, Parses form.2)
    (recording : Recording) : ∃ recording', recordForms recording forms = .ok recording' := by
  induction forms generalizing recording with
  | nil => exact ⟨recording, rfl⟩
  | cons form rest ih =>
    obtain ⟨parts, hparts⟩ := hparse form List.mem_cons_self
    obtain ⟨recorded, hrecord⟩ := recordEndpoint_of_urlsplit recording form.1 hparts .form
    unfold recordForms
    rw [hrecord]
    exact ih (fun f hf => hparse f (List.mem_cons_of_mem form hf)) recorded

theorem parses_of_recordEndpoint {recording recording' : Recording} {method url : Str}
    {source : DiscoverySource}
    (h : recording.recordEndpoint method url source = .ok recording') : Parses url := by
  obtain ⟨parts, hparts, -⟩ := bind_eq_ok.mp h
  exact ⟨parts, hparts⟩

theorem parses_of_recordForms {forms : List (Str × Str)} {recording recording' : Recording}
    (h : recordForms recording forms = .ok recording') : ∀ form ∈ forms, Parses form.2 := by
  induction forms generalizing recording with
  | nil => exact fun form hform => absurd hform List.not_mem_nil
  | cons form rest ih =>
    obtain ⟨recorded, hrecord, hrest⟩ := bind_eq_ok.mp h
    exact List.forall_mem_cons.mpr ⟨parses_of_recordEndpoint hrecord, ih hrest⟩

/-- Taking in a page ends in the loop over its links, or in an exception
before that. -/
theorem absorbPage_cases (c : PersonaCrawler) (s : CrawlState) (url : Str) (visit : Visit)
    (page : Page) :
    ∃ recording : Recording, recording.head = s.recording.head ∧
      ((∃ e, ¬ Absorbable page s.recording.surface.rootUrl url ∧
          c.absorbPage s url visit page = CrawlState.raise
            { s with visited := s.visited ++ [url], recording := recording } e) ∨
        ∃ links, Absorbable page s.recording.surface.rootUrl url ∧
          extractSameOriginLinks page s.recording.surface.rootUrl = .ok links ∧
          c.absorbPage s url visit page = c.followLinks
            { s with visited := s.visited ++ [url], recording := recording } links) := by
  unfold PersonaCrawler.absorbPage
  dsimp only
  cases hrecord : s.recording.recordEndpoint "GET".toList url .link with
  | error e =>
    refine ⟨s.recording, rfl, Or.inl ⟨e, fun h => ?_, rfl⟩⟩
    obtain ⟨parts, hparts⟩ := h.url
    obtain ⟨recorded, hrecorded⟩ := recordEndpoint_of_urlsplit s.recording "GET".toList hparts .link
    exact nomatch hrecord.symm.trans hrecorded
  | ok recorded =>
    have hhead := (recordNetwork_head c recorded visit.duringLinks).trans (recordEndpoint_head hrecord)
    dsimp only
    generalize c.recordNetwork recorded visit.duringLinks = first at hhead ⊢
    have hroot : first.surface.rootUrl = s.recording.surface.rootUrl := congrArg Prod.fst hhead
    rw [hroot]
    cases hlinks : extractSameOriginLinks page s.recording.surface.rootUrl with
    | error e =>
      refine ⟨first, hhead, Or.inl ⟨e, fun h => ?_, rfl⟩⟩
      obtain ⟨links, hfound⟩ := h.links
      exact nomatch hlinks.symm.trans hfound
    | ok links =>
      have hhead' := (recordNetwork_head c first visit.duringForms).trans hhead
      dsimp only
      generalize c.recordNetwork first visit.duringForms = second at hhead' ⊢
      have hroot' : second.surface.rootUrl = s.recording.surface.rootUrl := congrArg Prod.fst hhead'
      rw [hroot']
      cases hforms : extractForms page s.recording.surface.rootUrl with
      | error e =>
        refine ⟨second, hhead', Or.inl ⟨e, fun h => ?_, rfl⟩⟩
        obtain ⟨forms, hfound, -⟩ := h.forms
        exact nomatch hforms.symm.trans hfound
      | ok forms =>
        dsimp only
        cases hdone : recordForms second forms with
        | error e =>
          refine ⟨second, hhead', Or.inl ⟨e, fun h => ?_, rfl⟩⟩
          obtain ⟨forms', hfound, hparse⟩ := h.forms
          obtain rfl := Except.ok.inj (hforms.symm.trans hfound)
          obtain ⟨recording, hrecorded⟩ := recordForms_ok hparse second
          exact nomatch hdone.symm.trans hrecorded
        | ok third =>
          have habsorb : Absorbable page s.recording.surface.rootUrl url :=
            ⟨parses_of_recordEndpoint hrecord, ⟨links, hlinks⟩, forms, hforms,
              parses_of_recordForms hdone⟩
          exact ⟨third, (recordForms_head hdone).trans hhead', Or.inr ⟨links, habsorb, rfl, rfl⟩⟩

/-- Taking in a page adds its URL to the visited set and requests nothing. -/
theorem absorbPage_visited (c : PersonaCrawler) (s : CrawlState) (url : Str) (visit : Visit)
    (page : Page) :
    (c.absorbPage s url visit page).visited = s.visited ++ [url] ∧
      (c.absorbPage s url visit page).gotos = s.gotos := by
  obtain ⟨recording, -, ⟨e, -, hraise⟩ | ⟨links, -, -, hfollow⟩⟩ :=
    absorbPage_cases c s url visit page
  · rw [hraise]
    exact ⟨rfl, rfl⟩
  · rw [hfollow]
    have h := followLinks_sameVisits c links
      { s with visited := s.visited ++ [url], recording := recording }
    exact ⟨h.visited, h.gotos⟩

/-! ## Taking a URL off the queue -/

/-- The URL passes both guards. -/
def PersonaCrawler.Guarded (c : PersonaCrawler) (url : Str) : Prop :=
  c.scopeGuard.allows "GET".toList url = true ∧ c.destructiveGuard.clears "GET".toList url = true

instance (c : PersonaCrawler) (url : Str) : Decidable (c.Guarded url) := by
  unfold PersonaCrawler.Guarded
  infer_instance

/-- What processing a URL does: nothing but a note or an exception when it
was visited or a guard stops it, and else a visit. -/
theorem processUrl_cases (c : PersonaCrawler) (browser : Browser) (s : CrawlState) (url : Str) :
    (url ∉ s.visited ∧ c.Guarded url ∧ c.processUrl browser s url = c.visitUrl browser s url) ∨
      ((url ∈ s.visited ∨ ¬ c.Guarded url) ∧ s.SameVisits (c.processUrl browser s url) ∧
        (c.processUrl browser s url).queue = s.queue) := by
  unfold PersonaCrawler.processUrl
  by_cases hvisited : url ∈ s.visited
  · rw [if_pos hvisited]
    exact Or.inr ⟨Or.inl hvisited, ⟨rfl, rfl⟩, rfl⟩
  · rw [if_neg hvisited]
    unfold PersonaCrawler.Guarded ScopeGuard.allows DestructiveActionGuard.clears
    cases c.scopeGuard.evaluate "GET".toList url with
    | error e => exact Or.inr ⟨Or.inr (by simp), ⟨rfl, rfl⟩, rfl⟩
    | ok decision =>
      dsimp only
      cases decision.allowed with
      | false => exact Or.inr ⟨Or.inr (by simp), ⟨rfl, rfl⟩, rfl⟩
      | true =>
        cases c.destructiveGuard.check "GET".toList url with
        | error e => exact Or.inr ⟨Or.inr (by simp), ⟨rfl, rfl⟩, rfl⟩
        | ok check =>
          dsimp only
          cases check.isSuspect with
          | true => exact Or.inr ⟨Or.inr (by simp), ⟨rfl, rfl⟩, rfl⟩
          | false => exact Or.inl ⟨hvisited, by simp, rfl⟩

/-- A visit requests the URL and its chain; a load that fails leaves queue
and visited set alone, one that succeeds adds the URL to the set. -/
theorem visitUrl_spec (c : PersonaCrawler) (browser : Browser) (s : CrawlState) (url : Str) :
    (c.visitUrl browser s url).gotos = s.gotos ++ [url :: (browser s.gotos.length url).chain] ∧
      ((c.visitUrl browser s url).visited = s.visited ∧
          (c.visitUrl browser s url).queue = s.queue ∨
        (c.visitUrl browser s url).visited = s.visited ++ [url]) := by
  unfold PersonaCrawler.visitUrl
  dsimp only
  cases (browser s.gotos.length url).outcome with
  | error msg => exact ⟨rfl, Or.inl ⟨rfl, rfl⟩⟩
  | ok page =>
    obtain ⟨hvisited, hgotos⟩ := absorbPage_visited c { s with
      recording := c.recordNetwork (c.recordNetwork s.recording
        (browser s.gotos.length url).duringAcquire) (browser s.gotos.length url).duringLoad
      gotos := s.gotos ++ [url :: (browser s.gotos.length url).chain]
      acquired := s.acquired + 1 } url (browser s.gotos.length url) page
    exact ⟨hgotos, Or.inr hvisited⟩

/-- The state behind a `page.goto`. -/
def CrawlState.went (s : CrawlState) (url : Str) (rest : List Str) (chain : List Str)
    (recording : Recording) : CrawlState :=
  { s with
    queue := rest, recording := recording, gotos := s.gotos ++ [url :: chain]
    acquired := s.acquired + 1 }

/-- What an iteration makes of the URL it takes off the queue. -/
inductive PersonaCrawler.Takes (c : PersonaCrawler) (browser : Browser) (s : CrawlState)
    (url : Str) (rest : List Str) : CrawlState → Prop
  /-- It was visited before, or a guard stops it. -/
  | skip {recording : Recording} (hhead : recording.head = s.recording.head)
      (hskip : url ∈ s.visited ∨ ¬ c.Guarded url) :
      Takes c browser s url rest { s with queue := rest, recording := recording }
  /-- The scope guard raises. -/
  | refuse {e : PyError} (hraise : c.scopeGuard.evaluate "GET".toList url = .error e) :
      Takes c browser s url rest (CrawlState.raise { s with queue := rest } e)
  /-- The page does not load. -/
  | fail {recording : Recording} {msg : Str} (hhead : recording.head = s.recording.head)
      (hnew : url ∉ s.visited) (hguarded : c.Guarded url)
      (hload : (browser s.gotos.length url).outcome = .error msg) :
      Takes c browser s url rest
        (s.went url rest (browser s.gotos.length url).chain recording)
  /-- The page loads, and something on it raises. -/
  | break {recording : Recording} {page : Page} {e : PyError}
      (hhead : recording.head = s.recording.head) (hnew : url ∉ s.visited)
      (hguarded : c.Guarded url) (hload : (browser s.gotos.length url).outcome = .ok page)
      (habsorb : ¬ Absorbable page s.recording.surface.rootUrl url) :
      Takes c browser s url rest (CrawlState.raise
        { s.went url rest (browser s.gotos.length url).chain recording with
          visited := s.visited ++ [url] } e)
  /-- The page loads, and its links are followed. -/
  | load {recording : Recording} {page : Page} {links : List Str}
      (hhead : recording.head = s.recording.head) (hnew : url ∉ s.visited)
      (hguarded : c.Guarded url) (hload : (browser s.gotos.length url).outcome = .ok page)
      (hlinks : extractSameOriginLinks page s.recording.surface.rootUrl = .ok links) :
      Takes c browser s url rest (c.followLinks
        { s.went url rest (browser s.gotos.length url).chain recording with
          visited := s.visited ++ [url] } links)

theorem visitUrl_takes (c : PersonaCrawler) (browser : Browser) (s : CrawlState) {url : Str}
    (rest : List Str) (hnew : url ∉ s.visited) (hguarded : c.Guarded url) :
    c.Takes browser s url rest (c.visitUrl browser { s with queue := rest } url) := by
  unfold PersonaCrawler.visitUrl
  dsimp only
  have hhead : (c.recordNetwork (c.recordNetwork s.recording
      (browser s.gotos.length url).duringAcquire) (browser s.gotos.length url).duringLoad).head =
        s.recording.head := by
    rw [recordNetwork_head, recordNetwork_head]
  generalize c.recordNetwork _ (browser s.gotos.length url).duringLoad = during at hhead ⊢
  have hroot : during.surface.rootUrl = s.recording.surface.rootUrl := congrArg Prod.fst hhead
  cases hload : (browser s.gotos.length url).outcome with
  | error msg => exact .fail (hhead : (during.note _).head = _) hnew hguarded hload
  | ok page =>
    obtain ⟨recording, hrecording, hcases⟩ := absorbPage_cases c
      (s.went url rest (browser s.gotos.length url).chain during) url (browser s.gotos.length url) page
    simp only [CrawlState.went] at hrecording hcases
    rw [hroot] at hcases
    dsimp only
    rcases hcases with ⟨e, habsorb, hraise⟩ | ⟨links, -, hlinks, hfollow⟩
    · rw [hraise]
      exact .break (hrecording.trans hhead) hnew hguarded hload habsorb
    · rw [hfollow]
      exact .load (hrecording.trans hhead) hnew hguarded hload hlinks

/-- **What one iteration does**, case by case. -/
theorem crawlStep_takes (c : PersonaCrawler) (browser : Browser) {s : CrawlState} {url : Str}
    {rest : List Str} (hqueue : s.queue = url :: rest) :
    c.Takes browser s url rest (c.crawlStep browser s) := by
  unfold PersonaCrawler.crawlStep
  rw [hqueue]
  dsimp only
  rcases processUrl_cases c browser { s with queue := rest } url with
    ⟨hnew, hguarded, hvisit⟩ | ⟨hskip, -, -⟩
  · rw [hvisit]
    exact visitUrl_takes c browser s rest hnew hguarded
  · unfold PersonaCrawler.processUrl
    by_cases hvisited : url ∈ s.visited
    · rw [if_pos hvisited]
      exact .skip rfl (Or.inl hvisited)
    · rw [if_neg hvisited]
      have hstop : ¬ c.Guarded url := hskip.resolve_left hvisited
      cases hevaluate : c.scopeGuard.evaluate "GET".toList url with
      | error e => exact .refuse hevaluate
      | ok decision =>
        dsimp only
        cases hallowed : decision.allowed with
        | false => exact .skip (note_head s.recording _) (Or.inr hstop)
        | true =>
          have hallows : c.scopeGuard.allows "GET".toList url = true := by
            unfold ScopeGuard.allows
            rw [hevaluate]
            exact hallowed
          obtain ⟨parts, hparts⟩ := parses_of_allows hallows
          obtain ⟨check, hcheck⟩ := check_of_urlsplit c.destructiveGuard "GET".toList hparts []
          rw [hcheck]
          dsimp only
          cases hsuspect : check.isSuspect with
          | true => exact .skip (note_head s.recording _) (Or.inr hstop)
          | false =>
            exact absurd ⟨hallows, (clears_iff _ _ _ _).mpr ⟨check, hcheck, hsuspect⟩⟩ hstop

/-- An iteration visits one more page, or takes a URL off the queue and
visits none. -/
theorem crawlStep_progress (c : PersonaCrawler) (browser : Browser) {s : CrawlState} {url : Str}
    {rest : List Str} (hqueue : s.queue = url :: rest) :
    (c.crawlStep browser s).visited = s.visited ∧ (c.crawlStep browser s).queue = rest ∨
      (c.crawlStep browser s).visited = s.visited ++ [url] := by
  unfold PersonaCrawler.crawlStep
  rw [hqueue]
  rcases processUrl_cases c browser { s with queue := rest } url with
    ⟨-, -, hvisit⟩ | ⟨-, hsame, hrest⟩
  · dsimp only at hvisit ⊢
    rw [hvisit]
    exact (visitUrl_spec c browser { s with queue := rest } url).2
  · exact Or.inl ⟨hsame.visited, hrest⟩

/-- What the loop has left: pages it may visit, then URLs in the queue. -/
def PersonaCrawler.remaining (c : PersonaCrawler) (s : CrawlState) : Nat ×ₗ Nat :=
  toLex (c.maxPages - s.visited.length, s.queue.length)

theorem crawlStep_remaining {c : PersonaCrawler} (browser : Browser) {s : CrawlState}
    (hrunning : c.running s = true) : c.remaining (c.crawlStep browser s) < c.remaining s := by
  simp only [PersonaCrawler.running, Bool.and_eq_true, decide_eq_true_eq, bne_iff_ne] at hrunning
  obtain ⟨⟨-, hqueue⟩, hpages⟩ := hrunning
  obtain ⟨url, rest, hurl⟩ := List.exists_cons_of_ne_nil hqueue
  unfold PersonaCrawler.remaining
  rcases crawlStep_progress c browser hurl with ⟨hvisited, hrest⟩ | hvisited
  · rw [hvisited, hrest, hurl]
    exact Prod.Lex.toLex_lt_toLex.mpr (Or.inr ⟨rfl, by simp⟩)
  · rw [hvisited]
    exact Prod.Lex.toLex_lt_toLex.mpr (Or.inl (by simp only [List.length_append, List.length_singleton]; omega))

/-! ## The loop -/

/-- The crawl loop. -/
def PersonaCrawler.crawlLoop (c : PersonaCrawler) (browser : Browser) (s : CrawlState) :
    CrawlState :=
  if c.running s then c.crawlLoop browser (c.crawlStep browser s) else s
termination_by c.remaining s
decreasing_by exact crawlStep_remaining browser ‹_›

/-- The state the loop of one crawl ends in. -/
def PersonaCrawler.crawlState (c : PersonaCrawler) (browser : Browser) (rootUrl personaId : Str) :
    CrawlState :=
  c.crawlLoop browser (.start rootUrl personaId)

/-- The requests reported while the context is closed; without a `goto` the
page has made none. -/
def CrawlState.closing (s : CrawlState) (browser : Browser) : List NetworkRequest :=
  match s.gotos.getLast? with
  | some (url :: _) => (browser (s.gotos.length - 1) url).duringClose
  | _ => []

/-- `PersonaCrawler.crawl`. The handler is still there when `finally` closes
the context, and the surface it fills is the one returned. -/
def PersonaCrawler.crawl (c : PersonaCrawler) (browser : Browser) (rootUrl personaId : Str) :
    Except PyError SurfaceMap :=
  let s := c.crawlState browser rootUrl personaId
  match s.raised with
  | some e => .error e
  | none => .ok { (c.recordNetwork s.recording (s.closing browser)).surface with
      pagesVisited := s.visited.length }

/-- The states the loop goes through, iteration by iteration. -/
def PersonaCrawler.iterate (c : PersonaCrawler) (browser : Browser) :
    Nat → CrawlState → CrawlState
  | 0, s => s
  | n + 1, s =>
      if c.running s then c.iterate browser n (c.crawlStep browser s) else s

/-- The loop stops where enough iterations stop. -/
theorem crawlLoop_eq_iterate {c : PersonaCrawler} {browser : Browser} {n : Nat} {s : CrawlState}
    (hstop : c.running (c.iterate browser n s) = false) :
    c.crawlLoop browser s = c.iterate browser n s := by
  induction n generalizing s with
  | zero =>
    rw [PersonaCrawler.crawlLoop, if_neg (by simpa [PersonaCrawler.iterate] using hstop)]
    rfl
  | succ n ih =>
    rw [PersonaCrawler.crawlLoop, PersonaCrawler.iterate]
    unfold PersonaCrawler.iterate at hstop
    split
    · next hrunning =>
      rw [if_pos hrunning] at hstop
      exact ih hstop
    · rfl

/-- The loop does stop. -/
theorem crawlLoop_iterates (c : PersonaCrawler) (browser : Browser) (s : CrawlState) :
    ∃ n, c.running (c.iterate browser n s) = false := by
  induction hremaining : c.remaining s using WellFoundedLT.induction generalizing s with
  | ind m ih =>
    cases hrunning : c.running s with
    | false => exact ⟨0, hrunning⟩
    | true =>
      subst hremaining
      obtain ⟨n, hn⟩ := ih _ (crawlStep_remaining browser hrunning) _ rfl
      exact ⟨n + 1, by simpa [PersonaCrawler.iterate, hrunning] using hn⟩

end Sentinel.Crawler
