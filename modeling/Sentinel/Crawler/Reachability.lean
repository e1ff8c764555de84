/-
Sentinel.Crawler.Reachability — the crawl as a search of a site.

A site is here what its pages link to. `Visitable` URLs pass both guards
and load; the crawl is a search of `Sentinel.Search` through them, one
iteration a skip or a visit, so what it has visited in the end is the
reachable set, or as much of it as `max_pages` allows.
-/
import Sentinel.Crawler.CrawlerTheorems
import Sentinel.Search.Worklist

namespace Sentinel.Crawler

open Sentinel.Py Sentinel.Core Sentinel.Search

variable [PyRuntime]

/-! ## Sites of links -/

/-- A link as the crawler extracts them: of the root's origin, and without
a fragment. -/
def IsExtractedLink (rootUrl link : Str) : Prop :=
  ∃ root parts, urlsplit rootUrl = .ok root ∧ urlsplit link = .ok parts ∧
    parts.scheme ∈ ["http".toList, "https".toList] ∧ parts.netloc = root.netloc ∧ '#' ∉ link

/-- A site as the links of its pages. `none` is a page that does not load. -/
structure LinkedSite (rootUrl : Str) where
  links : Str → Option (List Str)
  sameOrigin : ∀ url found, links url = some found → ∀ link ∈ found, IsExtractedLink rootUrl link

variable {rootUrl : Str}

/-- The links of a page, none where it does not load. -/
def LinkedSite.successors (site : LinkedSite rootUrl) (url : Str) : List Str :=
  (site.links url).getD []

/-- The browser shows the site, whenever it loads a page: what the crawler
extracts from the page are the links, and its forms have actions that parse. -/
structure LinkedSite.ShownBy (site : LinkedSite rootUrl) (browser : Browser) : Prop where
  fails : ∀ n url, site.links url = none → ∃ msg, (browser n url).outcome = .error msg
  loads : ∀ n url found, site.links url = some found →
    ∃ page, (browser n url).outcome = .ok page ∧
      ∀ root, urlsplit rootUrl = .ok root →
        extractSameOriginLinks page rootUrl = .ok found ∧
        ∃ forms, extractForms page rootUrl = .ok forms ∧ ∀ form ∈ forms, Parses form.2

/-- The URL passes both guards, and its page loads. -/
def PersonaCrawler.Visitable (c : PersonaCrawler) (site : LinkedSite rootUrl) (url : Str) : Prop :=
  c.Guarded url ∧ (site.links url).isSome = true

/-- The set a crawl is to visit: the root, if visitable, and with every page
its visitable links. -/
def PersonaCrawler.ReachableSurface (c : PersonaCrawler) (site : LinkedSite rootUrl) : Set Str :=
  {url | Reachable (c.Visitable site) site.successors rootUrl url}

/-! ## Following links that parse -/

/-- Behind the loop over links that parse, every link the guard clears is
visited or waits in the queue. -/
theorem followLinks_complete (c : PersonaCrawler) {links : List Str}
    (hparse : ∀ link ∈ links, Parses link) (s : CrawlState) :
    (c.followLinks s links).raised = s.raised ∧
      (∀ url ∈ s.queue, url ∈ (c.followLinks s links).queue) ∧
      ∀ link ∈ links, c.destructiveGuard.clears "GET".toList link = true →
        link ∈ s.visited ∨ link ∈ (c.followLinks s links).queue := by
  induction links generalizing s with
  | nil => exact ⟨rfl, fun _ h => h, fun _ h => absurd h List.not_mem_nil⟩
  | cons link rest ih =>
    obtain ⟨⟨parts, hparts⟩, hrest⟩ := List.forall_mem_cons.mp hparse
    have hih := ih hrest
    unfold PersonaCrawler.followLinks
    split
    · obtain ⟨check, hcheck⟩ := check_of_urlsplit c.destructiveGuard "GET".toList hparts []
      rw [hcheck]
      dsimp only
      split
      · next hsuspect =>
        obtain ⟨recording, hrecord⟩ :=
          recordEndpoint_of_urlsplit s.recording "GET".toList hparts .link
        rw [hrecord]
        obtain ⟨hraised, hqueue, hlinks⟩ := hih { s with recording := recording }
        refine ⟨hraised, hqueue, List.forall_mem_cons.mpr ⟨fun hclear => ?_, hlinks⟩⟩
        obtain ⟨check', hcheck', hclear⟩ := (clears_iff _ _ _ _).mp hclear
        obtain rfl := Except.ok.inj (hcheck.symm.trans hcheck')
        exact absurd (hclear.symm.trans hsuspect) Bool.false_ne_true
      · obtain ⟨hraised, hqueue, hlinks⟩ := hih { s with queue := s.queue ++ [link] }
        have hlast : link ∈ (c.followLinks { s with queue := s.queue ++ [link] } rest).queue :=
          hqueue link (List.mem_append_right _ (List.mem_singleton_self link))
        exact ⟨hraised, fun url hurl => hqueue url (List.mem_append_left _ hurl),
          List.forall_mem_cons.mpr ⟨fun _ => Or.inr hlast, hlinks⟩⟩
    · next hknown =>
      obtain ⟨hraised, hqueue, hlinks⟩ := hih s
      refine ⟨hraised, hqueue, List.forall_mem_cons.mpr ⟨fun _ => ?_, hlinks⟩⟩
      by_cases hvisited : link ∈ s.visited
      · exact Or.inl hvisited
      · refine Or.inr (hqueue link ?_)
        by_contra hn
        exact hknown ⟨hvisited, hn⟩

/-! ## The crawl is a search -/

/-- The crawl between two iterations. -/
structure PersonaCrawler.Searching (c : PersonaCrawler) (site : LinkedSite rootUrl)
    (s : CrawlState) : Prop where
  frontier : Frontier (c.Visitable site) site.successors rootUrl s.visited s.queue
  limit : s.visited.length ≤ c.maxPages
  root : s.recording.surface.rootUrl = rootUrl
  /-- Only the scope guard can raise, on a URL that the search came across. -/
  raised : ∀ e, s.raised = some e → ∃ url, Met (c.Visitable site) site.successors rootUrl url ∧
    c.scopeGuard.evaluate "GET".toList url = .error e

theorem Searching.start (c : PersonaCrawler) (site : LinkedSite rootUrl) (personaId : Str) :
    c.Searching site (.start rootUrl personaId) where
  frontier := .initial
  limit := Nat.zero_le _
  root := rfl
  raised _ h := nomatch h

theorem successors_of_links {site : LinkedSite rootUrl} {url : Str} {found : List Str}
    (h : site.links url = some found) : site.successors url = found := by
  rw [LinkedSite.successors, h, Option.getD_some]

theorem parses_of_successor {site : LinkedSite rootUrl} {url link : Str}
    (h : link ∈ site.successors url) : Parses link ∧ Parses rootUrl := by
  unfold LinkedSite.successors at h
  cases hlinks : site.links url with
  | none =>
    rw [hlinks] at h
    exact absurd h List.not_mem_nil
  | some found =>
    rw [hlinks] at h
    obtain ⟨root, parts, hroot, hparts, -⟩ := site.sameOrigin url found hlinks link h
    exact ⟨⟨parts, hparts⟩, root, hroot⟩

/-- A guarded URL that the search came across tells that the root parses. -/
theorem parses_root {c : PersonaCrawler} {site : LinkedSite rootUrl} {url : Str}
    (hmet : Met (c.Visitable site) site.successors rootUrl url) (hguarded : c.Guarded url) :
    Parses rootUrl := by
  rcases hmet with rfl | ⟨v, -, hlink⟩
  · exact parses_of_allows hguarded.1
  · exact (parses_of_successor hlink).2

/-- A page the browser loaded is one of the site. -/
theorem LinkedSite.ShownBy.page {site : LinkedSite rootUrl} {browser : Browser}
    (hshown : site.ShownBy browser) {n : Nat} {url : Str} {page : Page}
    (hload : (browser n url).outcome = .ok page) (hroot : Parses rootUrl) :
    ∃ found, site.links url = some found ∧ extractSameOriginLinks page rootUrl = .ok found ∧
      ∃ forms, extractForms page rootUrl = .ok forms ∧ ∀ form ∈ forms, Parses form.2 := by
  cases hlinks : site.links url with
  | none =>
    obtain ⟨msg, hmsg⟩ := hshown.fails n url hlinks
    exact nomatch hload.symm.trans hmsg
  | some found =>
    obtain ⟨page', hpage, hparse⟩ := hshown.loads n url found hlinks
    obtain rfl := Except.ok.inj (hload.symm.trans hpage)
    obtain ⟨root, hroot⟩ := hroot
    exact ⟨found, rfl, hparse root hroot⟩

theorem crawlStep_searching {c : PersonaCrawler} {site : LinkedSite rootUrl} {browser : Browser}
    (hshown : site.ShownBy browser) {s : CrawlState} (h : c.Searching site s)
    (hrunning : c.running s = true) : c.Searching site (c.crawlStep browser s) := by
  simp only [PersonaCrawler.running, Bool.and_eq_true, decide_eq_true_eq, bne_iff_ne,
    Option.isNone_iff_eq_none] at hrunning
  obtain ⟨⟨hnone, hne⟩, hpages⟩ := hrunning
  obtain ⟨url, rest, hqueue⟩ := List.exists_cons_of_ne_nil hne
  have hfrontier := h.frontier
  rw [hqueue] at hfrontier
  have hmet : Met (c.Visitable site) site.successors rootUrl url :=
    hfrontier.met url List.mem_cons_self
  have hunraised : ∀ e, s.raised = some e → ∃ url, Met (c.Visitable site) site.successors rootUrl url ∧
      c.scopeGuard.evaluate "GET".toList url = .error e := h.raised
  have hroot : ∀ recording : Recording, recording.head = s.recording.head →
      recording.surface.rootUrl = rootUrl := fun r hr => (congrArg Prod.fst hr).trans h.root
  have htakes := crawlStep_takes c browser hqueue
  generalize c.crawlStep browser s = t at htakes ⊢
  cases htakes with
  | skip hhead hskip =>
    exact ⟨hfrontier.skip (hskip.imp_right fun hn hv => hn hv.1), h.limit, hroot _ hhead, hunraised⟩
  | @refuse e hraise =>
    have hstop : ¬ c.Visitable site url := by
      rintro ⟨⟨hallows, -⟩, -⟩
      rw [ScopeGuard.allows, hraise] at hallows
      exact Bool.false_ne_true hallows
    refine ⟨hfrontier.skip (Or.inr hstop), h.limit, h.root, fun e' he' => ⟨url, hmet, ?_⟩⟩
    rw [hraise, Option.some.inj he']
  | @fail recording msg hhead hnew hguarded hload =>
    have hstop : ¬ c.Visitable site url := by
      rintro ⟨-, hloads⟩
      obtain ⟨found, hlinks⟩ := Option.isSome_iff_exists.mp hloads
      obtain ⟨page, hpage, -⟩ := hshown.loads s.gotos.length url found hlinks
      cases hload.symm.trans hpage
    exact ⟨hfrontier.skip (Or.inr hstop), h.limit, hroot _ hhead, hunraised⟩
  | @«break» recording page e hhead hnew hguarded hload habsorb =>
    obtain ⟨found, hlinks, hextract, hforms⟩ := hshown.page hload (parses_root hmet hguarded)
    rw [h.root] at habsorb
    exact absurd ⟨parses_of_allows hguarded.1, ⟨found, hextract⟩, hforms⟩ habsorb
  | @load recording page links hhead hnew hguarded hload hextracted =>
    obtain ⟨found, hlinks, hextract, -⟩ := hshown.page hload (parses_root hmet hguarded)
    rw [h.root] at hextracted
    obtain rfl := Except.ok.inj (hextract.symm.trans hextracted)
    have hsucc : site.successors url = found := successors_of_links hlinks
    have hparse : ∀ link ∈ found, Parses link := by
      intro link hlink
      rw [← hsucc] at hlink
      exact (parses_of_successor hlink).1
    have hcomplete := followLinks_complete c hparse
      { s.went url rest (browser s.gotos.length url).chain recording with
        visited := s.visited ++ [url] }
    have hsame := followLinks_sameVisits c found
      { s.went url rest (browser s.gotos.length url).chain recording with
        visited := s.visited ++ [url] }
    obtain ⟨hraised, hkept, hadded⟩ := hcomplete
    constructor
    case frontier =>
      rw [hsame.visited]
      refine hfrontier.visit hnew ⟨hguarded, by rw [hlinks]; rfl⟩ hkept (fun v hv => ?_) fun v hv hvis => ?_
      · exact (followLinks_queue c found _ v hv).imp_right fun hlink => hsucc ▸ hlink.1
      · exact hadded v (hsucc ▸ hv) hvis.1.2
    case limit =>
      rw [hsame.visited, List.length_append, List.length_singleton]
      exact hpages
    case root => exact (congrArg Prod.fst (followLinks_head c found _)).trans (hroot _ hhead)
    case raised =>
      rw [hraised]
      exact hunraised

/-- **The crawl visits the reachable surface**, all of it if `max_pages`
allows and else as many pages of it as allowed. It comes back unless the
scope guard raises on a URL it comes across. -/
theorem crawl_visits_reachable (c : PersonaCrawler) (site : LinkedSite rootUrl) {browser : Browser}
    (hshown : site.ShownBy browser) (personaId : Str) :
    (∀ e, c.crawl browser rootUrl personaId = .error e →
      ∃ url, Met (c.Visitable site) site.successors rootUrl url ∧
        c.scopeGuard.evaluate "GET".toList url = .error e) ∧
    ∀ surface, c.crawl browser rootUrl personaId = .ok surface →
      let visited := {url | url ∈ (c.crawlState browser rootUrl personaId).visited}
      surface.pagesVisited = visited.encard ∧ visited ⊆ c.ReachableSurface site ∧
        visited.encard = min (c.maxPages : ℕ∞) (c.ReachableSurface site).encard ∧
        ((c.ReachableSurface site).encard ≤ c.maxPages → visited = c.ReachableSurface site) := by
  obtain ⟨h, hstop⟩ := crawlState_invariant (Searching.start c site personaId)
    fun k hrunning hk => crawlStep_searching hshown hk hrunning
  unfold PersonaCrawler.crawl
  dsimp only
  generalize c.crawlState browser rootUrl personaId = s at h hstop ⊢
  cases hraised : s.raised with
  | some e =>
    refine ⟨fun e' he' => ?_, fun surface hsurface => by cases hsurface⟩
    rw [← Except.error.inj he']
    exact h.raised e hraised
  | none =>
    refine ⟨fun e he => absurd he (by simp), fun surface hsurface => ?_⟩
    obtain rfl := Except.ok.inj hsurface
    have hend : s.queue = [] ∨ s.visited.length = c.maxPages := by
      simp only [PersonaCrawler.running, hraised, Option.isNone_none, Bool.true_and,
        Bool.and_eq_false_iff, bne_eq_false_iff_eq, decide_eq_false_iff_not] at hstop
      have hlimit := h.limit
      exact hstop.imp_right fun hfull => by omega
    exact ⟨h.frontier.encard_visited.symm, h.frontier.subset, h.frontier.encard_eq_min h.limit hend,
      h.frontier.eq_of_le h.limit hend⟩

/-! ## A site shown page by page -/

/-- The browser on a site of links: every page is its links. -/
def LinkedSite.browse (site : LinkedSite rootUrl) : Browser := fun _ url =>
  { chain := []
    outcome := match site.links url with
      | none => .error "net::ERR_CONNECTION_REFUSED".toList
      | some found => .ok ⟨some (found.map fun link => ⟨link, []⟩), some []⟩ }

theorem LinkedSite.shownBy_browse (site : LinkedSite rootUrl) : site.ShownBy site.browse where
  fails n url hlinks := ⟨_, by rw [LinkedSite.browse, hlinks]⟩
  loads n url found hlinks := by
    refine ⟨⟨some (found.map fun link => ⟨link, []⟩), some []⟩, by rw [LinkedSite.browse, hlinks], ?_⟩
    intro root hroot
    constructor
    · have heach : List.Forall₂ (fun (anchor : Anchor) made => (do
          let parts ← urlsplit anchor.href
          return if parts.scheme ∈ ["http".toList, "https".toList] ∧ parts.netloc = root.netloc
            then some (partition '#' anchor.href).1 else none) = Except.ok made)
          (found.map fun link => ⟨link, []⟩) (found.map some) := by
        rw [List.forall₂_map_left_iff, List.forall₂_map_right_iff, List.forall₂_same]
        intro link hlink
        obtain ⟨root', parts, hroot', hparts, hscheme, hnetloc, hfragment⟩ :=
          site.sameOrigin url found hlinks link hlink
        obtain rfl := Except.ok.inj (hroot.symm.trans hroot')
        refine bind_eq_ok.mpr ⟨parts, hparts, ?_⟩
        rw [if_pos ⟨hscheme, hnetloc⟩, partition_of_not_mem hfragment]
        rfl
      refine bind_eq_ok.mpr ⟨root, hroot, bind_eq_ok.mpr ⟨_, mapM_eq_ok.mpr heach, ?_⟩⟩
      simp [pure, Except.pure]
    · exact ⟨[], bind_eq_ok.mpr ⟨root, hroot, rfl⟩, by simp⟩

omit [PyRuntime] in
/-- The three links of the site below are links of its origin. -/
theorem cyclicSite_sameOrigin :
    let _ := PyRuntime.ascii
    ∀ path ∈ ["/".toList, "/a".toList, "/b".toList],
      IsExtractedLink "https://app.acme.test/".toList ("https://app.acme.test".toList ++ path) := by
  intro runtime path hpath
  have hroot : urlsplit "https://app.acme.test/".toList =
      .ok ⟨"https".toList, "app.acme.test".toList, "/".toList, [], []⟩ := by decide +kernel
  have hlink : ∀ path ∈ ["/".toList, "/a".toList, "/b".toList],
      urlsplit ("https://app.acme.test".toList ++ path) =
          .ok ⟨"https".toList, "app.acme.test".toList, path, [], []⟩ ∧
        '#' ∉ "https://app.acme.test".toList ++ path := by decide +kernel
  exact ⟨_, _, hroot, (hlink path hpath).1, List.mem_cons_of_mem _ (List.mem_singleton_self _), rfl,
    (hlink path hpath).2⟩

/-- A root that links to itself, to a page that links back, and to one that
does not load. -/
def cyclicLinks (url : Str) : Option (List Str) :=
  if url = "https://app.acme.test/".toList then
    some (["/".toList, "/a".toList, "/b".toList].map ("https://app.acme.test".toList ++ ·))
  else if url = "https://app.acme.test/a".toList then
    some (["/".toList].map ("https://app.acme.test".toList ++ ·))
  else none

omit [PyRuntime] in
/-- The site of these links. -/
def cyclicSite : let _ := PyRuntime.ascii; LinkedSite "https://app.acme.test/".toList :=
  let _ := PyRuntime.ascii
  { links := cyclicLinks
    sameOrigin := by
      intro url found hfound link hlink
      unfold cyclicLinks at hfound
      split at hfound
      · rw [← Option.some.inj hfound] at hlink
        obtain ⟨path, hpath, rfl⟩ := List.mem_map.mp hlink
        exact cyclicSite_sameOrigin path hpath
      · split at hfound
        · rw [← Option.some.inj hfound] at hlink
          obtain ⟨path, hpath, rfl⟩ := List.mem_map.mp hlink
          rw [List.mem_singleton.mp hpath]
          exact cyclicSite_sameOrigin "/".toList List.mem_cons_self
        · exact nomatch hfound }

omit [PyRuntime] in
/-- The crawl of the site comes back with the two pages that load, which are
all of its reachable surface. -/
theorem cyclicSite_crawl :
    let _ := PyRuntime.ascii
    ∃ surface, acmeCrawler.crawl cyclicSite.browse "https://app.acme.test/".toList
        "alice".toList = .ok surface ∧ surface.pagesVisited = 2 ∧
      (acmeCrawler.ReachableSurface cyclicSite).encard = 2 := by
  intro runtime
  have hend : acmeCrawler.crawlState cyclicSite.browse "https://app.acme.test/".toList "alice".toList =
      acmeCrawler.iterate cyclicSite.browse 4 (.start "https://app.acme.test/".toList "alice".toList) :=
    crawlLoop_eq_iterate (by decide +kernel)
  have hraised : (acmeCrawler.crawlState cyclicSite.browse "https://app.acme.test/".toList
      "alice".toList).raised = none := by
    rw [hend]
    decide +kernel
  have hpages : (acmeCrawler.crawlState cyclicSite.browse "https://app.acme.test/".toList
      "alice".toList).visited.length = 2 := by
    rw [hend]
    decide +kernel
  have hcrawl := crawl_eq_ok hraised
  obtain ⟨hcount, -, hmin, -⟩ := (crawl_visits_reachable acmeCrawler cyclicSite
    cyclicSite.shownBy_browse "alice".toList).2 _ hcrawl
  refine ⟨_, hcrawl, hpages, ?_⟩
  dsimp only at hcount hmin
  rw [← hcount, hpages] at hmin
  rcases min_choice (acmeCrawler.maxPages : ℕ∞) (acmeCrawler.ReachableSurface cyclicSite).encard
    with hlimit | hall
  · rw [hlimit] at hmin
    exact absurd hmin (by decide)
  · exact (hmin.trans hall).symm

end Sentinel.Crawler
