/-
Sentinel.Crawler.CrawlBounds — how long a crawl runs, and what it asks for
more than once.

An iteration takes one URL off the queue and puts at most the links of one
loaded page on it, so the iterations and the queue together never outgrow
the links seen (`crawl_bounds`). That holds on every site, also where
`max_pages` is never reached. The crawl comes back exactly if nothing on its
way makes `urlsplit` or `re` raise (`crawlWithinBounds_iff`). A URL that
loads is not asked for again; one that does not load is forgotten, and is
asked for again when a page loaded later links to it.
-/
import Sentinel.Crawler.CrawlerTheorems
import Mathlib.Algebra.GroupWithZero.Nat
import Mathlib.Data.List.ReduceOption
import Mathlib.Data.Nat.Find

namespace Sentinel.Crawler

open Sentinel.Py Sentinel.Core

/-! ## The pages of a crawl -/

/-- The URLs given to `page.goto`, in order. -/
def CrawlState.wentTo (s : CrawlState) : List Str := s.gotos.filterMap List.head?

/-- The page the n-th `page.goto` loaded, with its URL. -/
def loadedPage (browser : Browser) (n : Nat) (documents : List Str) : Option (Str × Page) :=
  match documents with
  | [] => none
  | url :: _ =>
      match (browser n url).outcome with
      | .error _ => none
      | .ok page => some (url, page)

/-- The pages a crawl has loaded, in order. -/
def CrawlState.loadedPages (s : CrawlState) (browser : Browser) : List (Str × Page) :=
  (s.gotos.mapIdx (loadedPage browser)).reduceOption

variable [PyRuntime]

/-- How many links the crawler finds on a page. -/
def linkCount (rootUrl : Str) (page : Page) : Nat :=
  match extractSameOriginLinks page rootUrl with
  | .error _ => 0
  | .ok links => links.length

/-- How many links there are on the loaded pages. -/
def CrawlState.linksSeen (s : CrawlState) (browser : Browser) : Nat :=
  ((s.loadedPages browser).map fun loaded => linkCount s.recording.surface.rootUrl loaded.2).sum

omit [PyRuntime] in
theorem wentTo_went (s : CrawlState) (url : Str) (rest chain : List Str) (recording : Recording) :
    (s.went url rest chain recording).wentTo = s.wentTo ++ [url] := by
  simp [CrawlState.wentTo, CrawlState.went]

omit [PyRuntime] in
/-- One more `page.goto` that fails adds no page. -/
theorem loadedPages_went_error {s : CrawlState} {browser : Browser} {url msg : Str}
    (h : (browser s.gotos.length url).outcome = .error msg) (rest chain : List Str)
    (recording : Recording) :
    (s.went url rest chain recording).loadedPages browser = s.loadedPages browser := by
  unfold CrawlState.loadedPages CrawlState.went
  rw [List.mapIdx_concat, loadedPage, h]
  simp [List.reduceOption_append]

omit [PyRuntime] in
/-- One that loads a page adds it. -/
theorem loadedPages_went_ok {s : CrawlState} {browser : Browser} {url : Str} {page : Page}
    (h : (browser s.gotos.length url).outcome = .ok page) (rest chain : List Str)
    (recording : Recording) :
    (s.went url rest chain recording).loadedPages browser =
      s.loadedPages browser ++ [(url, page)] := by
  unfold CrawlState.loadedPages CrawlState.went
  rw [List.mapIdx_concat, loadedPage, h]
  simp [List.reduceOption_append]

/-- The loop over the links puts no more than the links in the queue. -/
theorem followLinks_length (c : PersonaCrawler) (links : List Str) (s : CrawlState) :
    (c.followLinks s links).queue.length ≤ s.queue.length + links.length := by
  induction links generalizing s with
  | nil => simp [PersonaCrawler.followLinks]
  | cons link rest ih =>
    rw [List.length_cons]
    unfold PersonaCrawler.followLinks
    split
    · cases c.destructiveGuard.check "GET".toList link with
      | error e => simp only [CrawlState.raise]; omega
      | ok check =>
        dsimp only
        split
        · cases s.recording.recordEndpoint "GET".toList link .link with
          | error e => simp only [CrawlState.raise]; omega
          | ok recording =>
            have h := ih { s with recording := recording }
            dsimp only at h ⊢
            omega
        · have h := ih { s with queue := s.queue ++ [link] }
          simp only [List.length_append, List.length_singleton] at h
          omega
    · have h := ih s
      omega

/-! ## The bounds -/

/-- The crawl behind `n` iterations: what is in the queue and what was taken
off it were links of loaded pages, or the root. -/
structure PersonaCrawler.Bounded (c : PersonaCrawler) (browser : Browser) (rootUrl : Str) (n : Nat)
    (s : CrawlState) : Prop where
  root : s.recording.surface.rootUrl = rootUrl
  iterations : n + s.queue.length ≤ 1 + s.linksSeen browser
  pages : s.visited.length ≤ c.maxPages
  nodup : s.visited.Nodup
  loaded : s.visited = (s.loadedPages browser).map Prod.fst

theorem Bounded.start (c : PersonaCrawler) (browser : Browser) (rootUrl personaId : Str) :
    c.Bounded browser rootUrl 0 (.start rootUrl personaId) where
  root := rfl
  iterations := by simp [CrawlState.start]
  pages := Nat.zero_le _
  nodup := List.nodup_nil
  loaded := rfl

/-- One more loaded page adds its links to those seen. -/
theorem linksSeen_append {s t : CrawlState} {browser : Browser} {url : Str} {page : Page}
    (hloaded : t.loadedPages browser = s.loadedPages browser ++ [(url, page)])
    (hroot : t.recording.surface.rootUrl = s.recording.surface.rootUrl) :
    t.linksSeen browser =
      s.linksSeen browser + linkCount s.recording.surface.rootUrl page := by
  unfold CrawlState.linksSeen
  simp [hloaded, hroot]

theorem linksSeen_same {s t : CrawlState} {browser : Browser}
    (hloaded : t.loadedPages browser = s.loadedPages browser)
    (hroot : t.recording.surface.rootUrl = s.recording.surface.rootUrl) :
    t.linksSeen browser = s.linksSeen browser := by
  unfold CrawlState.linksSeen
  rw [hloaded, hroot]

/-- An iteration that visits a page with no more links than it puts in the
queue keeps to the bounds. -/
theorem PersonaCrawler.Bounded.visit {c : PersonaCrawler} {browser : Browser} {rootUrl url : Str} {n : Nat}
    {page : Page} {s t : CrawlState} (h : c.Bounded browser rootUrl n s)
    (hpages : s.visited.length < c.maxPages) (hnew : url ∉ s.visited)
    (hvisited : t.visited = s.visited ++ [url])
    (hloaded : t.loadedPages browser = s.loadedPages browser ++ [(url, page)])
    (hroot : t.recording.surface.rootUrl = rootUrl)
    (hqueue : t.queue.length + 1 ≤
      s.queue.length + linkCount s.recording.surface.rootUrl page) :
    c.Bounded browser rootUrl (n + 1) t where
  root := hroot
  iterations := by
    have hseen := linksSeen_append hloaded (hroot.trans h.root.symm)
    have hbefore := h.iterations
    omega
  pages := by
    rw [hvisited, List.length_append, List.length_singleton]
    exact hpages
  nodup := by
    rw [hvisited]
    exact h.nodup.append (List.nodup_singleton url) (List.disjoint_singleton.mpr hnew)
  loaded := by
    rw [hvisited, hloaded, List.map_append, ← h.loaded]
    rfl

theorem crawlStep_bounded {c : PersonaCrawler} {browser : Browser} {rootUrl : Str} {n : Nat}
    {s : CrawlState} (h : c.Bounded browser rootUrl n s) (hrunning : c.running s = true) :
    c.Bounded browser rootUrl (n + 1) (c.crawlStep browser s) := by
  simp only [PersonaCrawler.running, Bool.and_eq_true, decide_eq_true_eq, bne_iff_ne] at hrunning
  obtain ⟨⟨-, hne⟩, hpages⟩ := hrunning
  obtain ⟨url, rest, hqueue⟩ := List.exists_cons_of_ne_nil hne
  have hlength : s.queue.length = rest.length + 1 := by rw [hqueue, List.length_cons]
  have hcount := h.iterations
  -- every iteration leaves the root of the surface as it is
  have hroot : ∀ recording : Recording, recording.head = s.recording.head →
      recording.surface.rootUrl = rootUrl := fun r hr => (congrArg Prod.fst hr).trans h.root
  have htakes := crawlStep_takes c browser hqueue
  generalize c.crawlStep browser s = t at htakes ⊢
  cases htakes with
  | @skip recording hhead hskip =>
    have hsame : CrawlState.linksSeen { s with queue := rest, recording := recording } browser =
        s.linksSeen browser := linksSeen_same rfl (congrArg Prod.fst hhead)
    exact ⟨hroot _ hhead, by rw [hsame]; dsimp only; omega, h.pages, h.nodup, h.loaded⟩
  | @refuse e hraise =>
    have hsame : (CrawlState.raise { s with queue := rest } e).linksSeen browser =
        s.linksSeen browser := linksSeen_same rfl rfl
    exact ⟨h.root, by rw [hsame]; dsimp only [CrawlState.raise]; omega, h.pages, h.nodup, h.loaded⟩
  | @fail recording msg hhead hnew hguarded hload =>
    have hloaded := loadedPages_went_error hload rest (browser s.gotos.length url).chain recording
    have hsame := linksSeen_same hloaded (congrArg Prod.fst hhead)
    refine ⟨hroot _ hhead, ?_, h.pages, h.nodup, h.loaded.trans (congrArg _ hloaded.symm)⟩
    rw [hsame]
    dsimp only [CrawlState.went]
    omega
  | @«break» recording page e hhead hnew hguarded hload habsorb =>
    have hloaded := loadedPages_went_ok hload rest (browser s.gotos.length url).chain recording
    refine h.visit hpages hnew rfl hloaded (hroot _ hhead) ?_
    dsimp only [CrawlState.raise, CrawlState.went]
    omega
  | @load recording page links hhead hnew hguarded hload hlinks =>
    have hloaded := loadedPages_went_ok hload rest (browser s.gotos.length url).chain recording
    let visited : CrawlState :=
      { s.went url rest (browser s.gotos.length url).chain recording with
        visited := s.visited ++ [url] }
    have hsame := followLinks_sameVisits c links visited
    have hhead' := followLinks_head c links visited
    have hadded := followLinks_length c links visited
    have hlinkCount : linkCount s.recording.surface.rootUrl page = links.length := by
      rw [linkCount, hlinks]
    have hloaded' : (c.followLinks visited links).loadedPages browser =
        s.loadedPages browser ++ [(url, page)] := by
      rw [← hloaded]
      unfold CrawlState.loadedPages
      rw [hsame.gotos]
    have hqueued : (c.followLinks visited links).queue.length + 1 ≤
        s.queue.length + linkCount s.recording.surface.rootUrl page := by
      have hrest : visited.queue.length = rest.length := rfl
      omega
    exact h.visit hpages hnew hsame.visited hloaded' (hroot _ (hhead'.trans hhead)) hqueued

/-- `n` iterations keep to the bounds. -/
theorem iterate_bounded {c : PersonaCrawler} {browser : Browser} {rootUrl personaId : Str} {n : Nat}
    (h : ∀ k < n, c.running (c.iterate browser k (.start rootUrl personaId)) = true) :
    c.Bounded browser rootUrl n (c.iterate browser n (.start rootUrl personaId)) := by
  induction n with
  | zero => exact Bounded.start c browser rootUrl personaId
  | succ n ih =>
    rw [iterate_succ, if_pos (h n (Nat.lt_succ_self n))]
    exact crawlStep_bounded (ih fun k hk => h k (Nat.lt_succ_of_lt hk)) (h n (Nat.lt_succ_self n))

/-- **The crawl loop ends on every site**, after at most one iteration more
than there are links on the pages it has loaded, whatever fails to load. -/
theorem crawl_bounds (c : PersonaCrawler) (browser : Browser) (rootUrl personaId : Str) :
    ∃ n, (∀ k < n, c.running (c.iterate browser k (.start rootUrl personaId)) = true) ∧
      c.running (c.iterate browser n (.start rootUrl personaId)) = false ∧
      c.crawlState browser rootUrl personaId = c.iterate browser n (.start rootUrl personaId) ∧
      c.Bounded browser rootUrl n (c.crawlState browser rootUrl personaId) := by
  have hstops := crawlLoop_iterates c browser (.start rootUrl personaId)
  have hstop := Nat.find_spec hstops
  have hbefore : ∀ k < Nat.find hstops,
      c.running (c.iterate browser k (.start rootUrl personaId)) = true := by
    intro k hk
    exact Bool.eq_true_of_not_eq_false (Nat.find_min hstops hk)
  have hend : c.crawlState browser rootUrl personaId =
      c.iterate browser (Nat.find hstops) (.start rootUrl personaId) := crawlLoop_eq_iterate hstop
  exact ⟨Nat.find hstops, hbefore, hstop, hend, hend ▸ iterate_bounded hbefore⟩

/-! ## What makes a crawl raise -/

/-- A link that does not parse raises in the check of the guard. -/
theorem followLinks_raised_iff (c : PersonaCrawler) (links : List Str) {s : CrawlState}
    (hnone : s.raised = none) :
    (c.followLinks s links).raised = none ↔
      ∀ link ∈ links, link ∉ s.visited → link ∉ s.queue → Parses link := by
  induction links generalizing s with
  | nil => simp [PersonaCrawler.followLinks, hnone]
  | cons link rest ih =>
    rw [List.forall_mem_cons]
    unfold PersonaCrawler.followLinks
    by_cases hnew : link ∉ s.visited ∧ link ∉ s.queue
    · rw [if_pos hnew]
      cases hcheck : c.destructiveGuard.check "GET".toList link with
      | error e =>
        have hbad : ¬ Parses link := by
          rintro ⟨parts, hparts⟩
          obtain ⟨check, hok⟩ := check_of_urlsplit c.destructiveGuard "GET".toList hparts []
          exact nomatch hcheck.symm.trans hok
        exact ⟨fun h => (nomatch h), fun h => absurd (h.1 hnew.1 hnew.2) hbad⟩
      | ok check =>
        obtain ⟨parts, hparts, -⟩ := bind_eq_ok.mp hcheck
        dsimp only
        split
        · obtain ⟨recording, hrecord⟩ :=
            recordEndpoint_of_urlsplit s.recording "GET".toList hparts .link
          rw [hrecord]
          dsimp only
          rw [ih (s := { s with recording := recording }) hnone]
          exact ⟨fun h => ⟨fun _ _ => ⟨parts, hparts⟩, h⟩, fun h => h.2⟩
        · rw [ih (s := { s with queue := s.queue ++ [link] }) hnone]
          constructor
          · intro h
            refine ⟨fun _ _ => ⟨parts, hparts⟩, fun l hl hvisited hqueue => ?_⟩
            by_cases hlink : l = link
            · exact hlink ▸ ⟨parts, hparts⟩
            · exact h l hl hvisited (by simp [hqueue, hlink])
          · rintro ⟨-, h⟩ l hl hvisited hqueue
            exact h l hl hvisited fun hmem => hqueue (List.mem_append_left _ hmem)
    · rw [if_neg hnew, ih hnone]
      exact ⟨fun h => ⟨fun hv hq => absurd ⟨hv, hq⟩ hnew, h⟩, fun h => h.2⟩

/-- What a visit reads can be parsed. -/
def PersonaCrawler.ReadableVisit (c : PersonaCrawler) (browser : Browser) (s : CrawlState)
    (url : Str) (rest : List Str) : Prop :=
  ∀ page, c.Guarded url → (browser s.gotos.length url).outcome = .ok page →
    Absorbable page s.recording.surface.rootUrl url ∧
    ∀ links, extractSameOriginLinks page s.recording.surface.rootUrl = .ok links →
      ∀ link ∈ links, link ∉ s.visited ++ [url] → link ∉ rest → Parses link

theorem visitUrl_raised_iff (c : PersonaCrawler) (browser : Browser) {s : CrawlState} {url : Str}
    (rest : List Str) (hguarded : c.Guarded url) (hnone : s.raised = none) :
    (c.visitUrl browser { s with queue := rest } url).raised = none ↔
      c.ReadableVisit browser s url rest := by
  unfold PersonaCrawler.visitUrl PersonaCrawler.ReadableVisit
  dsimp only
  have hhead : (c.recordNetwork (c.recordNetwork s.recording
      (browser s.gotos.length url).duringAcquire) (browser s.gotos.length url).duringLoad).head =
        s.recording.head := by
    rw [recordNetwork_head, recordNetwork_head]
  generalize c.recordNetwork _ (browser s.gotos.length url).duringLoad = during at hhead ⊢
  have hroot : during.surface.rootUrl = s.recording.surface.rootUrl := congrArg Prod.fst hhead
  cases hload : (browser s.gotos.length url).outcome with
  | error msg =>
    refine ⟨fun _ page _ h => ?_, fun _ => hnone⟩
    cases h
  | ok page =>
    obtain ⟨recording, -, hcases⟩ := absorbPage_cases c
      (s.went url rest (browser s.gotos.length url).chain during) url
      (browser s.gotos.length url) page
    simp only [CrawlState.went] at hcases
    rw [hroot] at hcases
    dsimp only
    rcases hcases with ⟨e, habsorb, hraise⟩ | ⟨links, habsorb, hlinks, hfollow⟩
    · rw [hraise]
      refine ⟨fun h => ?_, fun h => absurd (h page hguarded rfl).1 habsorb⟩
      cases h
    · have hfollowed := followLinks_raised_iff c links (s := { s with
        queue := rest, visited := s.visited ++ [url], recording := recording
        gotos := s.gotos ++ [url :: (browser s.gotos.length url).chain]
        acquired := s.acquired + 1 }) hnone
      rw [hfollow, hfollowed]
      constructor
      · rintro h page' - hpage
        obtain rfl := Except.ok.inj hpage
        refine ⟨habsorb, fun links' hlinks' => ?_⟩
        obtain rfl := Except.ok.inj (hlinks.symm.trans hlinks')
        exact h
      · intro h
        exact (h page hguarded rfl).2 links hlinks

/-- Nothing in the next iteration raises: neither the scope guard on its
URL nor `urlsplit` on what stands on its page. -/
def PersonaCrawler.Untroubled (c : PersonaCrawler) (browser : Browser) (s : CrawlState) : Prop :=
  ∀ url rest, s.queue = url :: rest → url ∉ s.visited →
    (∀ e, c.scopeGuard.evaluate "GET".toList url ≠ .error e) ∧ c.ReadableVisit browser s url rest

/-- An iteration raises nothing exactly where nothing in it can. -/
theorem crawlStep_raised_iff (c : PersonaCrawler) (browser : Browser) {s : CrawlState} {url : Str}
    {rest : List Str} (hqueue : s.queue = url :: rest) (hnone : s.raised = none) :
    (c.crawlStep browser s).raised = none ↔ c.Untroubled browser s := by
  have hhere : c.Untroubled browser s ↔ (url ∉ s.visited →
      (∀ e, c.scopeGuard.evaluate "GET".toList url ≠ .error e) ∧
        c.ReadableVisit browser s url rest) := by
    constructor
    · exact fun h => h url rest hqueue
    · intro h url' rest' hqueue'
      obtain ⟨rfl, rfl⟩ := List.cons.inj (hqueue.symm.trans hqueue')
      exact h
  rw [hhere]
  unfold PersonaCrawler.crawlStep
  rw [hqueue]
  dsimp only
  rcases processUrl_cases c browser { s with queue := rest } url with
    ⟨hnew, hguarded, hvisit⟩ | ⟨hskip, -, -⟩
  · have hreturns : ∀ e, c.scopeGuard.evaluate "GET".toList url ≠ .error e := by
      intro e he
      have hallows := hguarded.1
      rw [ScopeGuard.allows, he] at hallows
      exact Bool.false_ne_true hallows
    rw [hvisit, visitUrl_raised_iff c browser rest hguarded hnone]
    exact ⟨fun h _ => ⟨hreturns, h⟩, fun h => (h hnew).2⟩
  · unfold PersonaCrawler.processUrl
    by_cases hvisited : url ∈ s.visited
    · rw [if_pos hvisited]
      exact ⟨fun _ hn => absurd hvisited hn, fun _ => hnone⟩
    · rw [if_neg hvisited]
      have hstop : ¬ c.Guarded url := hskip.resolve_left hvisited
      have hunread : c.ReadableVisit browser s url rest := fun _ hguarded => absurd hguarded hstop
      cases hevaluate : c.scopeGuard.evaluate "GET".toList url with
      | error e => exact ⟨fun h => (nomatch h), fun h => absurd rfl ((h hvisited).1 e)⟩
      | ok decision =>
        refine ⟨fun _ _ => ⟨fun e he => (nomatch he), hunread⟩, fun _ => ?_⟩
        dsimp only
        cases hallowed : decision.allowed with
        | false => exact hnone
        | true =>
          have hallows : c.scopeGuard.allows "GET".toList url = true := by
            rw [ScopeGuard.allows, hevaluate]
            exact hallowed
          obtain ⟨parts, hparts⟩ := parses_of_allows hallows
          obtain ⟨check, hcheck⟩ := check_of_urlsplit c.destructiveGuard "GET".toList hparts []
          rw [hcheck]
          dsimp only
          cases hsuspect : check.isSuspect with
          | true => exact hnone
          | false =>
            exact absurd ⟨hallows, (clears_iff _ _ _ _).mpr ⟨check, hcheck, hsuspect⟩⟩ hstop

/-- A crawl raises nothing exactly where none of its iterations can. -/
theorem crawlState_raised_iff (c : PersonaCrawler) (browser : Browser) (rootUrl personaId : Str) :
    (c.crawlState browser rootUrl personaId).raised = none ↔
      ∀ k, c.running (c.iterate browser k (.start rootUrl personaId)) = true →
        c.Untroubled browser (c.iterate browser k (.start rootUrl personaId)) := by
  obtain ⟨n, hbefore, hstop, hend, -⟩ := crawl_bounds c browser rootUrl personaId
  -- a running crawl has raised nothing and has a URL to take
  have hrunning : ∀ s : CrawlState, c.running s = true →
      s.raised = none ∧ ∃ url rest, s.queue = url :: rest := by
    intro s hs
    simp only [PersonaCrawler.running, Bool.and_eq_true, bne_iff_ne,
      Option.isNone_iff_eq_none] at hs
    exact ⟨hs.1.1, List.exists_cons_of_ne_nil hs.1.2⟩
  rw [hend]
  constructor
  · intro hnone k hk
    obtain ⟨hnone', url, rest, hqueue⟩ := hrunning _ hk
    by_contra htrouble
    have hraised : (c.iterate browser (k + 1) (.start rootUrl personaId)).raised ≠ none := by
      rw [iterate_succ, if_pos hk]
      exact fun h => htrouble ((crawlStep_raised_iff c browser hqueue hnone').mp h)
    have hstopped : c.running (c.iterate browser (k + 1) (.start rootUrl personaId)) = false := by
      rw [Bool.eq_false_iff]
      exact fun h => hraised (hrunning _ h).1
    have hlast : k + 1 ≤ n := by
      by_contra hlt
      rw [iterate_of_stopped hstop (show n ≤ k by omega), hstop] at hk
      exact Bool.false_ne_true hk
    rw [iterate_of_stopped hstopped hlast] at hnone
    exact hraised hnone
  · intro huntroubled
    cases n with
    | zero => rfl
    | succ n =>
      have hlast := hbefore n (Nat.lt_succ_self n)
      obtain ⟨hnone, url, rest, hqueue⟩ := hrunning _ hlast
      rw [iterate_succ, if_pos hlast]
      exact (crawlStep_raised_iff c browser hqueue hnone).mpr (huntroubled n hlast)

/-- The crawl comes back within the bounds: it takes at most one iteration
more than there are links on the pages it visited, these are at most
`max_pages` and all different, and their number is what it reports. -/
structure PersonaCrawler.WithinBounds (c : PersonaCrawler) (browser : Browser)
    (rootUrl personaId : Str) : Prop where
  iterations : ∃ n, (∀ k < n, c.running (c.iterate browser k (.start rootUrl personaId)) = true) ∧
    c.running (c.iterate browser n (.start rootUrl personaId)) = false ∧
    n ≤ 1 + (c.crawlState browser rootUrl personaId).linksSeen browser
  pages : (c.crawlState browser rootUrl personaId).visited.length ≤ c.maxPages
  once : (c.crawlState browser rootUrl personaId).visited.Nodup
  loaded : (c.crawlState browser rootUrl personaId).visited =
    ((c.crawlState browser rootUrl personaId).loadedPages browser).map Prod.fst
  returns : ∃ surface, c.crawl browser rootUrl personaId = .ok surface ∧
    surface.pagesVisited = (c.crawlState browser rootUrl personaId).visited.dedup.length

/-- **A crawl comes back within its bounds** exactly if nothing it reads
raises: the bounds hold on every site, and the return value is lost only to
an exception of the scope guard or of `urlsplit`. -/
theorem crawlWithinBounds_iff (c : PersonaCrawler) (browser : Browser) (rootUrl personaId : Str) :
    c.WithinBounds browser rootUrl personaId ↔
      ∀ k, c.running (c.iterate browser k (.start rootUrl personaId)) = true →
        c.Untroubled browser (c.iterate browser k (.start rootUrl personaId)) := by
  rw [← crawlState_raised_iff]
  constructor
  · intro h
    obtain ⟨surface, hcrawl, -⟩ := h.returns
    unfold PersonaCrawler.crawl at hcrawl
    dsimp only at hcrawl
    cases hraised : (c.crawlState browser rootUrl personaId).raised with
    | none => rfl
    | some e =>
      rw [hraised] at hcrawl
      exact nomatch hcrawl
  · intro hnone
    obtain ⟨n, hbefore, hstop, -, hbounded⟩ := crawl_bounds c browser rootUrl personaId
    have hcount : n ≤ 1 + (c.crawlState browser rootUrl personaId).linksSeen browser := by
      have h := hbounded.iterations
      omega
    refine ⟨⟨n, hbefore, hstop, hcount⟩, hbounded.pages, hbounded.nodup, hbounded.loaded, _,
      crawl_eq_ok hnone, ?_⟩
    rw [hbounded.nodup.dedup]

/-- A page with one malformed link. -/
def malformedBrowser : Browser := fun _ _ =>
  { chain := [], outcome := .ok ⟨some [⟨"http://[".toList, "Help".toList⟩], some []⟩ }

omit [PyRuntime] in
/-- One malformed link, and the crawl raises instead of coming back. -/
theorem malformedBrowser_raises :
    let _ := PyRuntime.ascii
    ¬ acmeCrawler.WithinBounds malformedBrowser "https://app.acme.test/".toList "alice".toList := by
  intro runtime h
  obtain ⟨surface, hcrawl, -⟩ := h.returns
  unfold PersonaCrawler.crawl PersonaCrawler.crawlState at hcrawl
  have hend : acmeCrawler.crawlLoop malformedBrowser
      (.start "https://app.acme.test/".toList "alice".toList) = acmeCrawler.iterate malformedBrowser 1
        (.start "https://app.acme.test/".toList "alice".toList) :=
    crawlLoop_eq_iterate (by decide +kernel)
  rw [hend] at hcrawl
  have hraised : (acmeCrawler.iterate malformedBrowser 1
      (.start "https://app.acme.test/".toList "alice".toList)).raised =
        some (.valueError "Invalid IPv6 URL".toList) := by decide +kernel
  dsimp only at hcrawl
  rw [hraised] at hcrawl
  exact nomatch hcrawl

/-! ## URLs that are asked for again -/

/-- The links of the next page that the guard clears are not URLs whose
load has failed before. -/
def PersonaCrawler.FailuresForgotten (c : PersonaCrawler) (browser : Browser) (s : CrawlState) :
    Prop :=
  ∀ url rest page links, s.queue = url :: rest → url ∉ s.visited → c.Guarded url →
    (browser s.gotos.length url).outcome = .ok page →
    extractSameOriginLinks page s.recording.surface.rootUrl = .ok links →
    ∀ link ∈ links, c.destructiveGuard.clears "GET".toList link = true →
      link ∈ s.wentTo → link ∈ s.visited

/-- No URL was asked for twice, and none that was asked for waits in the
queue. -/
structure CrawlState.AskedOnce (s : CrawlState) : Prop where
  once : s.wentTo.Nodup
  queue : s.queue.Nodup
  fresh : ∀ url ∈ s.queue, url ∉ s.wentTo

omit [PyRuntime] in
theorem AskedOnce.start (rootUrl personaId : Str) :
    (CrawlState.start rootUrl personaId).AskedOnce where
  once := List.nodup_nil
  queue := List.nodup_singleton rootUrl
  fresh _ _ := List.not_mem_nil

/-- The loop over the links queues each URL once. -/
theorem followLinks_nodup (c : PersonaCrawler) (links : List Str) {s : CrawlState}
    (h : s.queue.Nodup) : (c.followLinks s links).queue.Nodup := by
  induction links generalizing s with
  | nil => exact h
  | cons link rest ih =>
    unfold PersonaCrawler.followLinks
    split
    · next hnew =>
      cases c.destructiveGuard.check "GET".toList link with
      | error e => exact h
      | ok check =>
        dsimp only
        split
        · cases s.recording.recordEndpoint "GET".toList link .link with
          | error e => exact h
          | ok recording => exact ih (s := { s with recording := recording }) h
        · refine ih (s := { s with queue := s.queue ++ [link] }) ?_
          exact h.append (List.nodup_singleton link) (List.disjoint_singleton.mpr hnew.2)
    · exact ih h

theorem crawlStep_askedOnce {c : PersonaCrawler} {browser : Browser} {s : CrawlState}
    (h : s.AskedOnce) (hforgotten : c.FailuresForgotten browser s) (hrunning : c.running s = true) :
    (c.crawlStep browser s).AskedOnce := by
  simp only [PersonaCrawler.running, Bool.and_eq_true, bne_iff_ne] at hrunning
  obtain ⟨url, rest, hqueue⟩ := List.exists_cons_of_ne_nil hrunning.1.2
  obtain ⟨hout, hrest⟩ := List.nodup_cons.mp (hqueue ▸ h.queue)
  have hurl : url ∉ s.wentTo := h.fresh url (hqueue ▸ List.mem_cons_self)
  have hfresh : ∀ u ∈ rest, u ∉ s.wentTo :=
    fun u hu => h.fresh u (hqueue ▸ List.mem_cons_of_mem url hu)
  -- behind a `page.goto` the URL counts as asked for
  have honce : (s.wentTo ++ [url]).Nodup :=
    h.once.append (List.nodup_singleton url) (List.disjoint_singleton.mpr hurl)
  have hfresh' : ∀ u ∈ rest, u ∉ s.wentTo ++ [url] := by
    intro u hu hmem
    rcases List.mem_append.mp hmem with hold | hlast
    · exact hfresh u hu hold
    · exact hout (List.mem_singleton.mp hlast ▸ hu)
  have htakes := crawlStep_takes c browser hqueue
  generalize c.crawlStep browser s = t at htakes ⊢
  cases htakes with
  | skip hhead hskip => exact ⟨h.once, hrest, hfresh⟩
  | refuse hraise => exact ⟨h.once, hrest, hfresh⟩
  | @fail recording msg hhead hnew hguarded hload =>
    have hwent := wentTo_went s url rest (browser s.gotos.length url).chain recording
    exact ⟨by rw [hwent]; exact honce, hrest, by rw [hwent]; exact hfresh'⟩
  | @«break» recording page e hhead hnew hguarded hload habsorb =>
    have hwent := wentTo_went s url rest (browser s.gotos.length url).chain recording
    refine ⟨?_, hrest, ?_⟩
    · show (s.went url rest _ recording).wentTo.Nodup
      rw [hwent]
      exact honce
    · show ∀ u ∈ rest, u ∉ (s.went url rest _ recording).wentTo
      rw [hwent]
      exact hfresh'
  | @load recording page links hhead hnew hguarded hload hlinks =>
    have hsame := followLinks_sameVisits c links
      { s.went url rest (browser s.gotos.length url).chain recording with
        visited := s.visited ++ [url] }
    have hadded := followLinks_queue c links
      { s.went url rest (browser s.gotos.length url).chain recording with
        visited := s.visited ++ [url] }
    have hnodup := followLinks_nodup c links (s :=
      { s.went url rest (browser s.gotos.length url).chain recording with
        visited := s.visited ++ [url] }) hrest
    generalize c.followLinks _ links = t at hsame hadded hnodup ⊢
    have hwent : t.wentTo = s.wentTo ++ [url] := by
      rw [← wentTo_went s url rest (browser s.gotos.length url).chain recording]
      unfold CrawlState.wentTo
      rw [hsame.gotos]
    refine ⟨by rw [hwent]; exact honce, hnodup, fun u hu => ?_⟩
    rw [hwent]
    rcases hadded u hu with hold | ⟨hlink, hunvisited, hclear⟩
    · exact hfresh' u hold
    · intro hmem
      apply hunvisited
      rcases List.mem_append.mp hmem with hasked | hlast
      · have hvisited :=
          hforgotten url rest page links hqueue hnew hguarded hload hlinks u hlink hclear hasked
        exact List.mem_append_left _ hvisited
      · exact List.mem_append_right _ hlast

/-- **No URL is asked for twice** in a crawl none of whose pages links to a
URL that has failed to load before, at any point of the crawl. -/
theorem crawl_asks_once (c : PersonaCrawler) (browser : Browser) (rootUrl personaId : Str)
    (hforgotten : ∀ k, c.running (c.iterate browser k (.start rootUrl personaId)) = true →
      c.FailuresForgotten browser (c.iterate browser k (.start rootUrl personaId))) :
    (∀ n, (c.iterate browser n (.start rootUrl personaId)).wentTo.Nodup) ∧
      (c.crawlState browser rootUrl personaId).wentTo.Nodup := by
  have hall : ∀ n, (c.iterate browser n (.start rootUrl personaId)).AskedOnce := by
    intro n
    induction n with
    | zero => exact AskedOnce.start rootUrl personaId
    | succ n ih =>
      rw [iterate_succ]
      split
      · next hrunning => exact crawlStep_askedOnce ih (hforgotten n hrunning) hrunning
      · exact ih
  obtain ⟨n, -, -, hend, -⟩ := crawl_bounds c browser rootUrl personaId
  exact ⟨fun n => (hall n).once, hend ▸ (hall n).once⟩

/-- A root with two links. The first does not load, and the page behind
the second links to it if `relinks`. -/
def deadLinkBrowser (relinks : Bool) : Browser := fun _ url =>
  { chain := []
    outcome :=
      if url = "https://app.acme.test/".toList then
        .ok ⟨some [⟨"https://app.acme.test/dead".toList, []⟩,
          ⟨"https://app.acme.test/news".toList, []⟩], some []⟩
      else if url = "https://app.acme.test/news".toList then
        .ok ⟨some (if relinks then [⟨"https://app.acme.test/dead".toList, []⟩] else []), some []⟩
      else .error "net::ERR_TIMED_OUT".toList }

omit [PyRuntime] in
/-- Without that link the crawl asks for each of the three URLs once. -/
theorem deadLinkBrowser_once :
    let _ := PyRuntime.ascii
    (acmeCrawler.crawlState (deadLinkBrowser false) "https://app.acme.test/".toList
      "alice".toList).wentTo.Nodup := by
  intro runtime
  refine (crawl_asks_once acmeCrawler (deadLinkBrowser false) "https://app.acme.test/".toList
    "alice".toList ?_).2
  intro k hrunning url rest page links hqueue _ _ hload hlinks link hlink _ hasked
  have hqueues : (acmeCrawler.iterate (deadLinkBrowser false) 1
        (.start "https://app.acme.test/".toList "alice".toList)).queue.head? =
          some "https://app.acme.test/dead".toList ∧
      (acmeCrawler.iterate (deadLinkBrowser false) 2
        (.start "https://app.acme.test/".toList "alice".toList)).queue.head? =
          some "https://app.acme.test/news".toList := by decide +kernel
  have hstop : acmeCrawler.running (acmeCrawler.iterate (deadLinkBrowser false) 3
      (.start "https://app.acme.test/".toList "alice".toList)) = false := by decide +kernel
  have hdead : ∀ n, (deadLinkBrowser false n "https://app.acme.test/dead".toList).outcome =
      .error "net::ERR_TIMED_OUT".toList := fun _ => by rfl
  have hnews : ∀ n, (deadLinkBrowser false n "https://app.acme.test/news".toList).outcome =
      .ok ⟨some [], some []⟩ := fun _ => by rfl
  have hcases : k = 0 ∨ k = 1 ∨ k = 2 ∨ 3 ≤ k := by omega
  rcases hcases with rfl | rfl | rfl | hlate
  · exact absurd hasked List.not_mem_nil
  · rw [hqueue] at hqueues
    rw [Option.some.inj hqueues.1, hdead] at hload
    exact nomatch hload
  · rw [hqueue] at hqueues
    rw [Option.some.inj hqueues.2, hnews] at hload
    obtain ⟨anchor, hanchor, -⟩ := (mem_extractSameOriginLinks hlinks link).mp hlink
    rw [← Except.ok.inj hload] at hanchor
    exact absurd hanchor List.not_mem_nil
  · rw [iterate_of_stopped hstop hlate, hstop] at hrunning
    exact absurd hrunning Bool.false_ne_true

omit [PyRuntime] in
/-- With it the crawl asks for the dead page a second time. -/
theorem deadLinkBrowser_twice :
    let _ := PyRuntime.ascii
    ¬ (acmeCrawler.crawlState (deadLinkBrowser true) "https://app.acme.test/".toList
      "alice".toList).wentTo.Nodup := by
  intro runtime
  have hend : acmeCrawler.crawlState (deadLinkBrowser true) "https://app.acme.test/".toList
      "alice".toList = acmeCrawler.iterate (deadLinkBrowser true) 4
        (.start "https://app.acme.test/".toList "alice".toList) :=
    crawlLoop_eq_iterate (by decide +kernel)
  rw [hend]
  have hasked : (acmeCrawler.iterate (deadLinkBrowser true) 4
      (.start "https://app.acme.test/".toList "alice".toList)).wentTo =
        ["", "dead", "news", "dead"].map fun page => ("https://app.acme.test/" ++ page).toList := by
    decide +kernel
  rw [hasked]
  decide

end Sentinel.Crawler
