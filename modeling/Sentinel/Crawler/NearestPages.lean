/-
Sentinel.Crawler.NearestPages — which pages a crawl visits first.

`queue.pop(0)` takes the oldest link, and new links are appended, so a site
is searched level by level. The pages are visited in the order of the
clicks they are away from the root, and a crawl that `max_pages` ends has
left out none that is nearer than one it has visited.
-/
import Sentinel.Crawler.Reachability
import Sentinel.Search.BreadthFirst

namespace Sentinel.Crawler

open Sentinel.Py Sentinel.Core Sentinel.Search

variable [PyRuntime] {rootUrl : Str}

/-- The links of a page are put behind the queue. -/
theorem followLinks_appends (c : PersonaCrawler) (links : List Str) (s : CrawlState) :
    ∃ added, (c.followLinks s links).queue = s.queue ++ added ∧ ∀ link ∈ added, link ∈ links := by
  induction links generalizing s with
  | nil => exact ⟨[], (List.append_nil _).symm, fun _ h => absurd h List.not_mem_nil⟩
  | cons link rest ih =>
    -- the rest of the links, when nothing is put behind the queue for this one
    have hrest : ∀ t : CrawlState, t.queue = s.queue →
        ∃ added, (c.followLinks t rest).queue = s.queue ++ added ∧
          ∀ l ∈ added, l ∈ link :: rest := by
      intro t ht
      obtain ⟨added, hqueue, honly⟩ := ih t
      exact ⟨added, ht ▸ hqueue, fun l hl => List.mem_cons_of_mem link (honly l hl)⟩
    have hnone : ∃ added, s.queue = s.queue ++ added ∧ ∀ l ∈ added, l ∈ link :: rest :=
      ⟨[], (List.append_nil _).symm, fun _ h => absurd h List.not_mem_nil⟩
    unfold PersonaCrawler.followLinks
    split
    · cases c.destructiveGuard.check "GET".toList link with
      | error e => exact hnone
      | ok check =>
        dsimp only
        split
        · cases s.recording.recordEndpoint "GET".toList link .link with
          | error e => exact hnone
          | ok recording => exact hrest { s with recording := recording } rfl
        · obtain ⟨added, hqueue, honly⟩ := ih { s with queue := s.queue ++ [link] }
          refine ⟨link :: added, ?_, fun l hl => ?_⟩
          · rw [hqueue, List.append_assoc]
            rfl
          · rcases List.mem_cons.mp hl with rfl | hl
            · exact List.mem_cons_self
            · exact List.mem_cons_of_mem link (honly l hl)
    · exact hrest s rfl

/-- The page is this many clicks away from the root, through pages that the
guards allow and that load. -/
abbrev PersonaCrawler.Clicks (c : PersonaCrawler) (site : LinkedSite rootUrl) (n : ℕ) (url : Str) :
    Prop := Steps (c.Visitable site) site.successors rootUrl n url

/-- The one page is not more clicks away than the other. -/
def PersonaCrawler.NoFarther (c : PersonaCrawler) (site : LinkedSite rootUrl) (u v : Str) : Prop :=
  ∀ n, c.Clicks site n v → ∃ m ≤ n, c.Clicks site m u

theorem mem_reachableSurface_iff {c : PersonaCrawler} {site : LinkedSite rootUrl} {url : Str} :
    url ∈ c.ReachableSurface site ↔ ∃ n, c.Clicks site n url := reachable_iff_steps

/-- An iteration of the search goes level by level. -/
theorem crawlStep_inLayers {c : PersonaCrawler} {site : LinkedSite rootUrl} {browser : Browser}
    (hshown : site.ShownBy browser) {s : CrawlState} (hsearch : c.Searching site s)
    (h : InLayers (c.Visitable site) site.successors rootUrl s.visited s.queue)
    (hrunning : c.running s = true) :
    InLayers (c.Visitable site) site.successors rootUrl (c.crawlStep browser s).visited
      (c.crawlStep browser s).queue := by
  have hnonempty : s.queue ≠ [] := by
    intro hempty
    simp [PersonaCrawler.running, hempty] at hrunning
  obtain ⟨url, rest, hqueue⟩ := List.exists_cons_of_ne_nil hnonempty
  have hmet : Met (c.Visitable site) site.successors rootUrl url :=
    hsearch.frontier.met url (hqueue ▸ List.mem_cons_self)
  rw [hqueue] at h
  have htakes := crawlStep_takes c browser hqueue
  generalize c.crawlStep browser s = t at htakes ⊢
  cases htakes with
  | skip hhead hskip => exact h.skip (hskip.imp_right fun hn hv => hn hv.1)
  | @refuse e hraise =>
    refine h.skip (.inr ?_)
    rintro ⟨⟨hallows, -⟩, -⟩
    rw [ScopeGuard.allows, hraise] at hallows
    cases hallows
  | @fail recording msg hhead hnew hguarded hload =>
    refine h.skip (.inr ?_)
    rintro ⟨-, hloads⟩
    obtain ⟨found, hlinks⟩ := Option.isSome_iff_exists.mp hloads
    obtain ⟨page, hpage, -⟩ := hshown.loads s.gotos.length url found hlinks
    cases hload.symm.trans hpage
  | @«break» recording page e hhead hnew hguarded hload habsorb =>
    obtain ⟨found, hlinks, hextract, hforms⟩ := hshown.page hload (parses_root hmet hguarded)
    rw [hsearch.root] at habsorb
    exact absurd ⟨parses_of_allows hguarded.1, ⟨found, hextract⟩, hforms⟩ habsorb
  | @load recording page links hhead hnew hguarded hload hextracted =>
    obtain ⟨found, hlinks, hextract, -⟩ := hshown.page hload (parses_root hmet hguarded)
    rw [hsearch.root] at hextracted
    obtain rfl := Except.ok.inj (hextract.symm.trans hextracted)
    have hsucc : site.successors url = found := successors_of_links hlinks
    have hparse : ∀ link ∈ found, Parses link := by
      intro link hlink
      rw [← hsucc] at hlink
      exact (parses_of_successor hlink).1
    have hcomplete := followLinks_complete c hparse
      { s.went url rest (browser s.gotos.length url).chain recording with
        visited := s.visited ++ [url] }
    have hsame := followLinks_sameVisits c found
      { s.went url rest (browser s.gotos.length url).chain recording with
        visited := s.visited ++ [url] }
    obtain ⟨added, hadded, honly⟩ := followLinks_appends c found
      { s.went url rest (browser s.gotos.length url).chain recording with
        visited := s.visited ++ [url] }
    obtain ⟨-, -, hall⟩ := hcomplete
    rw [hsame.visited]
    rw [hadded] at hall ⊢
    refine h.visit hnew ⟨hguarded, by rw [hlinks]; rfl⟩ (fun v hv => hsucc ▸ honly v hv) ?_
    intro v hv hvis
    exact hall v (hsucc ▸ hv) hvis.1.2

/-- **Nearest pages first.** A crawl visits pages in the order of the clicks
they are away from the root; and no page of the reachable surface that it
has left out, because of `max_pages` or an exception, is nearer than one it
has visited. -/
theorem crawl_nearest_first (c : PersonaCrawler) (site : LinkedSite rootUrl) {browser : Browser}
    (hshown : site.ShownBy browser) (personaId : Str) :
    let visited := (c.crawlState browser rootUrl personaId).visited
    visited.Pairwise (c.NoFarther site) ∧
      ∀ u ∈ visited, ∀ v ∈ c.ReachableSurface site, v ∉ visited → c.NoFarther site u v := by
  let inv : CrawlState → Prop := fun s => c.Searching site s ∧
    InLayers (c.Visitable site) site.successors rootUrl s.visited s.queue
  have hstart : inv (.start rootUrl personaId) := ⟨Searching.start c site personaId, .initial⟩
  have hinv : inv (c.crawlState browser rootUrl personaId) :=
    (crawlState_invariant hstart fun k hrunning hk =>
      ⟨crawlStep_searching hshown hk.1 hrunning, crawlStep_inLayers hshown hk.1 hk.2 hrunning⟩).1
  obtain ⟨-, h⟩ := hinv
  exact ⟨h.sorted, fun u hu v _ hv => h.nearest hu hv⟩

omit [PyRuntime] in
/-- The crawl of the cyclic site, if one page is all it may visit. -/
theorem cyclicSite_nearest :
    let _ := PyRuntime.ascii
    let c : PersonaCrawler := { acmeCrawler with maxPages := 1 }
    ∀ u ∈ (c.crawlState cyclicSite.browse "https://app.acme.test/".toList "alice".toList).visited,
      ∀ v ∈ c.ReachableSurface cyclicSite, v ≠ u → c.NoFarther cyclicSite u v := by
  intro runtime c u hu v hv hne
  refine (crawl_nearest_first c cyclicSite cyclicSite.shownBy_browse "alice".toList).2 u hu v hv ?_
  have hend : c.crawlState cyclicSite.browse "https://app.acme.test/".toList "alice".toList =
      c.iterate cyclicSite.browse 1 (.start "https://app.acme.test/".toList "alice".toList) :=
    crawlLoop_eq_iterate (by decide +kernel)
  have hvisited : (c.crawlState cyclicSite.browse "https://app.acme.test/".toList
      "alice".toList).visited = ["https://app.acme.test/".toList] := by
    rw [hend]
    decide +kernel
  rw [hvisited] at hu ⊢
  rw [List.mem_singleton.mp hu] at hne
  exact fun hmem => hne (List.mem_singleton.mp hmem)

end Sentinel.Crawler
