/-
Sentinel.Crawler.CrawlerTheorems — which documents a crawl requests, and
which links lead it there.

Every URL given to `page.goto` passed both guards; the redirects behind
it passed none. `crawlStep_documents` says what one iteration requests,
and the loop theorem follows by induction on the iterations. The text of a
link is never looked at: what the guard says of it counts only as far as it
agrees with what the guard says of the URL.
-/
import Sentinel.Crawler.Crawler
import Sentinel.Py.Except

namespace Sentinel.Crawler

open Sentinel.Py Sentinel.Core

variable [PyRuntime]

/-! ## One iteration -/

/-- The documents the next iteration requests. -/
def PersonaCrawler.nextDocuments (c : PersonaCrawler) (browser : Browser) (s : CrawlState) :
    List Str :=
  match s.queue with
  | [] => []
  | url :: _ =>
      if url ∉ s.visited ∧ c.Guarded url then url :: (browser s.gotos.length url).chain else []

theorem crawlStep_documents (c : PersonaCrawler) (browser : Browser) (s : CrawlState) :
    (c.crawlStep browser s).documents = s.documents ++ c.nextDocuments browser s := by
  unfold PersonaCrawler.crawlStep PersonaCrawler.nextDocuments CrawlState.documents
  cases hqueue : s.queue with
  | nil => simp
  | cons url rest =>
    dsimp only
    rcases processUrl_cases c browser { s with queue := rest } url with
      ⟨hnew, hguarded, hvisit⟩ | ⟨hstop, hsame, -⟩
    · rw [hvisit, (visitUrl_spec c browser { s with queue := rest } url).1, if_pos ⟨hnew, hguarded⟩]
      simp
    · have hcond : ¬ (url ∉ s.visited ∧ c.Guarded url) := fun h => hstop.elim h.1 fun hn => hn h.2
      rw [hsame.gotos, if_neg hcond, List.append_nil]

/-- The redirects behind the next URL pass the guards, if the crawler goes
there at all. -/
def PersonaCrawler.ChainGuarded (c : PersonaCrawler) (browser : Browser) (s : CrawlState) : Prop :=
  ∀ url rest, s.queue = url :: rest → url ∉ s.visited → c.Guarded url →
    ∀ next ∈ (browser s.gotos.length url).chain, c.Guarded next

theorem nextDocuments_guarded_iff (c : PersonaCrawler) (browser : Browser) (s : CrawlState) :
    (∀ u ∈ c.nextDocuments browser s, c.Guarded u) ↔ c.ChainGuarded browser s := by
  unfold PersonaCrawler.nextDocuments PersonaCrawler.ChainGuarded
  cases hqueue : s.queue with
  | nil => simp
  | cons url rest =>
    dsimp only
    constructor
    · rintro hall url' rest' heq hnew hguarded next hnext
      obtain ⟨rfl, rfl⟩ := List.cons.inj heq
      rw [if_pos ⟨hnew, hguarded⟩] at hall
      exact hall next (List.mem_cons_of_mem _ hnext)
    · intro hchain u hu
      split at hu
      · next hcond =>
        rcases List.mem_cons.mp hu with rfl | hu
        · exact hcond.2
        · exact hchain url rest rfl hcond.1 hcond.2 u hu
      · simp at hu

/-! ## The loop -/

theorem iterate_succ (c : PersonaCrawler) (browser : Browser) (n : Nat) (s : CrawlState) :
    c.iterate browser (n + 1) s =
      if c.running (c.iterate browser n s) then c.crawlStep browser (c.iterate browser n s)
      else c.iterate browser n s := by
  induction n generalizing s with
  | zero => rfl
  | succ n ih =>
    rw [PersonaCrawler.iterate]
    by_cases hrunning : c.running s = true
    · rw [if_pos hrunning, ih, PersonaCrawler.iterate, if_pos hrunning]
    · have hself : c.iterate browser (n + 1) s = s := by
        rw [PersonaCrawler.iterate, if_neg hrunning]
      rw [if_neg hrunning, hself, if_neg hrunning]

/-- Once the loop has stopped, it stays where it is. -/
theorem iterate_of_stopped {c : PersonaCrawler} {browser : Browser} {n k : Nat} {s : CrawlState}
    (hstop : c.running (c.iterate browser n s) = false) (hk : n ≤ k) :
    c.iterate browser k s = c.iterate browser n s := by
  induction k, hk using Nat.le_induction with
  | base => rfl
  | succ k _ ih => rw [iterate_succ, ih, if_neg (by simp [hstop])]

/-- What holds before the loop and is kept by its iterations holds behind it,
where the loop condition fails. -/
theorem crawlState_invariant {c : PersonaCrawler} {browser : Browser} {rootUrl personaId : Str}
    {inv : CrawlState → Prop} (hstart : inv (.start rootUrl personaId))
    (hstep : ∀ k, c.running (c.iterate browser k (.start rootUrl personaId)) = true →
      inv (c.iterate browser k (.start rootUrl personaId)) →
      inv (c.crawlStep browser (c.iterate browser k (.start rootUrl personaId)))) :
    inv (c.crawlState browser rootUrl personaId) ∧
      c.running (c.crawlState browser rootUrl personaId) = false := by
  have hall : ∀ n, inv (c.iterate browser n (.start rootUrl personaId)) := by
    intro n
    induction n with
    | zero => exact hstart
    | succ n ih =>
      rw [iterate_succ]
      split
      · next hrunning => exact hstep n hrunning ih
      · exact ih
  obtain ⟨n, hstop⟩ := crawlLoop_iterates c browser (.start rootUrl personaId)
  unfold PersonaCrawler.crawlState
  rw [crawlLoop_eq_iterate hstop]
  exact ⟨hall n, hstop⟩

/-- A crawl in which nothing raised comes back. -/
theorem crawl_eq_ok {c : PersonaCrawler} {browser : Browser} {rootUrl personaId : Str}
    (h : (c.crawlState browser rootUrl personaId).raised = none) :
    c.crawl browser rootUrl personaId = .ok
      { (c.recordNetwork (c.crawlState browser rootUrl personaId).recording
          ((c.crawlState browser rootUrl personaId).closing browser)).surface with
        pagesVisited := (c.crawlState browser rootUrl personaId).visited.length } := by
  unfold PersonaCrawler.crawl
  dsimp only
  rw [h]

/-- What `n` iterations request is guarded exactly when each of them found
guarded redirects ahead. -/
theorem iterate_guarded_iff (c : PersonaCrawler) (browser : Browser) (n : Nat) (s : CrawlState) :
    (∀ u ∈ (c.iterate browser n s).documents, c.Guarded u) ↔
      (∀ u ∈ s.documents, c.Guarded u) ∧
        ∀ k < n, c.running (c.iterate browser k s) = true →
          c.ChainGuarded browser (c.iterate browser k s) := by
  induction n with
  | zero => simp [PersonaCrawler.iterate]
  | succ n ih =>
    have hlast : (∀ u ∈ (c.iterate browser (n + 1) s).documents, c.Guarded u) ↔
        (∀ u ∈ (c.iterate browser n s).documents, c.Guarded u) ∧
          (c.running (c.iterate browser n s) = true →
            c.ChainGuarded browser (c.iterate browser n s)) := by
      rw [iterate_succ]
      split
      · next hrunning =>
        rw [crawlStep_documents, List.forall_mem_append, nextDocuments_guarded_iff]
        simp [hrunning]
      · next hrunning => simp [hrunning]
    rw [hlast, ih, and_assoc]
    refine and_congr_right fun _ => ?_
    constructor
    · rintro ⟨hbefore, hn⟩ k hk
      rcases Nat.lt_succ_iff_lt_or_eq.mp hk with hlt | rfl
      · exact hbefore k hlt
      · exact hn
    · intro h
      exact ⟨fun k hk => h k (Nat.lt_succ_of_lt hk), h n (Nat.lt_succ_self n)⟩

/-- **Every document request of a crawl passes the guards exactly when the
redirect chains do**: whenever the loop is about to go to an unvisited URL
that passes the guards, so do the URLs the site redirects it to. -/
theorem crawl_guarded_iff (c : PersonaCrawler) (browser : Browser) (rootUrl personaId : Str) :
    (∀ u ∈ (c.crawlState browser rootUrl personaId).documents, c.Guarded u) ↔
      ∀ k, c.running (c.iterate browser k (.start rootUrl personaId)) = true →
        c.ChainGuarded browser (c.iterate browser k (.start rootUrl personaId)) := by
  obtain ⟨n, hstop⟩ := crawlLoop_iterates c browser (.start rootUrl personaId)
  unfold PersonaCrawler.crawlState
  rw [crawlLoop_eq_iterate hstop]
  constructor
  · intro hall k hrunning
    have hbefore : k < n := by
      by_contra hge
      rw [iterate_of_stopped hstop (not_lt.mp hge)] at hrunning
      exact Bool.false_ne_true (hstop.symm.trans hrunning)
    exact ((iterate_guarded_iff c browser n _).mp hall).2 k hbefore hrunning
  · intro hchain
    refine (iterate_guarded_iff c browser n _).mpr ⟨by simp [CrawlState.documents, CrawlState.start], ?_⟩
    exact fun k _ => hchain k

/-! ## A redirect out of scope -/

/-- A site whose `/go` redirects to another host. -/
def redirectingSite : Site where
  redirect url :=
    if url = "https://app.acme.test/go".toList then some "https://evil.test/".toList else none
  page url :=
    .ok ⟨some (if url = "https://app.acme.test/".toList then
      [⟨"https://app.acme.test/go".toList, "Go".toList⟩] else []), some []⟩

/-- A crawler for one host of a verified target, with the defaults. -/
def acmeCrawler : PersonaCrawler where
  scopeGuard := .init ["app.acme.test".toList] [] true
  destructiveGuard := .default

omit [PyRuntime] in
/-- The crawl follows an in-scope link through to a host out of scope. -/
theorem redirect_leaves_scope :
    let _ := PyRuntime.ascii
    ¬ ∀ u ∈ (acmeCrawler.crawlState redirectingSite.browse "https://app.acme.test/".toList
      "alice".toList).documents, acmeCrawler.Guarded u := by
  intro runtime hall
  have hstop : acmeCrawler.running (acmeCrawler.iterate redirectingSite.browse 2
      (.start "https://app.acme.test/".toList "alice".toList)) = false := by decide +kernel
  unfold PersonaCrawler.crawlState at hall
  rw [crawlLoop_eq_iterate hstop] at hall
  have hevil := hall "https://evil.test/".toList (by decide +kernel)
  revert hevil
  decide +kernel

/-! ## Links and their labels -/

/-- The link is one the crawler extracts, and this is the URL it makes of it. -/
def Anchor.LeadsTo (anchor : Anchor) (rootUrl url : Str) : Prop :=
  ∃ root parts, urlsplit rootUrl = .ok root ∧ urlsplit anchor.href = .ok parts ∧
    parts.scheme ∈ ["http".toList, "https".toList] ∧ parts.netloc = root.netloc ∧
    (partition '#' anchor.href).1 = url

/-- The links of a page are what its anchors lead to. -/
theorem mem_extractSameOriginLinks {page : Page} {rootUrl : Str} {links : List Str}
    (h : extractSameOriginLinks page rootUrl = .ok links) (link : Str) :
    link ∈ links ↔ ∃ anchor ∈ page.anchors.getD [], anchor.LeadsTo rootUrl link := by
  obtain ⟨root, hroot, h⟩ := bind_eq_ok.mp h
  obtain ⟨found, hfound, h⟩ := bind_eq_ok.mp h
  rw [← Except.ok.inj h, List.mem_filterMap]
  constructor
  · rintro ⟨made, hmade, heq⟩
    obtain ⟨anchor, hanchor, hmade⟩ := (mem_of_mapM hfound made).mp hmade
    obtain ⟨parts, hparts, hmade⟩ := bind_eq_ok.mp hmade
    have hcond := Except.ok.inj hmade
    split at hcond
    · next horigin =>
      obtain rfl := Option.some.inj (hcond.trans heq)
      exact ⟨anchor, hanchor, root, parts, hroot, hparts, horigin.1, horigin.2, rfl⟩
    · exact nomatch hcond.trans heq
  · rintro ⟨anchor, hanchor, root', parts, hroot', hparts, hscheme, hnetloc, rfl⟩
    obtain rfl := Except.ok.inj (hroot.symm.trans hroot')
    refine ⟨_, (mem_of_mapM hfound (some _)).mpr ⟨anchor, hanchor, ?_⟩, rfl⟩
    rw [bind_eq_ok]
    exact ⟨parts, hparts, by rw [if_pos ⟨hscheme, hnetloc⟩]; rfl⟩

/-- A page that one of these `page.goto`s loaded has a link to the URL which
the guard clears with its text. -/
def PersonaCrawler.Offers (c : PersonaCrawler) (browser : Browser) (rootUrl : Str)
    (gotos : List (List Str)) (url : Str) : Prop :=
  ∃ n visited chain page anchor, gotos[n]? = some (visited :: chain) ∧
    (browser n visited).outcome = .ok page ∧ anchor ∈ page.anchors.getD [] ∧
    anchor.LeadsTo rootUrl url ∧
    c.destructiveGuard.clears "GET".toList anchor.href anchor.text = true

theorem PersonaCrawler.Offers.append {c : PersonaCrawler} {browser : Browser} {rootUrl url : Str}
    {gotos : List (List Str)} (h : c.Offers browser rootUrl gotos url) (more : List (List Str)) :
    c.Offers browser rootUrl (gotos ++ more) url := by
  obtain ⟨n, visited, chain, page, anchor, hn, hrest⟩ := h
  have hlt : n < gotos.length := (List.getElem?_eq_some_iff.mp hn).1
  exact ⟨n, visited, chain, page, anchor, (List.getElem?_append_left hlt).trans hn, hrest⟩

/-- Every URL the crawl went to is the root, or a page loaded earlier has a
link to it that is not suspect. -/
def PersonaCrawler.FollowsOffers (c : PersonaCrawler) (browser : Browser) (rootUrl : Str)
    (gotos : List (List Str)) : Prop :=
  ∀ n url chain, gotos[n]? = some (url :: chain) →
    url = rootUrl ∨ c.Offers browser rootUrl (gotos.take n) url

theorem PersonaCrawler.FollowsOffers.append {c : PersonaCrawler} {browser : Browser} {rootUrl url : Str}
    {gotos : List (List Str)} (h : c.FollowsOffers browser rootUrl gotos) (chain : List Str)
    (hurl : url = rootUrl ∨ c.Offers browser rootUrl gotos url) :
    c.FollowsOffers browser rootUrl (gotos ++ [url :: chain]) := by
  intro n url' chain' hn
  rcases Nat.lt_trichotomy n gotos.length with hlt | heq | hgt
  · rw [List.getElem?_append_left hlt] at hn
    rw [List.take_append_of_le_length (Nat.le_of_lt hlt)]
    exact h n url' chain' hn
  · subst heq
    rw [List.getElem?_concat_length] at hn
    obtain ⟨rfl, rfl⟩ := List.cons.inj (Option.some.inj hn)
    rw [List.take_left]
    exact hurl
  · rw [List.getElem?_eq_none (by simp only [List.length_append, List.length_singleton]; omega)] at hn
    exact nomatch hn

/-- The next page, if there is one, has no new link that the guard clears by
its URL and that only suspect labels led to so far. -/
def PersonaCrawler.LabelsAgree (c : PersonaCrawler) (browser : Browser) (s : CrawlState) : Prop :=
  ∀ url rest page links, s.queue = url :: rest → url ∉ s.visited → c.Guarded url →
    (browser s.gotos.length url).outcome = .ok page →
    extractSameOriginLinks page s.recording.surface.rootUrl = .ok links →
    ∀ link ∈ links, link ∉ s.visited ++ [url] → link ∉ rest →
      c.destructiveGuard.clears "GET".toList link = true →
      c.Offers browser s.recording.surface.rootUrl
        (s.gotos ++ [url :: (browser s.gotos.length url).chain]) link

/-- Labels agree where the guard clears every link of the next page. -/
theorem LabelsAgree.of_clear {c : PersonaCrawler} {browser : Browser} {s : CrawlState}
    (hclear : ∀ n url page, (browser n url).outcome = .ok page →
      ∀ anchor ∈ page.anchors.getD [],
        c.destructiveGuard.clears "GET".toList anchor.href anchor.text = true) :
    c.LabelsAgree browser s := by
  intro url rest page links hqueue hnew hguarded hload hlinks link hlink _ _ _
  obtain ⟨anchor, hanchor, hleads⟩ := (mem_extractSameOriginLinks hlinks link).mp hlink
  exact ⟨s.gotos.length, url, _, page, anchor, List.getElem?_concat_length, hload, hanchor, hleads,
    hclear _ url page hload anchor hanchor⟩

/-- Where the crawl went and what it still has in its queue was offered. -/
structure PersonaCrawler.Offered (c : PersonaCrawler) (browser : Browser) (rootUrl : Str)
    (s : CrawlState) : Prop where
  root : s.recording.surface.rootUrl = rootUrl
  gotos : c.FollowsOffers browser rootUrl s.gotos
  queue : ∀ url ∈ s.queue, url = rootUrl ∨ c.Offers browser rootUrl s.gotos url

theorem crawlStep_offered {c : PersonaCrawler} {browser : Browser} {rootUrl : Str} {s : CrawlState}
    (h : c.Offered browser rootUrl s) (hlabels : c.LabelsAgree browser s)
    (hrunning : c.running s = true) : c.Offered browser rootUrl (c.crawlStep browser s) := by
  simp only [PersonaCrawler.running, Bool.and_eq_true, bne_iff_ne] at hrunning
  obtain ⟨url, rest, hqueue⟩ := List.exists_cons_of_ne_nil hrunning.1.2
  have hurl := h.queue url (hqueue ▸ List.mem_cons_self)
  have hrest : ∀ u ∈ rest, u = rootUrl ∨ c.Offers browser rootUrl s.gotos u :=
    fun u hu => h.queue u (hqueue ▸ List.mem_cons_of_mem url hu)
  have hlater : ∀ u ∈ rest, u = rootUrl ∨ c.Offers browser rootUrl
      (s.gotos ++ [url :: (browser s.gotos.length url).chain]) u :=
    fun u hu => (hrest u hu).imp_right fun ho => ho.append _
  have hroot : ∀ recording : Recording, recording.head = s.recording.head →
      recording.surface.rootUrl = rootUrl := fun r hr => (congrArg Prod.fst hr).trans h.root
  have htakes := crawlStep_takes c browser hqueue
  generalize c.crawlStep browser s = t at htakes ⊢
  cases htakes with
  | skip hhead _ => exact ⟨hroot _ hhead, h.gotos, hrest⟩
  | refuse _ => exact ⟨h.root, h.gotos, hrest⟩
  | fail hhead _ _ _ => exact ⟨hroot _ hhead, h.gotos.append _ hurl, hlater⟩
  | «break» hhead _ _ _ _ => exact ⟨hroot _ hhead, h.gotos.append _ hurl, hlater⟩
  | @load recording page links hhead hnew hguarded hload hlinks =>
    have hsame := followLinks_sameVisits c links
      { s.went url rest (browser s.gotos.length url).chain recording with
        visited := s.visited ++ [url] }
    constructor
    case root => exact (congrArg Prod.fst (followLinks_head c links _)).trans (hroot _ hhead)
    case gotos =>
      rw [hsame.gotos]
      exact h.gotos.append _ hurl
    case queue =>
      rw [hsame.gotos]
      intro u hu
      rcases followLinks_queue c links _ u hu with hold | ⟨hlink, hvisited, hclear⟩
      · exact hlater u hold
      · by_cases hwaits : u ∈ rest
        · exact hlater u hwaits
        · have hoffered := hlabels url rest page links hqueue hnew hguarded hload hlinks u hlink
            hvisited hwaits hclear
          rw [h.root] at hoffered
          exact Or.inr hoffered

/-- **Only what a clear label offers is followed**, as long as no page the
crawl takes in queues a URL on suspect labels alone. -/
theorem crawl_follows_offers (c : PersonaCrawler) (browser : Browser) (rootUrl personaId : Str)
    (hlabels : ∀ k, c.running (c.iterate browser k (.start rootUrl personaId)) = true →
      c.LabelsAgree browser (c.iterate browser k (.start rootUrl personaId))) :
    c.FollowsOffers browser rootUrl (c.crawlState browser rootUrl personaId).gotos := by
  have hstart : c.Offered browser rootUrl (.start rootUrl personaId) :=
    ⟨rfl, by simp [PersonaCrawler.FollowsOffers, CrawlState.start], by simp [CrawlState.start]⟩
  exact (crawlState_invariant hstart fun k hrunning h =>
    crawlStep_offered h (hlabels k hrunning) hrunning).1.gotos

/-- The root of a site that links to `/x/42` under a label. -/
def labelledPage (label : String) (url : Str) : Page :=
  ⟨some (if url = "https://app.acme.test/".toList then
    [⟨"https://app.acme.test/x/42".toList, label.toList⟩] else []), some []⟩

/-- The site. -/
def labelledSite (label : String) : Site := ⟨fun _ => none, fun url => .ok (labelledPage label url)⟩

omit [PyRuntime] in
theorem labelledSite_loads {label : String} {n : Nat} {url : Str} {page : Page}
    (h : ((labelledSite label).browse n url).outcome = .ok page) : page = labelledPage label url :=
  (Except.ok.inj h).symm

omit [PyRuntime] in
/-- A link that says "View order" is offered, so the theorem applies. -/
theorem crawl_follows_view_order :
    let _ := PyRuntime.ascii
    acmeCrawler.FollowsOffers (labelledSite "View order").browse "https://app.acme.test/".toList
      (acmeCrawler.crawlState (labelledSite "View order").browse
        "https://app.acme.test/".toList "alice".toList).gotos := by
  intro runtime
  have hclear : acmeCrawler.destructiveGuard.clears "GET".toList
      "https://app.acme.test/x/42".toList "View order".toList = true := by decide +kernel
  refine crawl_follows_offers acmeCrawler _ _ _ fun k _ => LabelsAgree.of_clear ?_
  intro n url page hload anchor hanchor
  obtain rfl := labelledSite_loads hload
  unfold labelledPage at hanchor
  dsimp only [Option.getD_some] at hanchor
  split at hanchor
  · obtain rfl := List.mem_singleton.mp hanchor
    exact hclear
  · exact absurd hanchor List.not_mem_nil

omit [PyRuntime] in
/-- A link that says "Delete account" is followed all the same. -/
theorem crawl_follows_delete_account :
    let _ := PyRuntime.ascii
    ¬ acmeCrawler.FollowsOffers (labelledSite "Delete account").browse "https://app.acme.test/".toList
      (acmeCrawler.crawlState (labelledSite "Delete account").browse
        "https://app.acme.test/".toList "alice".toList).gotos := by
  intro runtime hfollows
  have hstop : acmeCrawler.running (acmeCrawler.iterate (labelledSite "Delete account").browse 2
      (.start "https://app.acme.test/".toList "alice".toList)) = false := by decide +kernel
  unfold PersonaCrawler.crawlState at hfollows
  rw [crawlLoop_eq_iterate hstop] at hfollows
  have hgotos : (acmeCrawler.iterate (labelledSite "Delete account").browse 2
      (.start "https://app.acme.test/".toList "alice".toList)).gotos =
        [["https://app.acme.test/".toList], ["https://app.acme.test/x/42".toList]] := by decide +kernel
  rw [hgotos] at hfollows
  rcases hfollows 1 "https://app.acme.test/x/42".toList [] rfl with hroot | hoffers
  · exact absurd hroot (by decide)
  · obtain ⟨n, visited, chain, page, anchor, hn, hload, hanchor, -, hclear⟩ := hoffers
    have hsuspect : acmeCrawler.destructiveGuard.clears "GET".toList
      "https://app.acme.test/x/42".toList "Delete account".toList = false := by decide +kernel
    match n with
    | 0 =>
      obtain rfl : "https://app.acme.test/".toList = visited := (List.cons.inj (Option.some.inj hn)).1
      obtain rfl := labelledSite_loads hload
      obtain rfl := List.mem_singleton.mp hanchor
      exact Bool.false_ne_true (hsuspect.symm.trans hclear)
    | n + 1 => exact nomatch hn

end Sentinel.Crawler
