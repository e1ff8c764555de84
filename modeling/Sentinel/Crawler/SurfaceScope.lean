/-
Sentinel.Crawler.SurfaceScope — where the endpoints of a surface lead.

An endpoint enters a surface through one of four doors: a visited page, a
link too suspect to follow, a network request, a form. Behind the first
three stands a host the scope guard accepts: the guard is asked, or the link
has the netloc of the root, which it was asked about. Forms are let in when
their action has no netloc at all, and no door looks at the scheme of what
the guard accepted. What is in the surface is what was first seen under its
key, so the surface is web endpoints in scope exactly if these are.
-/
import Sentinel.Crawler.Observations
import Sentinel.Crawler.CrawlBounds
import Sentinel.Py.UrlFragment

namespace Sentinel.Crawler

open Sentinel.Py Sentinel.Core

variable [PyRuntime]

/-! ## First of a key -/

/-- The method and the path template an observation is recorded under. -/
def Observation.key (o : Observation) : Str × Option Str := (upper o.method, urlTemplate o.url)

/-- Nothing observed before it had the key of the observation. -/
def FirstOfKey (observed : List Observation) (o : Observation) : Prop :=
  ∃ before after, observed = before ++ o :: after ∧ o.key ∉ before.map Observation.key

theorem FirstOfKey.mem {observed : List Observation} {o : Observation}
    (h : FirstOfKey observed o) : o ∈ observed := by
  obtain ⟨before, after, rfl, -⟩ := h
  simp

theorem FirstOfKey.of_isPrefix {observed longer : List Observation} {o : Observation}
    (h : FirstOfKey observed o) (hlonger : observed <+: longer) : FirstOfKey longer o := by
  obtain ⟨before, after, rfl, hfirst⟩ := h
  obtain ⟨more, rfl⟩ := hlonger
  exact ⟨before, after ++ more, by simp, hfirst⟩

/-- One more observation is first of its key, if none before had the key. -/
theorem firstOfKey_concat (observed : List Observation) (o o' : Observation) :
    FirstOfKey (observed ++ [o]) o' ↔
      FirstOfKey observed o' ∨ o' = o ∧ o.key ∉ observed.map Observation.key := by
  constructor
  · rintro ⟨before, after, heq, hfirst⟩
    rcases List.eq_nil_or_concat after with rfl | ⟨after, last, rfl⟩
    · obtain ⟨rfl, hlast⟩ := List.append_inj' heq rfl
      obtain rfl := (List.cons.inj hlast).1
      exact Or.inr ⟨rfl, hfirst⟩
    · rw [List.concat_eq_append, ← List.cons_append, ← List.append_assoc] at heq
      exact Or.inl ⟨before, after, (List.append_inj' heq rfl).1, hfirst⟩
  · rintro (h | ⟨rfl, hnew⟩)
    · exact h.of_isPrefix (List.prefix_append _ _)
    · exact ⟨observed, [], rfl, hnew⟩

/-! ## The URLs of a recording -/

/-- A key was seen, if it was observed. -/
theorem Recording.Records.seen_iff {recording : Recording} {observed : List Observation}
    (h : recording.Records observed) {o : Observation} {template : Str}
    (htemplate : urlTemplate o.url = some template) :
    (upper o.method, template) ∈ recording.seenTemplates ↔
      o.key ∈ observed.map Observation.key := by
  rw [h.seen, List.mem_map, List.mem_map]
  constructor
  · rintro ⟨e, he, hkey⟩
    obtain ⟨hmethod, hpath⟩ := Prod.mk.inj hkey
    obtain ⟨o', ho', -, hshares⟩ := h.sound e he
    refine ⟨o', ho', Prod.ext (hshares.1.symm.trans hmethod) ?_⟩
    exact (hshares.2.trans (congrArg some hpath)).trans htemplate.symm
  · rintro ⟨o', ho', hkey⟩
    obtain ⟨hmethod, hpath⟩ := Prod.mk.inj hkey
    obtain ⟨e, he, hshares⟩ := h.complete o' ho'
    refine ⟨e, he, Prod.ext (hshares.1.trans hmethod) ?_⟩
    exact Option.some.inj (hshares.2.symm.trans (hpath.trans htemplate))

/-- The endpoints have the URLs of what was first observed. -/
structure Recording.RecordsFirst (recording : Recording) (observed : List Observation) : Prop where
  records : recording.Records observed
  urls : ∀ url, (∃ e ∈ recording.surface.endpoints, e.url = url) ↔
    ∃ o, FirstOfKey observed o ∧ o.url = url

theorem Recording.RecordsFirst.recordEndpoint {recording recording' : Recording}
    {observed : List Observation} (h : recording.RecordsFirst observed) {o : Observation}
    (hrecord : recording.recordEndpoint o.method o.url o.source = .ok recording') :
    recording'.RecordsFirst (observed ++ [o]) := by
  refine ⟨h.records.recordEndpoint hrecord, fun url => ?_⟩
  have hbefore := h.urls url
  unfold Recording.recordEndpoint at hrecord
  obtain ⟨parts, hparts, hrecord⟩ := bind_eq_ok.mp hrecord
  have htemplate : urlTemplate o.url = some (normalizePath parts.pathOrRoot) := by
    rw [urlTemplate, hparts]
  have hseen := h.records.seen_iff htemplate
  simp only [firstOfKey_concat, ← hseen]
  dsimp only at hrecord
  split at hrecord
  · next hold =>
    obtain rfl := Except.ok.inj hrecord
    rw [hbefore]
    constructor
    · rintro ⟨o', ho', hurl⟩
      exact ⟨o', Or.inl ho', hurl⟩
    · rintro ⟨o', ho' | ⟨-, hnew⟩, hurl⟩
      · exact ⟨o', ho', hurl⟩
      · exact absurd hold hnew
  · next hnew =>
    obtain rfl := Except.ok.inj hrecord
    constructor
    · rintro ⟨e, he, hurl⟩
      rcases List.mem_append.mp he with hold | hlast
      · obtain ⟨o', ho', hurl'⟩ := hbefore.mp ⟨e, hold, hurl⟩
        exact ⟨o', Or.inl ho', hurl'⟩
      · obtain rfl := List.mem_singleton.mp hlast
        exact ⟨o, Or.inr ⟨rfl, hnew⟩, hurl⟩
    · rintro ⟨o', ho' | ⟨rfl, -⟩, hurl⟩
      · obtain ⟨e, he, hurl'⟩ := hbefore.mpr ⟨o', ho', hurl⟩
        exact ⟨e, List.mem_append_left _ he, hurl'⟩
      · exact ⟨_, List.mem_append_right _ (List.mem_singleton_self _), hurl⟩

theorem recordsFirst_registers : Registers Recording.RecordsFirst where
  note text h := ⟨h.records.note text, h.urls⟩
  record h hrecord := h.recordEndpoint hrecord

/-! ## What a crawl is the first to see -/

theorem observedBefore_succ (c : PersonaCrawler) (browser : Browser) (s : CrawlState) (n : Nat) :
    c.observedBefore browser s (n + 1) = c.observedBefore browser s n ++
      if c.running (c.iterate browser n s) then c.observations browser (c.iterate browser n s)
      else [] := by
  unfold PersonaCrawler.observedBefore
  rw [List.range_succ, List.flatMap_append, List.flatMap_singleton]

/-- Behind the end of the loop nothing more is seen. -/
theorem observedBefore_of_stopped {c : PersonaCrawler} {browser : Browser} {s : CrawlState}
    {m n : Nat} (hstop : c.running (c.iterate browser m s) = false) (hmn : m ≤ n) :
    c.observedBefore browser s n = c.observedBefore browser s m := by
  induction n, hmn using Nat.le_induction with
  | base => rfl
  | succ n hmn ih =>
    have hstopped : c.running (c.iterate browser n s) = false := by
      rw [iterate_of_stopped hstop hmn, hstop]
    rw [observedBefore_succ, ih, hstopped, if_neg Bool.false_ne_true, List.append_nil]

/-- However long one goes on counting, a crawl has seen the same. -/
theorem observedAll_eq {c : PersonaCrawler} {browser : Browser} {rootUrl personaId : Str}
    {m n : Nat} (hm : c.running (c.iterate browser m (.start rootUrl personaId)) = false)
    (hn : c.running (c.iterate browser n (.start rootUrl personaId)) = false) :
    c.observedAll browser rootUrl personaId m = c.observedAll browser rootUrl personaId n := by
  unfold PersonaCrawler.observedAll
  rcases Nat.le_total m n with hmn | hnm
  · rw [observedBefore_of_stopped hm hmn]
  · rw [observedBefore_of_stopped hn hnm]

/-- What a crawl sees first under its method and path template. -/
def PersonaCrawler.FirstSeen (c : PersonaCrawler) (browser : Browser) (rootUrl personaId : Str) :
    Set Observation :=
  {o | ∃ n, c.running (c.iterate browser n (.start rootUrl personaId)) = false ∧
    FirstOfKey (c.observedAll browser rootUrl personaId n) o}

theorem FirstSeen.observed {c : PersonaCrawler} {browser : Browser} {rootUrl personaId : Str}
    {o : Observation} (h : o ∈ c.FirstSeen browser rootUrl personaId) :
    o ∈ c.Observed browser rootUrl personaId := by
  obtain ⟨n, hstop, hfirst⟩ := h
  exact (mem_observedAll hstop o).mp hfirst.mem

/-- **The URLs in a surface** are those of what the crawl saw first. -/
theorem crawl_urls {c : PersonaCrawler} {browser : Browser} {rootUrl personaId : Str}
    {surface : SurfaceMap} (h : c.crawl browser rootUrl personaId = .ok surface) (url : Str) :
    (∃ e ∈ surface.endpoints, e.url = url) ↔
      ∃ o ∈ c.FirstSeen browser rootUrl personaId, o.url = url := by
  have hstart : (CrawlState.start rootUrl personaId).recording.RecordsFirst [] :=
    ⟨records_start rootUrl personaId, fun url => by
      simp [CrawlState.start, FirstOfKey]⟩
  obtain ⟨recording, n, hstop, hrecords, hendpoints⟩ :=
    crawl_registers recordsFirst_registers hstart h
  rw [← hendpoints, hrecords.urls]
  constructor
  · rintro ⟨o, ho, hurl⟩
    exact ⟨o, ⟨n, hstop, ho⟩, hurl⟩
  · rintro ⟨o, ⟨m, hstop', ho⟩, hurl⟩
    exact ⟨o, observedAll_eq hstop' hstop ▸ ho, hurl⟩

/-! ## Where the doors lead -/

/-- The guard accepts the host of the URL for its target. -/
def AcceptsHost (g : ScopeGuard) (url : Str) : Prop :=
  g.targetOwnershipVerified = true ∧
    ∃ parts, urlsplit url = .ok parts ∧ g.HostInScope (parts.hostname.getD [])

/-- An `http` or `https` URL with a host. -/
def IsWebUrl (url : Str) : Prop :=
  ∃ parts, urlsplit url = .ok parts ∧ parts.scheme ∈ ["http".toList, "https".toList] ∧
    parts.hostname.getD [] ≠ []

theorem acceptsHost_of_allows {g : ScopeGuard} {method url : Str}
    (h : g.allows method url = true) : AcceptsHost g url := by
  obtain ⟨hverified, parts, hparts, hhost, -, -⟩ := (allows_iff g method url).mp h
  exact ⟨hverified, parts, hparts, hhost⟩

/-- A link of the root's netloc has the root's host, with or without its
fragment. -/
theorem acceptsHost_of_leadsTo {g : ScopeGuard} {anchor : Anchor} {rootUrl link : Str}
    (hroot : AcceptsHost g rootUrl) (h : anchor.LeadsTo rootUrl link) : AcceptsHost g link := by
  obtain ⟨hverified, root, hsplit, hhost⟩ := hroot
  obtain ⟨root', parts, hsplit', hparts, hscheme, hnetloc, rfl⟩ := h
  obtain rfl := Except.ok.inj (hsplit.symm.trans hsplit')
  have hne : parts.scheme ≠ [] := by
    intro hnil
    rw [hnil] at hscheme
    simp at hscheme
  obtain ⟨fragment, hlink⟩ := urlsplit_without_fragment hparts hne
  refine ⟨hverified, _, hlink, ?_⟩
  have hsame : ({ parts with fragment := fragment } : SplitResult).hostname = root.hostname := by
    unfold SplitResult.hostname
    rw [hnetloc]
  rwa [hsame]

/-- A crawl that sees anything has been let in at its root. -/
theorem guarded_root {c : PersonaCrawler} {browser : Browser} {rootUrl personaId : Str} {k : Nat}
    {o : Observation}
    (ho : o ∈ c.observations browser (c.iterate browser k (.start rootUrl personaId))) :
    c.Guarded rootUrl := by
  by_contra hstopped
  -- the one URL in the queue is skipped, so the queue is empty from then on
  have hempty : (c.crawlStep browser (.start rootUrl personaId)).queue = [] := by
    unfold PersonaCrawler.crawlStep CrawlState.start
    dsimp only
    rcases processUrl_cases c browser { CrawlState.start rootUrl personaId with queue := [] } rootUrl
      with ⟨-, hguarded, -⟩ | ⟨-, -, hqueue⟩
    · exact absurd hguarded hstopped
    · exact hqueue
  cases k with
  | zero =>
    unfold PersonaCrawler.observations PersonaCrawler.iterate CrawlState.start at ho
    dsimp only at ho
    rw [if_neg fun h => hstopped h.2] at ho
    exact absurd ho List.not_mem_nil
  | succ k =>
    rw [PersonaCrawler.iterate] at ho
    split at ho
    · have hstop : c.running (c.iterate browser 0 (c.crawlStep browser
          (.start rootUrl personaId))) = false := by
        simp [PersonaCrawler.running, PersonaCrawler.iterate, hempty]
      rw [iterate_of_stopped hstop (Nat.zero_le k)] at ho
      unfold PersonaCrawler.observations PersonaCrawler.iterate at ho
      rw [hempty] at ho
      exact absurd ho List.not_mem_nil
    · next hidle =>
      unfold PersonaCrawler.observations CrawlState.start at ho
      dsimp only at ho
      rw [if_neg fun h => hstopped h.2] at ho
      exact absurd ho List.not_mem_nil

theorem networkObservations_accepted {c : PersonaCrawler} {requests : List NetworkRequest}
    {o : Observation} (ho : o ∈ c.networkObservations requests) :
    AcceptsHost c.scopeGuard o.url := by
  obtain ⟨request, hrequest, rfl⟩ := List.mem_map.mp ho
  have hallowed := (List.mem_filter.mp hrequest).2
  rw [Bool.and_eq_true] at hallowed
  exact acceptsHost_of_allows hallowed.2

/-- **Three of the four doors**: what is not a form has an accepted host. -/
theorem observations_accepted {c : PersonaCrawler} {browser : Browser} {rootUrl : Str}
    {s : CrawlState} (hroot : s.recording.surface.rootUrl = rootUrl)
    (hguarded : c.Guarded rootUrl) {o : Observation} (ho : o ∈ c.observations browser s)
    (hform : o.source ≠ .form) : AcceptsHost c.scopeGuard o.url := by
  unfold PersonaCrawler.observations at ho
  split at ho
  · exact absurd ho List.not_mem_nil
  · next url rest hqueue =>
    split at ho
    · next hnew =>
      unfold PersonaCrawler.visitObservations at ho
      simp only [List.mem_append] at ho
      rcases ho with (hacquire | hload) | hpage
      · exact networkObservations_accepted hacquire
      · exact networkObservations_accepted hload
      · split at hpage
        · exact absurd hpage List.not_mem_nil
        · next page hloaded =>
          unfold PersonaCrawler.pageObservations at hpage
          split at hpage
          · next links forms hlinks hforms =>
            simp only [List.mem_append, List.mem_singleton] at hpage
            rcases hpage with (((rfl | hlinks') | hforms') | hsent) | hsuspect
            · exact acceptsHost_of_allows hnew.2.1
            · exact networkObservations_accepted hlinks'
            · exact networkObservations_accepted hforms'
            · obtain ⟨form, -, rfl⟩ := List.mem_map.mp hsent
              exact absurd rfl hform
            · obtain ⟨link, hlink, rfl⟩ := List.mem_map.mp hsuspect
              obtain ⟨anchor, -, hleads⟩ :=
                (mem_extractSameOriginLinks hlinks link).mp (List.mem_of_mem_filter hlink)
              dsimp only at hleads
              rw [hroot] at hleads
              exact acceptsHost_of_leadsTo (acceptsHost_of_allows hguarded.1) hleads
          · exact absurd hpage List.not_mem_nil
    · exact absurd ho List.not_mem_nil

/-- What a crawl sees, but for forms, has an accepted host. -/
theorem observed_accepted {c : PersonaCrawler} {browser : Browser} {rootUrl personaId : Str}
    {o : Observation} (ho : o ∈ c.Observed browser rootUrl personaId) (hform : o.source ≠ .form) :
    AcceptsHost c.scopeGuard o.url := by
  obtain ⟨k, hrunning, hmem⟩ | hclosing := ho
  case inr => exact networkObservations_accepted hclosing
  have hbefore : ∀ j < k, c.running (c.iterate browser j (.start rootUrl personaId)) = true := by
    intro j hj
    by_contra hstopped
    have hstop := Bool.eq_false_iff.mpr hstopped
    rw [iterate_of_stopped hstop hj.le, hstop] at hrunning
    exact Bool.false_ne_true hrunning
  have hroot := (iterate_bounded hbefore).root
  exact observations_accepted hroot (guarded_root hmem) hmem hform

/-- **A surface is web endpoints in scope** exactly if what the crawl saw
first are web URLs and the forms among them have an accepted host. -/
theorem crawl_inScope_iff {c : PersonaCrawler} {browser : Browser} {rootUrl personaId : Str}
    {surface : SurfaceMap} (h : c.crawl browser rootUrl personaId = .ok surface) :
    (∀ e ∈ surface.endpoints, IsWebUrl e.url ∧ AcceptsHost c.scopeGuard e.url) ↔
      ∀ o ∈ c.FirstSeen browser rootUrl personaId,
        IsWebUrl o.url ∧ (o.source = .form → AcceptsHost c.scopeGuard o.url) := by
  constructor
  · intro hall o ho
    obtain ⟨e, he, hurl⟩ := (crawl_urls h o.url).mpr ⟨o, ho, rfl⟩
    have hscope := hall e he
    rw [hurl] at hscope
    exact ⟨hscope.1, fun _ => hscope.2⟩
  · intro hall e he
    obtain ⟨o, ho, hurl⟩ := (crawl_urls h e.url).mp ⟨e, he, rfl⟩
    obtain ⟨hweb, hform⟩ := hall o ho
    rw [← hurl]
    refine ⟨hweb, ?_⟩
    by_cases hsource : o.source = .form
    · exact hform hsource
    · exact observed_accepted (FirstSeen.observed ho) hsource

end Sentinel.Crawler
