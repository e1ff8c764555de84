/-
Sentinel.Worker.SurfaceAssets — which asset rows a surface brings.

`merge_surface_map` makes a row for the host of every endpoint it is handed,
so the rows it adds are in scope when the surface is. A surface is in scope
exactly if what the crawl saw first under each method and path template is
(`surface_inScope_iff`): the form actions without a netloc are what lets
other URLs in.
-/
import Sentinel.Worker.SurfaceMerge
import Sentinel.Crawler.SurfaceScope

namespace Sentinel.Worker

open Sentinel.Py Sentinel.Core Sentinel.Db Sentinel.Crawler Sentinel.Durable

/-! ## The hosts of new rows -/

/-- Every asset row of `db'` was in `db`, or has a host with `P`. -/
def BringsHosts (P : Str → Prop) (db db' : Snapshot) : Prop :=
  ∀ asset ∈ db'.assets, asset ∈ db.assets ∨ P asset.host

theorem BringsHosts.trans {P : Str → Prop} {db₁ db₂ db₃ : Snapshot} (h : BringsHosts P db₁ db₂)
    (h' : BringsHosts P db₂ db₃) : BringsHosts P db₁ db₃ := by
  intro asset hasset
  rcases h' asset hasset with hold | hnew
  · exact h asset hold
  · exact Or.inr hnew

theorem getOrCreateAsset_brings {P : Str → Prop} {host : Str} (hhost : P host) {db db' : Snapshot}
    {found : Nat × Bool} (h : (getOrCreateAsset host).Returns db found db') :
    BringsHosts P db db' := by
  simp only [getOrCreateAsset, Program.returns_bind, Program.returns_point, Program.returns_get,
    Program.returns_ofExcept] at h
  obtain ⟨_, _, rfl, _, _, ⟨rfl, rfl⟩, row, _, ⟨-, rfl⟩, hrow⟩ := h
  cases row with
  | some asset =>
    simp only [Program.returns_pure] at hrow
    obtain ⟨-, rfl⟩ := hrow
    exact fun asset hasset => Or.inl hasset
  | none =>
    simp only [Program.returns_bind, Program.returns_modify, Program.returns_point,
      Program.returns_pure] at hrow
    obtain ⟨_, _, rfl, _, _, rfl, -, rfl⟩ := hrow
    intro asset hasset
    rcases List.mem_append.mp hasset with hold | hlast
    · exact Or.inl hold
    · obtain rfl := List.mem_singleton.mp hlast
      exact Or.inr hhost

theorem mergeEndpoint_assets {asset : Nat} {discovered : DiscoveredEndpoint} {db db' : Snapshot}
    {merged : Bool} (h : (mergeEndpoint asset discovered).Returns db merged db') :
    db'.assets = db.assets := by
  simp only [mergeEndpoint, Program.returns_bind, Program.returns_point, Program.returns_get,
    Program.returns_ofExcept] at h
  obtain ⟨_, _, rfl, _, _, ⟨rfl, rfl⟩, row, _, ⟨-, rfl⟩, hrow⟩ := h
  cases row with
  | none =>
    simp only [Program.returns_bind, Program.returns_modify, Program.returns_pure] at hrow
    obtain ⟨_, _, rfl, -, rfl⟩ := hrow
    rfl
  | some endpoint =>
    simp only [Program.returns_bind, Program.returns_modify, Program.returns_pure] at hrow
    obtain ⟨_, _, rfl, -, rfl⟩ := hrow
    rfl

variable [PyRuntime]

theorem mergeStep_brings {P : Str → Prop} {st st' : MergeState} {endpoint : DiscoveredEndpoint}
    (hhost : P (hostOf endpoint)) {db db' : Snapshot}
    (h : (mergeStep st endpoint).Returns db st' db') : BringsHosts P db db' := by
  simp only [mergeStep, Program.returns_bind, Program.returns_ofExcept] at h
  obtain ⟨parts, db₀, ⟨hsplit, hsame⟩, ⟨asset, created⟩, db₁, hasset, merged, db₂, hmerge, hdone⟩ := h
  obtain rfl := hsame
  have hparts : hostOf endpoint = parts.hostname.getD [] := by
    unfold hostOf urlHost
    cases hurl : urlsplit endpoint.url with
    | error e =>
      rw [hurl] at hsplit
      exact nomatch hsplit
    | ok parts' =>
      rw [hurl] at hsplit
      obtain rfl := Except.ok.inj hsplit
      rfl
  rw [hparts] at hhost
  obtain ⟨-, rfl⟩ := (Program.returns_pure _ _ _ _).mp hdone
  have hassets := mergeEndpoint_assets hmerge
  have hbrings : BringsHosts P db₀ db₁ := by
    unfold cachedAsset at hasset
    split at hasset
    · obtain ⟨-, rfl⟩ := (Program.returns_pure _ _ _ _).mp hasset
      exact fun asset hasset => Or.inl hasset
    · exact getOrCreateAsset_brings hhost hasset
  intro asset hmem
  exact hbrings asset (hassets ▸ hmem)

/-- **Merging a surface** adds rows for hosts of its endpoints only. -/
theorem mergeSurfaceMap_brings {P : Str → Prop} {surface : SurfaceMap}
    (hhosts : ∀ e ∈ surface.endpoints, P (hostOf e)) {db db' : Snapshot} {stats : MergeStats}
    (h : (mergeSurfaceMap surface).Returns db stats db') : BringsHosts P db db' := by
  have hloop : ∀ {endpoints : List DiscoveredEndpoint} {db db' : Snapshot} {st st' : MergeState},
      (∀ e ∈ endpoints, P (hostOf e)) → (endpoints.foldlM mergeStep st).Returns db st' db' →
        BringsHosts P db db' := by
    intro endpoints
    induction endpoints with
    | nil =>
      intro db db' st st' _ hdone
      obtain ⟨-, rfl⟩ := (Program.returns_pure _ _ _ _).mp hdone
      exact fun asset hasset => Or.inl hasset
    | cons endpoint rest ih =>
      intro db db' st st' hall hdone
      obtain ⟨hfirst, hrest⟩ := List.forall_mem_cons.mp hall
      rw [List.foldlM_cons] at hdone
      obtain ⟨st₁, db₁, hstep, hmore⟩ := (Program.returns_bind _ _ _ _ _).mp hdone
      exact (mergeStep_brings hfirst hstep).trans (ih hrest hmore)
  obtain ⟨st, db₁, hmerged, hdone⟩ := (Program.returns_bind _ _ _ _ _).mp h
  obtain ⟨_, db₂, hpoint, hstats⟩ := (Program.returns_bind _ _ _ _ _).mp hdone
  obtain rfl := (Program.returns_point _ _ _).mp hpoint
  obtain ⟨-, rfl⟩ := (Program.returns_pure _ _ _ _).mp hstats
  exact hloop hhosts hmerged

/-! ## Surfaces in scope -/

/-- Every endpoint is a web URL with an accepted host, and merging them
makes no asset row for an empty or a foreign host. -/
structure SurfaceInScope (g : ScopeGuard) (surface : SurfaceMap) : Prop where
  endpoints : ∀ e ∈ surface.endpoints, IsWebUrl e.url ∧ AcceptsHost g e.url
  assets : ∀ db stats db', (mergeSurfaceMap surface).Returns db stats db' →
    BringsHosts (fun host => host ≠ [] ∧ g.HostInScope host) db db'

theorem surfaceInScope_of_endpoints {g : ScopeGuard} {surface : SurfaceMap}
    (h : ∀ e ∈ surface.endpoints, IsWebUrl e.url ∧ AcceptsHost g e.url) :
    SurfaceInScope g surface := by
  refine ⟨h, fun db stats db' hreturns => mergeSurfaceMap_brings (fun e he => ?_) hreturns⟩
  obtain ⟨⟨parts, hparts, -, hne⟩, -, parts', hparts', hhost⟩ := h e he
  obtain rfl := Except.ok.inj (hparts.symm.trans hparts')
  unfold hostOf urlHost
  rw [hparts]
  exact ⟨hne, hhost⟩

/-- **The surface of a crawl is in scope**, and so are the asset rows it
brings, exactly if what the crawl saw first under each method and template
is a web URL and, where it is a form, has a host the guard accepts. -/
theorem surface_inScope_iff {c : PersonaCrawler} {browser : Browser} {rootUrl personaId : Str}
    {surface : SurfaceMap} (h : c.crawl browser rootUrl personaId = .ok surface) :
    SurfaceInScope c.scopeGuard surface ↔
      ∀ o ∈ c.FirstSeen browser rootUrl personaId,
        IsWebUrl o.url ∧ (o.source = .form → AcceptsHost c.scopeGuard o.url) := by
  rw [← crawl_inScope_iff h]
  exact ⟨SurfaceInScope.endpoints, surfaceInScope_of_endpoints⟩

/-- A browser whose pages have one form. -/
def formBrowser (action : String) : Browser := fun _ _ =>
  { chain := []
    outcome := .ok ⟨some [], some [⟨action.toList, "POST".toList⟩]⟩ }

omit [PyRuntime] in
/-- A form that posts to the application itself. -/
theorem formBrowser_inScope :
    let _ := PyRuntime.ascii
    ∃ surface, acmeCrawler.crawl (formBrowser "https://app.acme.test/orders")
        "https://app.acme.test/".toList "alice".toList = .ok surface ∧
      SurfaceInScope acmeCrawler.scopeGuard surface := by
  intro runtime
  have hstop : acmeCrawler.running (acmeCrawler.iterate (formBrowser "https://app.acme.test/orders") 1
      (.start "https://app.acme.test/".toList "alice".toList)) = false := by decide +kernel
  have hraised : (acmeCrawler.crawlState (formBrowser "https://app.acme.test/orders")
      "https://app.acme.test/".toList "alice".toList).raised = none := by
    rw [PersonaCrawler.crawlState, crawlLoop_eq_iterate hstop]
    decide +kernel
  have hurls : ∀ o ∈ acmeCrawler.observations (formBrowser "https://app.acme.test/orders")
      (.start "https://app.acme.test/".toList "alice".toList),
      o.url = "https://app.acme.test/".toList ∨ o.url = "https://app.acme.test/orders".toList := by
    decide +kernel
  have hroot : urlsplit "https://app.acme.test/".toList = .ok
      ⟨"https".toList, "app.acme.test".toList, "/".toList, [], []⟩ := by decide +kernel
  have horders : urlsplit "https://app.acme.test/orders".toList = .ok
      ⟨"https".toList, "app.acme.test".toList, "/orders".toList, [], []⟩ := by decide +kernel
  have hscope : acmeCrawler.scopeGuard.HostInScope "app.acme.test".toList :=
    ⟨"app.acme.test".toList, by decide, by decide +kernel⟩
  refine ⟨_, crawl_eq_ok hraised, (surface_inScope_iff (crawl_eq_ok hraised)).mpr fun o ho => ?_⟩
  obtain ⟨k, hrunning, hmem⟩ | hclosing := FirstSeen.observed ho
  case inr =>
    rw [closingObservations_eq_nil _ fun _ _ => rfl] at hclosing
    exact absurd hclosing List.not_mem_nil
  cases k with
  | zero =>
    rcases hurls o hmem with hurl | hurl
    · rw [hurl]
      exact ⟨⟨_, hroot, by decide, by decide +kernel⟩, fun _ => ⟨rfl, _, hroot, hscope⟩⟩
    · rw [hurl]
      exact ⟨⟨_, horders, by decide, by decide +kernel⟩, fun _ => ⟨rfl, _, horders, hscope⟩⟩
  | succ k =>
    rw [iterate_of_stopped hstop (Nat.le_add_left 1 k), hstop] at hrunning
    exact absurd hrunning Bool.false_ne_true

omit [PyRuntime] in
/-- A form whose action is a mail address, as contact pages have them. -/
theorem mailtoForm_notInScope :
    let _ := PyRuntime.ascii
    ¬ ∀ surface, acmeCrawler.crawl (formBrowser "mailto:sales@partner.test")
        "https://app.acme.test/".toList "alice".toList = .ok surface →
      SurfaceInScope acmeCrawler.scopeGuard surface := by
  intro runtime hall
  have hend : acmeCrawler.crawlState (formBrowser "mailto:sales@partner.test")
      "https://app.acme.test/".toList "alice".toList =
        acmeCrawler.iterate (formBrowser "mailto:sales@partner.test") 1
          (.start "https://app.acme.test/".toList "alice".toList) :=
    crawlLoop_eq_iterate (by decide +kernel)
  have hraised : (acmeCrawler.crawlState (formBrowser "mailto:sales@partner.test")
      "https://app.acme.test/".toList "alice".toList).raised = none := by
    rw [hend]
    decide +kernel
  have hscope := (hall _ (crawl_eq_ok hraised)).endpoints
    ⟨"POST".toList, "mailto:sales@partner.test".toList, "sales@partner.test".toList, .form,
      "alice".toList⟩ (by rw [hend]; decide +kernel)
  obtain ⟨⟨parts, hparts, hscheme, -⟩, -⟩ := hscope
  have hmail : urlsplit "mailto:sales@partner.test".toList =
      .ok ⟨"mailto".toList, [], "sales@partner.test".toList, [], []⟩ := by decide +kernel
  obtain rfl := Except.ok.inj (hmail.symm.trans hparts)
  revert hscheme
  decide

end Sentinel.Worker
