/-
Sentinel.Py.RegexSearch — what a search finds, for the patterns that are a
text between word boundaries.

`ends` enumerates matches as the backtracking engine does; the lemmas here
say which positions it lists, without the order: a literal ends behind a
spelling of it (`mem_ends_lit`), and a search succeeds if a match starts
anywhere (`search_iff`).
-/
import Sentinel.Py.Regex
import Mathlib.Data.List.Forall2

namespace Sentinel.Py.Regex

/-- The text is the word up to case. -/
def Spells (word text : Str) : Prop := List.Forall₂ (fun c d => d ∈ caseVariants c) word text

variable [PyRuntime]

theorem mem_ends_anyOf {c : Char} {before rest : Str} {q : Pos} :
    q ∈ ends (anyOf [c]) (before, rest) ↔
      ∃ d, d ∈ caseVariants c ∧ rest = d :: q.2 ∧ q.1 = d :: before := by
  cases rest with
  | nil => simp [anyOf, ends]
  | cons e rest =>
    obtain ⟨before', rest'⟩ := q
    by_cases he : e ∈ caseVariants c
    · simp only [anyOf, ends, List.any_cons, List.any_nil, Bool.or_false,
        List.contains_iff_mem.mpr he, if_true, List.mem_singleton, Prod.mk.injEq]
      constructor
      · rintro ⟨rfl, rfl⟩
        exact ⟨e, he, rfl, rfl⟩
      · rintro ⟨d, -, hrest, hbefore⟩
        obtain ⟨rfl, rfl⟩ := List.cons.inj hrest
        exact ⟨hbefore, rfl⟩
    · have hno : (caseVariants c).contains e = false := by simpa using he
      simp only [anyOf, ends, List.any_cons, List.any_nil, Bool.or_false, hno,
        Bool.false_eq_true, if_false, List.not_mem_nil, false_iff]
      rintro ⟨d, hd, hrest, -⟩
      exact he ((List.cons.inj hrest).1 ▸ hd)

/-- A literal ends behind a spelling of it, and nowhere else. -/
theorem mem_ends_lit {word before rest : Str} {q : Pos} :
    q ∈ ends (lit word) (before, rest) ↔
      ∃ text, Spells word text ∧ rest = text ++ q.2 ∧ q.1 = text.reverse ++ before := by
  induction word generalizing before rest with
  | nil =>
    obtain ⟨before', rest'⟩ := q
    constructor
    · intro h
      obtain ⟨rfl, rfl⟩ := Prod.mk.inj (List.mem_singleton.mp h)
      exact ⟨[], .nil, rfl, rfl⟩
    · rintro ⟨text, hspells, hrest, hbefore⟩
      obtain rfl := List.forall₂_nil_left_iff.mp hspells
      dsimp only [List.nil_append, List.reverse_nil] at hrest hbefore
      rw [hrest, hbefore]
      exact List.mem_singleton_self _
  | cons c word ih =>
    have hseq : ends (lit (c :: word)) (before, rest) =
        (ends (anyOf [c]) (before, rest)).flatMap (ends (lit word)) := rfl
    rw [hseq, List.mem_flatMap]
    constructor
    · rintro ⟨⟨before', rest'⟩, hfirst, hrest⟩
      obtain ⟨d, hd, rfl, hbefore⟩ := mem_ends_anyOf.mp hfirst
      obtain ⟨text, hspells, hrest, hend⟩ := ih.mp hrest
      refine ⟨d :: text, .cons hd hspells, ?_, ?_⟩
      · rw [show rest' = text ++ q.2 from hrest, List.cons_append]
      · rw [hend, show before' = d :: before from hbefore]
        simp
    · rintro ⟨text, hspells, hrest, hend⟩
      obtain ⟨d, tail, hd, htail, rfl⟩ := List.forall₂_cons_left_iff.mp hspells
      refine ⟨(d :: before, tail ++ q.2), mem_ends_anyOf.mpr ⟨d, hd, hrest, rfl⟩, ?_⟩
      exact ih.mpr ⟨tail, htail, rfl, by simpa using hend⟩

theorem mem_ends_bounded {r : Regex} {p q : Pos} :
    q ∈ ends (bounded r) p ↔
      atWordBoundary p = true ∧ q ∈ ends r p ∧ atWordBoundary q = true := by
  have hends : ends (bounded r) p = (ends .wordBoundary p).flatMap fun p =>
      (ends r p).flatMap (ends .wordBoundary) := rfl
  have hboundary : ∀ p, ends .wordBoundary p = if atWordBoundary p then [p] else [] :=
    fun _ => rfl
  rw [hends, hboundary]
  split
  · next hp =>
    rw [List.flatMap_cons, List.flatMap_nil, List.append_nil, List.mem_flatMap]
    constructor
    · rintro ⟨q', hq', hq⟩
      rw [hboundary] at hq
      split at hq
      · next hq'' =>
        obtain rfl := List.mem_singleton.mp hq
        exact ⟨hp, hq', hq''⟩
      · exact absurd hq List.not_mem_nil
    · rintro ⟨-, hq, hq'⟩
      refine ⟨q, hq, ?_⟩
      rw [hboundary, if_pos hq']
      exact List.mem_singleton_self q
  · next hp =>
    rw [List.flatMap_nil]
    exact ⟨fun h => absurd h List.not_mem_nil, fun h => absurd h.1 hp⟩

theorem searchFrom_iff {r : Regex} {before text : Str} :
    searchFrom r before text = true ↔
      ∃ skipped rest q, text = skipped ++ rest ∧ q ∈ ends r (skipped.reverse ++ before, rest) := by
  induction text generalizing before with
  | nil =>
    simp only [searchFrom, Bool.not_eq_true', List.isEmpty_eq_false_iff_exists_mem]
    constructor
    · rintro ⟨q, hq⟩
      exact ⟨[], [], q, rfl, hq⟩
    · rintro ⟨skipped, rest, q, htext, hq⟩
      obtain ⟨rfl, rfl⟩ := List.append_eq_nil_iff.mp htext.symm
      exact ⟨q, hq⟩
  | cons c text ih =>
    rw [searchFrom, Bool.or_eq_true, ih, Bool.not_eq_true', List.isEmpty_eq_false_iff_exists_mem]
    constructor
    · rintro (⟨q, hq⟩ | ⟨skipped, rest, q, htext, hq⟩)
      · exact ⟨[], c :: text, q, rfl, hq⟩
      · exact ⟨c :: skipped, rest, q, by rw [htext, List.cons_append], by simpa using hq⟩
    · rintro ⟨skipped, rest, q, htext, hq⟩
      cases skipped with
      | nil => exact .inl ⟨q, by rw [htext]; exact hq⟩
      | cons d skipped =>
        obtain ⟨rfl, htail⟩ := List.cons.inj htext
        exact .inr ⟨skipped, rest, q, htail, by simpa using hq⟩

/-- A search succeeds if a match starts somewhere. -/
theorem search_iff {r : Regex} {text : Str} :
    search r text = true ↔
      ∃ before rest q, text = before ++ rest ∧ q ∈ ends r (before.reverse, rest) := by
  rw [search, searchFrom_iff]
  simp only [List.append_nil]

/-- The search for `\bword\b` finds a spelling of the word with a boundary
on either side. -/
theorem search_bounded_lit_iff {word text : Str} :
    search (bounded (lit word)) text = true ↔
      ∃ before found after, text = before ++ found ++ after ∧ Spells word found ∧
        atWordBoundary (before.reverse, found ++ after) = true ∧
        atWordBoundary ((before ++ found).reverse, after) = true := by
  rw [search_iff]
  constructor
  · rintro ⟨before, rest, q, rfl, hq⟩
    obtain ⟨hstart, hmem, hend⟩ := mem_ends_bounded.mp hq
    obtain ⟨found, hspells, hrest, hbefore⟩ := mem_ends_lit.mp hmem
    obtain ⟨before', after⟩ := q
    dsimp only at hrest hbefore
    subst hrest
    subst hbefore
    refine ⟨before, found, after, (List.append_assoc _ _ _).symm, hspells, hstart, ?_⟩
    rw [List.reverse_append]
    exact hend
  · rintro ⟨before, found, after, rfl, hspells, hstart, hend⟩
    refine ⟨before, found ++ after, ((before ++ found).reverse, after), List.append_assoc _ _ _, ?_⟩
    refine mem_ends_bounded.mpr ⟨hstart, ?_, hend⟩
    exact mem_ends_lit.mpr ⟨found, hspells, rfl, List.reverse_append⟩

end Sentinel.Py.Regex
