/-
Sentinel.Py.UrlFragment — a URL without its fragment.

Cutting a URL off at its first `#` changes the fragment of what `urlsplit`
makes of it and nothing else, as long as the URL has a scheme: every other
part ends in front of the `#` (`urlsplit_without_fragment`).
-/
import Sentinel.Py.UrlSplit

namespace Sentinel.Py

/-! ## Cutting at a character -/

/-- What stands in front of the first `c`. -/
theorem partition_append {c : Char} {s : Str} (h : c ∉ s) (rest : Str) :
    partition c (s ++ c :: rest) = (s, true, rest) := by
  induction s with
  | nil => simp [partition]
  | cons x s ih =>
    obtain ⟨hx, hs⟩ := not_or.mp (List.mem_cons.not.mp h)
    have hne : ¬ x = c := fun heq => hx heq.symm
    simp [partition, hne, ih hs]

/-- A text has no `c`, or is cut at the first one. -/
theorem partition_cases (c : Char) (s : Str) :
    (c ∉ s ∧ partition c s = (s, false, [])) ∨
      ∃ before rest, c ∉ before ∧ s = before ++ c :: rest ∧
        partition c s = (before, true, rest) := by
  by_cases h : c ∈ s
  · right
    obtain ⟨before, rest, rfl, hbefore⟩ := List.eq_append_cons_of_mem h
    exact ⟨before, rest, hbefore, rfl, partition_append hbefore rest⟩
  · exact .inl ⟨h, partition_of_not_mem h⟩

/-! ## The steps of `urlsplit` -/

/-- The URL without what `urlsplit` strips and removes. -/
def cleanUrl (url : Str) : Str := (url.dropWhile isC0ControlOrSpace).filter (!isUnsafeUrlChar ·)

/-- The netloc and the rest behind it. -/
def netlocAndRest (rest : Str) : Str × Str :=
  if startswith rest "//".toList then splitNetloc (rest.drop 2) else ([], rest)

/-- The end of `urlsplit`: the checks of the netloc and the other parts. -/
def splitRest [PyRuntime] (scheme netloc rest : Str) : Except PyError SplitResult :=
  if netloc.contains '[' != netloc.contains ']' then
    .error (.valueError "Invalid IPv6 URL".toList)
  else if netloc.contains '[' && !bracketedNetlocOk netloc then
    .error (.valueError "Invalid IPv6 URL".toList)
  else
    let (rest, _, fragment) := partition '#' rest
    let (path, _, query) := partition '?' rest
    if netlocNfkcOk netloc then .ok ⟨scheme, netloc, path, query, fragment⟩
    else
      .error (.valueError ("netloc '".toList ++ netloc ++
        "' contains invalid characters under NFKC normalization".toList))

theorem urlsplit_eq [PyRuntime] (url : Str) :
    urlsplit url = splitRest (splitScheme (cleanUrl url)).1
      (netlocAndRest (splitScheme (cleanUrl url)).2).1
      (netlocAndRest (splitScheme (cleanUrl url)).2).2 := rfl

theorem cleanUrl_append (v w : Str) : ∃ w', cleanUrl (v ++ '#' :: w) = cleanUrl v ++ '#' :: w' := by
  unfold cleanUrl
  induction v with
  | nil => exact ⟨w.filter (!isUnsafeUrlChar ·), by simp [isC0ControlOrSpace, isUnsafeUrlChar]⟩
  | cons c v ih =>
    rw [List.cons_append]
    by_cases hc : isC0ControlOrSpace c = true
    · rw [List.dropWhile_cons_of_pos hc, List.dropWhile_cons_of_pos hc]
      exact ih
    · rw [List.dropWhile_cons_of_neg hc, List.dropWhile_cons_of_neg hc, ← List.cons_append,
        List.filter_append, List.filter_cons_of_pos (a := '#') (by rfl)]
      exact ⟨_, rfl⟩

theorem hash_not_mem_cleanUrl {v : Str} (h : '#' ∉ v) : '#' ∉ cleanUrl v := by
  intro hmem
  exact h ((List.dropWhile_suffix _).subset (List.mem_of_mem_filter hmem))

/-- A scheme ends in front of a `#`. -/
theorem splitScheme_append {v w : Str} (h : (splitScheme (v ++ '#' :: w)).1 ≠ []) :
    splitScheme (v ++ '#' :: w) = ((splitScheme v).1, (splitScheme v).2 ++ '#' :: w) := by
  unfold splitScheme at h ⊢
  rcases partition_cases ':' v with ⟨hno, -⟩ | ⟨before, after, hbefore, rfl, hpart⟩
  · exfalso
    apply h
    rcases partition_cases ':' (v ++ '#' :: w) with ⟨-, hpart⟩ | ⟨before, rest, -, hsplit, hpart⟩
    · rw [hpart]
      dsimp only
      split
      · rw [if_neg (by simp)]
      · rfl
    · -- the colon stands behind the `#`, which is in no scheme
      have hhash : '#' ∈ before := by
        rcases List.append_eq_append_iff.mp hsplit with ⟨t, rfl, ht⟩ | ⟨t, rfl, ht⟩
        · cases t with
          | nil => simp at ht
          | cons x t =>
            obtain ⟨rfl, -⟩ := List.cons.inj ht
            simp
        · cases t with
          | nil => simp at ht
          | cons x t =>
            obtain ⟨rfl, -⟩ := List.cons.inj ht
            exact absurd (by simp) hno
      have hchars : before.all isSchemeChar = false := List.all_eq_false.mpr ⟨'#', hhash, by decide⟩
      rw [hpart]
      dsimp only
      split
      · rw [if_neg (by rw [hchars]; simp)]
      · rfl
  · have hlong : before ++ ':' :: after ++ '#' :: w = before ++ ':' :: (after ++ '#' :: w) := by simp
    rw [hlong, partition_append hbefore] at h
    rw [hlong, partition_append hbefore, hpart]
    cases before with
    | nil => exact absurd rfl h
    | cons c before =>
      dsimp only at h ⊢
      split at h
      · next hscheme => rw [if_pos hscheme, if_pos hscheme]
      · exact absurd rfl h

/-- What a run of `p` ends in front of, it ends in front of in any text. -/
theorem span_append {p : Char → Bool} {x : Char} (hx : p x = false) (v w : Str) :
    (v ++ x :: w).span p = ((v.span p).1, (v.span p).2 ++ x :: w) := by
  rw [List.span_eq_takeWhile_dropWhile, List.span_eq_takeWhile_dropWhile]
  induction v with
  | nil => simp [hx]
  | cons c v ih =>
    rw [List.cons_append]
    by_cases hc : p c = true
    · obtain ⟨htake, hdrop⟩ := Prod.mk.inj ih
      rw [List.takeWhile_cons_of_pos hc, List.takeWhile_cons_of_pos hc,
        List.dropWhile_cons_of_pos hc, List.dropWhile_cons_of_pos hc, htake, hdrop]
    · rw [List.takeWhile_cons_of_neg hc, List.takeWhile_cons_of_neg hc,
        List.dropWhile_cons_of_neg hc, List.dropWhile_cons_of_neg hc, List.cons_append]

/-- A netloc ends in front of a `#`. -/
theorem netlocAndRest_append (v w : Str) :
    netlocAndRest (v ++ '#' :: w) =
      ((netlocAndRest v).1, (netlocAndRest v).2 ++ '#' :: w) := by
  unfold netlocAndRest startswith
  match v with
  | [] => rfl
  | [c] => simp
  | c :: d :: v =>
    have hslashes : ∀ t, "//".toList.isPrefixOf (c :: d :: t) = ('/' == c && '/' == d) :=
      fun t => by simp [List.isPrefixOf]
    rw [List.cons_append, List.cons_append, hslashes, hslashes]
    split
    · exact span_append (by decide) v w
    · rfl

/-- What follows the scheme is the end of the URL. -/
theorem splitScheme_suffix (v : Str) : (splitScheme v).2 <:+ v := by
  unfold splitScheme
  rcases partition_cases ':' v with ⟨-, hpart⟩ | ⟨before, after, -, hv, hpart⟩
  · rw [hpart]
    dsimp only
    split
    · rw [if_neg (by simp)]
    · exact List.suffix_refl _
  · have hsuffix : after <:+ v := ⟨before ++ [':'], by rw [hv, List.append_cons before]; simp⟩
    rw [hpart]
    dsimp only
    split
    · split
      · exact hsuffix
      · exact List.suffix_refl _
    · exact List.suffix_refl _

theorem netlocAndRest_suffix (v : Str) : (netlocAndRest v).2 <:+ v := by
  unfold netlocAndRest splitNetloc
  split
  · rw [List.span_eq_takeWhile_dropWhile]
    exact (List.dropWhile_suffix _).trans (List.drop_suffix 2 v)
  · exact List.suffix_refl _

theorem splitRest_scheme [PyRuntime] {scheme netloc rest : Str} {parts : SplitResult}
    (h : splitRest scheme netloc rest = .ok parts) : parts.scheme = scheme := by
  unfold splitRest at h
  split at h
  · exact nomatch h
  · split at h
    · exact nomatch h
    · dsimp only at h
      split at h
      · rw [← Except.ok.inj h]
      · exact nomatch h

/-- **A URL without its fragment**: the same scheme, netloc, path and query. -/
theorem urlsplit_without_fragment [PyRuntime] {url : Str} {parts : SplitResult}
    (h : urlsplit url = .ok parts) (hscheme : parts.scheme ≠ []) :
    ∃ fragment, urlsplit (partition '#' url).1 = .ok { parts with fragment := fragment } := by
  rcases partition_cases '#' url with ⟨-, hpart⟩ | ⟨v, w, hv, rfl, hpart⟩
  · rw [hpart]
    exact ⟨parts.fragment, h⟩
  · rw [hpart]
    obtain ⟨w', hclean⟩ := cleanUrl_append v w
    rw [urlsplit_eq, hclean] at h
    rw [splitRest_scheme h] at hscheme
    rw [splitScheme_append hscheme] at h
    dsimp only at h
    rw [netlocAndRest_append] at h
    rw [urlsplit_eq]
    dsimp only at h ⊢
    have hnone : '#' ∉ (netlocAndRest (splitScheme (cleanUrl v)).2).2 := by
      intro hmem
      have hclean := (netlocAndRest_suffix _).subset hmem
      exact hash_not_mem_cleanUrl hv ((splitScheme_suffix _).subset hclean)
    generalize netlocAndRest (splitScheme (cleanUrl v)).2 = cut at h hnone ⊢
    obtain ⟨netloc, rest⟩ := cut
    unfold splitRest at h ⊢
    rw [partition_append hnone] at h
    rw [partition_of_not_mem hnone]
    dsimp only at h ⊢
    split at h
    · exact nomatch h
    · next hbrackets =>
      rw [if_neg hbrackets]
      split at h
      · exact nomatch h
      · next hbracketed =>
        rw [if_neg hbracketed]
        split at h
        · next hnfkc =>
          rw [if_pos hnfkc, ← Except.ok.inj h]
          exact ⟨[], rfl⟩
        · exact nomatch h

end Sentinel.Py
