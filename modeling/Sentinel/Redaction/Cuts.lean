/-
Sentinel.Redaction.Cuts — which letters of a text are cut out.

What a pass does to a text is told letter by letter (`fates`), and the new
text follows from the old one and these fates (`pass_reading`). The letters
may carry labels that the pass does not read, such as the place a letter
comes from: the labels that are left tell what the pass has removed.

Words replaced one after another are looked for in what the earlier ones
have left. Where no two of them would cut out the same letter of the first
text, they cut out what each would on its own (`replaceEach_eq_render`), in
any order (`cutBy_perm`).
-/
import Sentinel.Redaction.Splice

namespace Sentinel.Redaction

variable {α β ι : Type}

/-! ## Fates -/

/-- What a pass does with a letter: it stays, or it is the first or a later
one of a stretch that is cut out. -/
inductive Fate where
  | kept
  | head
  | body
  deriving DecidableEq, Repr

/-- A letter two passes cut out is a first one if it is one for either. -/
def Fate.join : Fate → Fate → Fate
  | .kept, f => f
  | f, .kept => f
  | .body, .body => .body
  | _, _ => .head

@[simp] theorem Fate.kept_join (f : Fate) : Fate.kept.join f = f := rfl

@[simp] theorem Fate.join_kept (f : Fate) : f.join .kept = f := by cases f <;> rfl

theorem Fate.join_right_comm (f g h : Fate) : (f.join g).join h = (f.join h).join g := by
  cases f <;> cases g <;> cases h <;> rfl

theorem Fate.join_absorb (f g : Fate) : (f.join g).join g = f.join g := by
  cases f <;> cases g <;> rfl

theorem Fate.join_eq_kept {f g : Fate} : f.join g = .kept ↔ f = .kept ∧ g = .kept := by
  cases f <;> cases g <;> decide

theorem Fate.join_ne_body {f g : Fate} (hf : f ≠ .body) (hg : g ≠ .body) : f.join g ≠ .body := by
  cases f <;> cases g <;> first | decide | contradiction

/-- What a pass does with each letter. -/
def fates (found : List α → List α → Nat) (before : List α) : Nat → List α → List Fate
  | _, [] => []
  | skip + 1, c :: rest => .body :: fates found (c :: before) skip rest
  | 0, c :: rest =>
      match found before (c :: rest) with
      | 0 => .kept :: fates found (c :: before) 0 rest
      | len + 1 => .head :: fates found (c :: before) len rest

theorem length_fates (found : List α → List α → Nat) (before : List α) (skip : Nat)
    (text : List α) : (fates found before skip text).length = text.length := by
  induction text generalizing before skip with
  | nil => cases skip <;> rfl
  | cons c rest ih =>
    cases skip with
    | succ skip => simp [fates, ih]
    | zero =>
      rw [fates]
      cases found before (c :: rest) with
      | zero => simp [ih]
      | succ len => simp [ih]

/-- The text that some fates make of a text. -/
def render (m : List β) : List β → List Fate → List β
  | c :: text, .kept :: fs => c :: render m text fs
  | _ :: text, .head :: fs => m ++ render m text fs
  | _ :: text, .body :: fs => render m text fs
  | _, _ => []

@[simp] theorem render_nil (m : List β) (fs : List Fate) : render m [] fs = [] := by
  cases fs <;> rfl

/-! ## Letters with labels -/

/-- Look for a match in the letters, whatever else they carry. -/
def reading (letter : β → α) (found : List α → List α → Nat) (before rest : List β) : Nat :=
  found (before.map letter) (rest.map letter)

/-- A pass makes of a text what its fates say. -/
theorem pass_reading (letter : β → α) (found : List α → List α → Nat) (m before : List β)
    (skip : Nat) (text : List β) : pass (reading letter found) m before skip text =
      render m text (fates found (before.map letter) skip (text.map letter)) := by
  induction text generalizing before skip with
  | nil => cases skip <;> rfl
  | cons c rest ih =>
    cases skip with
    | succ skip => exact ih (c :: before) skip
    | zero =>
      rw [pass, reading, List.map_cons, fates]
      cases found (before.map letter) (letter c :: rest.map letter) with
      | zero => exact congrArg (c :: ·) (ih (c :: before) 0)
      | succ len => exact congrArg (m ++ ·) (ih (c :: before) len)

theorem pass_eq_render (found : List α → List α → Nat) (m before : List α) (skip : Nat)
    (text : List α) :
    pass found m before skip text = render m text (fates found before skip text) := by
  have h := pass_reading id found m before skip text
  rw [List.map_id, List.map_id] at h
  have hfound : reading id found = found := by
    funext before rest
    rw [reading, List.map_id, List.map_id]
  rwa [hfound] at h

theorem map_render (letter : β → α) (m text : List β) (fs : List Fate) :
    (render m text fs).map letter = render (m.map letter) (text.map letter) fs := by
  induction text generalizing fs with
  | nil => simp
  | cons c text ih =>
    cases fs with
    | nil => rfl
    | cons f fs => cases f <;> simp [render, ih]

/-- The labels make no difference to the letters of the result. -/
theorem map_replaceMatches (letter : β → α) (found : List α → List α → Nat) (m text : List β) :
    (replaceMatches (reading letter found) m text).map letter =
      replaceMatches found (m.map letter) (text.map letter) := by
  rw [replaceMatches, pass_reading, map_render, replaceMatches, pass_eq_render, List.map_nil]

/-- The labels of a text. -/
def labels (label : β → Option ι) (text : List β) : List ι := text.filterMap label

/-- A mark without labels brings none in. -/
theorem labels_replaceMatches (label : β → Option ι) {m : List β} (hm : labels label m = [])
    (found : List β → List β → Nat) (text : List β) :
    (labels label (replaceMatches found m text)).Sublist (labels label text) := by
  have hpass : ∀ before skip,
      (labels label (pass found m before skip text)).Sublist (labels label text) := by
    induction text with
    | nil => intro before skip; cases skip <;> exact .slnil
    | cons c rest ih =>
      have hdrop : (labels label rest).Sublist (labels label (c :: rest)) :=
        (List.sublist_cons_self c rest).filterMap label
      intro before skip
      cases skip with
      | succ skip => exact (ih (c :: before) skip).trans hdrop
      | zero =>
        rw [pass]
        cases found before (c :: rest) with
        | zero =>
          have hrest := ih (c :: before) 0
          unfold labels at hrest ⊢
          cases hlabel : label c with
          | none => simpa [hlabel] using hrest
          | some i => simpa [hlabel] using hrest
        | succ len =>
          have hrest := ih (c :: before) len
          unfold labels at hm hrest hdrop ⊢
          simpa [hm] using hrest.trans hdrop
  exact hpass [] 0

/-- A label that is left was the label of a kept letter. -/
theorem mem_labels_render (label : β → Option ι) {m : List β} (hm : labels label m = [])
    {text : List β} {fs : List Fate} {i : ι} (h : i ∈ labels label (render m text fs)) :
    ∃ j : Nat, text[j]?.bind label = some i ∧ fs[j]? = some .kept := by
  induction text generalizing fs with
  | nil => simp [labels] at h
  | cons c text ih =>
    cases fs with
    | nil => simp [labels, render] at h
    | cons f fs =>
      have hlater : i ∈ labels label (render m text fs) →
          ∃ j : Nat, (c :: text)[j]?.bind label = some i ∧ (f :: fs)[j]? = some .kept := by
        intro hin
        obtain ⟨j, hlabel, hkept⟩ := ih hin
        exact ⟨j + 1, hlabel, hkept⟩
      cases f with
      | head =>
        rw [render, labels, List.filterMap_append, ← labels, hm] at h
        exact hlater h
      | body => exact hlater h
      | kept =>
        rw [render, labels, List.filterMap_cons] at h
        cases hlabel : label c with
        | none =>
          rw [hlabel] at h
          exact hlater h
        | some k =>
          rw [hlabel] at h
          rcases List.mem_cons.mp h with rfl | hin
          · exact ⟨0, hlabel, rfl⟩
          · exact hlater hin

/-! ## Cutting out of what is left -/

/-- Every stretch has a first letter; `prev` is the fate of the letter before. -/
def Whole (prev : Fate) : List Fate → Prop
  | [] => True
  | f :: fs => (prev = .kept → f ≠ .body) ∧ Whole f fs

/-- No letter is cut out by both. -/
def Apart (fs gs : List Fate) : Prop :=
  ∀ (i : Nat) (f g : Fate), fs[i]? = some f → gs[i]? = some g → f = .kept ∨ g = .kept

theorem Apart.head {f g : Fate} {fs gs : List Fate} (h : Apart (f :: fs) (g :: gs)) :
    f = .kept ∨ g = .kept :=
  h 0 f g rfl rfl

theorem Apart.tail {f g : Fate} {fs gs : List Fate} (h : Apart (f :: fs) (g :: gs)) :
    Apart fs gs :=
  fun i f' g' hf hg => h (i + 1) f' g' hf hg

theorem fates_whole (found : List α → List α → Nat) (before : List α) (skip : Nat)
    (text : List α) {prev : Fate} (hprev : skip = 0 ∨ prev ≠ .kept) :
    Whole prev (fates found before skip text) := by
  induction text generalizing before skip prev with
  | nil => cases skip <;> exact True.intro
  | cons c rest ih =>
    cases skip with
    | succ skip =>
      have hcut : prev ≠ .kept := hprev.resolve_left (Nat.succ_ne_zero skip)
      exact ⟨fun h => absurd h hcut, ih (c :: before) skip (.inr (by decide))⟩
    | zero =>
      rw [fates]
      cases found before (c :: rest) with
      | zero => exact ⟨fun _ => by decide, ih (c :: before) 0 (.inl rfl)⟩
      | succ len => exact ⟨fun _ => by decide, ih (c :: before) len (.inr (by decide))⟩

theorem Whole.join {prev prev' : Fate} {fs gs : List Fate} (hf : Whole prev fs)
    (hg : Whole prev' gs) : Whole (prev.join prev') (List.zipWith Fate.join fs gs) := by
  induction fs generalizing prev prev' gs with
  | nil => exact True.intro
  | cons f fs ih =>
    cases gs with
    | nil => exact True.intro
    | cons g gs =>
      refine ⟨fun h => ?_, ih hf.2 hg.2⟩
      obtain ⟨hprev, hprev'⟩ := Fate.join_eq_kept.mp h
      exact Fate.join_ne_body (hf.1 hprev) (hg.1 hprev')

variable {opening closing : α} {inside word : List α} {letter : β → α} {m : List β}

/-- A word without the opening letter that starts what is left started the
text. -/
theorem Whole.old_start (hm : m.map letter = mark opening inside closing) (hopen : opening ∉ word)
    {text : List β} {fs : List Fate} (hfs : Whole .kept fs)
    (hpre : word <+: (render m text fs).map letter) : word <+: text.map letter := by
  induction text generalizing word fs with
  | nil => simpa using hpre
  | cons c text ih =>
    cases word with
    | nil => exact List.nil_prefix
    | cons x word =>
      cases fs with
      | nil => exact absurd hpre (by simp [render])
      | cons f fs =>
        cases f with
        | kept =>
          rw [render, List.map_cons, List.cons_prefix_cons] at hpre
          rw [List.map_cons, List.cons_prefix_cons]
          exact ⟨hpre.1, ih (fun hmem => hopen (List.mem_cons_of_mem x hmem)) hfs.2 hpre.2⟩
        | head =>
          rw [render, List.map_append, hm] at hpre
          have hnil : x :: word = [] := eq_nil_of_prefix_cons hopen hpre
          exact absurd hnil (List.cons_ne_nil x word)
        | body => exact absurd rfl (hfs.1 rfl)

/-- What starts the text is left whole where a word is being cut out that
the fates are apart from. -/
theorem Apart.prefix_render {found : List α → List α → Nat} {before start : List α}
    {text : List β} {fs : List Fate} (hlen : fs.length = text.length)
    (h : Apart fs (fates found before start.length (text.map letter)))
    (hpre : start <+: text.map letter) : start <+: (render m text fs).map letter := by
  induction start generalizing before text fs with
  | nil => exact List.nil_prefix
  | cons x start ih =>
    cases text with
    | nil => exact absurd hpre (by simp)
    | cons c text =>
      cases fs with
      | nil => simp at hlen
      | cons f fs =>
        obtain rfl : f = .kept := h.head.resolve_right (by decide)
        rw [List.map_cons, List.cons_prefix_cons] at hpre
        rw [render, List.map_cons, List.cons_prefix_cons]
        exact ⟨hpre.1, ih (by simpa using hlen) h.tail hpre.2⟩

/-- A word without `x` that starts before an `x` ends before it. -/
theorem prefix_append_cons {x : α} (hx : x ∉ word) {left right : List α}
    (h : word <+: left ++ x :: right) : word <+: left := by
  rcases List.prefix_or_prefix_of_prefix h (List.prefix_append left (x :: right))
    with hshort | ⟨more, rfl⟩
  · exact hshort
  · have hrest : more <+: x :: right := (List.prefix_append_right_inj left).mp h
    have hmore : more = [] :=
      eq_nil_of_prefix_cons (fun hmem => hx (List.mem_append_right left hmem)) hrest
    rw [hmore, List.append_nil]

variable [DecidableEq α]

theorem wordAt_of_start {text : List α} (before : List α) (h : word <+: text) :
    wordAt word before text = word.length := by
  rw [wordAt, if_pos (List.isPrefixOf_iff_prefix.mpr h)]

theorem wordAt_of_not_start {text : List α} (before : List α) (h : ¬ word <+: text) :
    wordAt word before text = 0 := by
  rw [wordAt, if_neg fun hpre => h (List.isPrefixOf_iff_prefix.mp hpre)]

/-- A letter where the word does not start is copied. -/
theorem pass_copy (before : List β) {c : β} {rest : List β}
    (h : ¬ word <+: (c :: rest).map letter) :
    pass (reading letter (wordAt word)) m before 0 (c :: rest) =
      c :: pass (reading letter (wordAt word)) m (c :: before) 0 rest := by
  rw [pass, reading, wordAt_of_not_start _ h]

/-- A stretch up to a closing letter is copied if the word is not in it. -/
theorem pass_copy_closed (hclose : closing ∉ word) (hne : word ≠ []) (before : List β)
    {left rest : List β} {z : β} (hz : letter z = closing) (hleft : ¬ word <:+: left.map letter) :
    ∃ before', pass (reading letter (wordAt word)) m before 0 (left ++ z :: rest) =
      left ++ z :: pass (reading letter (wordAt word)) m before' 0 rest := by
  induction left generalizing before with
  | nil =>
    refine ⟨z :: before, pass_copy before fun hpre => hne ?_⟩
    rw [List.map_cons, hz] at hpre
    exact eq_nil_of_prefix_cons hclose hpre
  | cons y left ih =>
    rw [List.map_cons] at hleft
    obtain ⟨before', hrest⟩ := ih (y :: before) fun hin => hleft (List.infix_cons hin)
    refine ⟨before', ?_⟩
    rw [List.cons_append, pass_copy before, hrest, List.cons_append]
    intro hpre
    rw [List.map_cons, List.map_append, List.map_cons, hz] at hpre
    have hhere : word <+: letter y :: left.map letter := prefix_append_cons hclose hpre
    exact hleft hhere.isInfix

/-- A mark is copied. -/
theorem Foreign.pass_mark (hw : Foreign opening inside closing word)
    (hm : m.map letter = mark opening inside closing) (before rest : List β) :
    ∃ before', pass (reading letter (wordAt word)) m before 0 (m ++ rest) =
      m ++ pass (reading letter (wordAt word)) m before' 0 rest := by
  rw [mark, ← List.cons_append] at hm
  obtain ⟨left, last, hsplit, hleft, hlast⟩ := List.map_eq_append_iff.mp hm
  obtain ⟨z, rfl, hz⟩ : ∃ z, last = [z] ∧ letter z = closing := by
    obtain ⟨z, hlast', hz⟩ := List.map_eq_singleton_iff.mp hlast
    exact ⟨z, hlast', hz⟩
  have hnone : ¬ word <:+: left.map letter := by
    rw [hleft]
    intro hin
    exact hw.not_infix_mark (hin.trans (List.prefix_append (opening :: inside) [closing]).isInfix)
  obtain ⟨before', hcopy⟩ := pass_copy_closed (m := m) hw.closing hw.ne_nil before hz hnone
  refine ⟨before', ?_⟩
  calc pass (reading letter (wordAt word)) m before 0 (m ++ rest)
      = pass (reading letter (wordAt word)) m before 0 (left ++ z :: rest) := by
        rw [hsplit, List.append_assoc, List.singleton_append]
    _ = left ++ z :: pass (reading letter (wordAt word)) m before' 0 rest := hcopy
    _ = m ++ pass (reading letter (wordAt word)) m before' 0 rest := by
        rw [hsplit, List.append_assoc, List.singleton_append]

/-- **One more word.** Where other stretches have been cut out that are
apart from those of a word, replacing the word cuts out its own stretches
of the first text. -/
theorem pass_render (hw : Foreign opening inside closing word)
    (hm : m.map letter = mark opening inside closing) (before : List β) (before' : List α)
    (skip : Nat) {prev : Fate} {text : List β} {fs : List Fate} (hlen : fs.length = text.length)
    (hwhole : Whole prev fs)
    (hapart : Apart fs (fates (wordAt word) before' skip (text.map letter))) :
    pass (reading letter (wordAt word)) m before skip (render m text fs) =
      render m text (List.zipWith Fate.join fs
        (fates (wordAt word) before' skip (text.map letter))) := by
  induction text generalizing before before' skip prev fs with
  | nil => simp [pass]
  | cons c text ih =>
    cases fs with
    | nil => simp at hlen
    | cons f fs =>
      have hlen' : fs.length = text.length := by simpa using hlen
      cases skip with
      | succ skip =>
        -- inside an occurrence of the word: nothing else is cut out here
        obtain rfl : f = .kept := hapart.head.resolve_right (by decide)
        exact ih (c :: before) (letter c :: before') skip hlen' hwhole.2 hapart.tail
      | zero =>
        by_cases hpre : word <+: (c :: text).map letter
        · -- the word starts here, and all of it is left
          cases word with
          | nil => exact absurd rfl hw.ne_nil
          | cons x word =>
            rw [List.map_cons, fates, ← List.map_cons, wordAt_of_start _ hpre] at hapart ⊢
            obtain rfl : f = .kept := hapart.head.resolve_right (by decide)
            have hleft : x :: word <+: (c :: render m text fs).map letter := by
              rw [List.map_cons, List.cons_prefix_cons] at hpre ⊢
              exact ⟨hpre.1, hapart.tail.prefix_render hlen' hpre.2⟩
            rw [render, pass, reading, wordAt_of_start _ hleft]
            have hrest := ih (c :: before) (letter c :: before') word.length hlen' hwhole.2
              hapart.tail
            exact congrArg (m ++ ·) hrest
        · rw [List.map_cons, fates, ← List.map_cons, wordAt_of_not_start _ hpre] at hapart ⊢
          cases f with
          | kept =>
            have hwhole' : Whole .kept (.kept :: fs) := ⟨fun _ => by decide, hwhole.2⟩
            have hleft : ¬ word <+: (c :: render m text fs).map letter :=
              fun h => hpre (hwhole'.old_start hm hw.opening h)
            rw [render, pass_copy before hleft]
            have hrest := ih (c :: before) (letter c :: before') 0 hlen' hwhole.2 hapart.tail
            exact congrArg (c :: ·) hrest
          | head =>
            obtain ⟨before'', hcopy⟩ := hw.pass_mark hm before (render m text fs)
            rw [render, hcopy]
            have hrest := ih before'' (letter c :: before') 0 hlen' hwhole.2 hapart.tail
            exact congrArg (m ++ ·) hrest
          | body => exact ih before (letter c :: before') 0 hlen' hwhole.2 hapart.tail

/-! ## Words one after another -/

/-- A pass that finds nothing keeps the text. -/
theorem pass_of_none {found : List β → List β → Nat} {text : List β}
    (h : ∀ before rest, rest <:+ text → found before rest = 0) (before : List β) :
    pass found m before 0 text = text := by
  induction text generalizing before with
  | nil => rfl
  | cons c rest ih =>
    rw [pass, h before (c :: rest) List.suffix_rfl]
    exact congrArg (c :: ·) (ih (fun b r hr => h b r (hr.trans (List.suffix_cons c rest))) _)

theorem wordAt_of_absent {text : List α} (h : word = [] ∨ ¬ word <:+: text) (before : List α)
    {rest : List α} (hrest : rest <:+ text) : wordAt word before rest = 0 := by
  rcases h with rfl | habsent
  · rw [wordAt_of_start _ List.nil_prefix, List.length_nil]
  · exact wordAt_of_not_start _ fun hpre => habsent (hpre.isInfix.trans hrest.isInfix)

theorem replaceMatches_absent {text : List β} (h : word = [] ∨ ¬ word <:+: text.map letter) :
    replaceMatches (reading letter (wordAt word)) m text = text :=
  pass_of_none (fun _ _ hrest => wordAt_of_absent h _ (hrest.map letter)) []

/-- What replacing one word alone does with each letter. -/
def wordFates (word text : List α) : List Fate := fates (wordAt word) [] 0 text

theorem length_wordFates (word text : List α) : (wordFates word text).length = text.length :=
  length_fates _ _ _ _

/-- An absent word cuts out nothing. -/
theorem wordFates_of_absent {text : List α} (h : word = [] ∨ ¬ word <:+: text) :
    wordFates word text = List.replicate text.length Fate.kept := by
  have hfates : ∀ before rest, rest <:+ text →
      fates (wordAt word) before 0 rest = List.replicate rest.length .kept := by
    intro before rest hrest
    induction rest generalizing before with
    | nil => rfl
    | cons c rest ih =>
      rw [fates, wordAt_of_absent h before hrest]
      exact congrArg (Fate.kept :: ·) (ih (c :: before) ((List.suffix_cons c rest).trans hrest))
  exact hfates [] text List.suffix_rfl

/-- Replace some words, one after another, in the letters of a text. -/
def replaceEach (letter : β → α) (m : List β) (words : List (List α)) (text : List β) : List β :=
  words.foldl (fun text word => replaceMatches (reading letter (wordAt word)) m text) text

theorem replaceEach_append_singleton (letter : β → α) (m : List β) (words : List (List α))
    (word : List α) (text : List β) : replaceEach letter m (words ++ [word]) text =
      replaceMatches (reading letter (wordAt word)) m (replaceEach letter m words text) :=
  List.foldl_concat _ _ _ _

/-- A mark without labels brings none in, however often. -/
theorem labels_replaceEach (label : β → Option ι) (hm : labels label m = [])
    (words : List (List α)) (text : List β) :
    (labels label (replaceEach letter m words text)).Sublist (labels label text) := by
  induction words generalizing text with
  | nil => exact List.Sublist.refl _
  | cons word words ih => exact (ih _).trans (labels_replaceMatches label hm _ text)

/-- What the words together cut out of a text, each on its own. -/
def cutBy : List (List α) → List α → List Fate
  | [], text => List.replicate text.length .kept
  | word :: words, text => List.zipWith Fate.join (cutBy words text) (wordFates word text)

theorem length_cutBy (words : List (List α)) (text : List α) :
    (cutBy words text).length = text.length := by
  induction words with
  | nil => exact List.length_replicate
  | cons word words ih => rw [cutBy, List.length_zipWith, ih, length_wordFates, Nat.min_self]

theorem cutBy_whole (words : List (List α)) (text : List α) : Whole .kept (cutBy words text) := by
  induction words with
  | nil =>
    rw [cutBy]
    induction text with
    | nil => exact True.intro
    | cons c rest ih => exact ⟨fun _ => by decide, ih⟩
  | cons word words ih => exact ih.join (fates_whole (wordAt word) [] 0 text (.inl rfl))

theorem zipWith_join_right_comm (fs gs hs : List Fate) :
    List.zipWith Fate.join (List.zipWith Fate.join fs gs) hs =
      List.zipWith Fate.join (List.zipWith Fate.join fs hs) gs := by
  induction fs generalizing gs hs with
  | nil => rfl
  | cons f fs ih => cases gs <;> cases hs <;> simp [Fate.join_right_comm, ih]

theorem zipWith_join_absorb (fs gs : List Fate) :
    List.zipWith Fate.join (List.zipWith Fate.join fs gs) gs = List.zipWith Fate.join fs gs := by
  induction fs generalizing gs with
  | nil => rfl
  | cons f fs ih => cases gs <;> simp [Fate.join_absorb, ih]

theorem zipWith_join_replicate (fs : List Fate) (n : Nat) (h : fs.length = n) :
    List.zipWith Fate.join fs (List.replicate n .kept) = fs := by
  induction fs generalizing n with
  | nil => rfl
  | cons f fs ih =>
    subst h
    simp [List.replicate_succ, ih]

/-- What the words cut out does not depend on their order. -/
theorem cutBy_perm {words words' : List (List α)} (h : words.Perm words') (text : List α) :
    cutBy words text = cutBy words' text := by
  induction h with
  | nil => rfl
  | cons word _ ih => rw [cutBy, ih, cutBy]
  | swap word word' words => exact zipWith_join_right_comm _ _ _
  | trans _ _ ih ih' => exact ih.trans ih'

/-- A word that is there already adds nothing. -/
theorem cutBy_of_mem {words : List (List α)} (h : word ∈ words) (text : List α) :
    cutBy (word :: words) text = cutBy words text := by
  obtain ⟨front, back, rfl⟩ := List.append_of_mem h
  have hfront : (front ++ word :: back).Perm (word :: (front ++ back)) := List.perm_middle
  rw [cutBy, cutBy_perm hfront, cutBy]
  exact zipWith_join_absorb _ _

/-- A letter that is kept is kept by every word. -/
theorem kept_of_cutBy {words : List (List α)} {text : List α} {i : Nat}
    (h : (cutBy words text)[i]? = some .kept) :
    ∀ word ∈ words, (wordFates word text)[i]? = some .kept := by
  induction words with
  | nil => exact fun _ hmem => absurd hmem List.not_mem_nil
  | cons word words ih =>
    obtain ⟨f, g, hf, hg, hjoin⟩ := List.getElem?_zipWith_eq_some.mp h
    obtain ⟨rfl, rfl⟩ := Fate.join_eq_kept.mp hjoin
    exact List.forall_mem_cons.mpr ⟨hg, ih hf⟩

/-- Words apart from `word` are together apart from it. -/
theorem cutBy_apart {words : List (List α)} {text : List α}
    (h : ∀ word' ∈ words, Apart (wordFates word' text) (wordFates word text)) :
    Apart (cutBy words text) (wordFates word text) := by
  induction words with
  | nil =>
    intro i f g hf _
    rw [cutBy, List.getElem?_replicate] at hf
    split at hf
    · exact .inl (Option.some.inj hf).symm
    · cases hf
  | cons word' words ih =>
    obtain ⟨hword', hwords⟩ := List.forall_mem_cons.mp h
    intro i f g hf hg
    obtain ⟨f', g', hf', hg', rfl⟩ := List.getElem?_zipWith_eq_some.mp hf
    rcases ih hwords i f' g hf' hg with rfl | hkept
    · rw [Fate.kept_join]
      exact hword' i g' g hg' hg
    · exact .inr hkept

/-- A word that has been replaced stays out. -/
theorem replaceEach_absent (hw : Foreign opening inside closing word)
    (hm : m.map letter = mark opening inside closing) {words : List (List α)} {text : List β}
    (h : word ∈ words ∨ ¬ word <:+: text.map letter) :
    ¬ word <:+: (replaceEach letter m words text).map letter := by
  induction words generalizing text with
  | nil => exact h.resolve_left List.not_mem_nil
  | cons old words ih =>
    refine ih (or_iff_not_imp_left.mpr fun hmem => ?_)
    rw [map_replaceMatches, hm]
    by_cases heq : word = old
    · rw [← heq]
      exact not_infix_replaceAll hw _
    · have habsent : ¬ word <:+: text.map letter :=
        h.resolve_left fun hin => (List.mem_cons.mp hin).elim heq hmem
      exact fun hin => habsent ((replaceMatches_spliced _ _ _).old_word hw hin)

theorem render_replicate (m text : List β) :
    render m text (List.replicate text.length .kept) = text := by
  induction text with
  | nil => rfl
  | cons c text ih =>
    rw [List.length_cons, List.replicate_succ, render, ih]

/-- **Words that are apart are cut out at once.** Replaced one after
another, they cut out of the first text what each would on its own. -/
theorem replaceEach_eq_render (hm : m.map letter = mark opening inside closing)
    {words : List (List α)} (text : List β)
    (hwords : ∀ word ∈ words, word ≠ [] → Foreign opening inside closing word)
    (hapart : ∀ word ∈ words, ∀ word' ∈ words, word ≠ word' →
      Apart (wordFates word (text.map letter)) (wordFates word' (text.map letter))) :
    replaceEach letter m words text = render m text (cutBy words (text.map letter)) := by
  induction words using List.reverseRecOn with
  | nil => rw [cutBy, List.length_map, render_replicate, replaceEach, List.foldl_nil]
  | append_singleton words word ih =>
    have hold : ∀ word' ∈ words, word' ∈ words ++ [word] :=
      fun _ hmem => List.mem_append_left [word] hmem
    have hlast : word ∈ words ++ [word] := List.mem_append_right words (List.mem_singleton_self word)
    have hdone := ih (fun word' hmem => hwords word' (hold word' hmem))
      (fun word' hmem word'' hmem' => hapart word' (hold word' hmem) word'' (hold word'' hmem'))
    have hperm : (words ++ [word]).Perm (word :: words) := List.perm_append_singleton word words
    rw [cutBy_perm hperm, replaceEach_append_singleton]
    by_cases hnil : word = []
    · rw [replaceMatches_absent (.inl hnil), hdone, cutBy, wordFates_of_absent (.inl hnil),
        zipWith_join_replicate _ _ (length_cutBy words _)]
    · have hw := hwords word hlast hnil
      by_cases hmem : word ∈ words
      · rw [replaceMatches_absent (.inr (replaceEach_absent hw hm (.inl hmem))), hdone,
          cutBy_of_mem hmem]
      · have hnew : Apart (cutBy words (text.map letter)) (wordFates word (text.map letter)) := by
          refine cutBy_apart fun word' hmem' => ?_
          refine hapart word' (hold word' hmem') word hlast fun heq => hmem (heq ▸ hmem')
        have hlen : (cutBy words (text.map letter)).length = text.length := by
          rw [length_cutBy, List.length_map]
        rw [hdone, replaceMatches, cutBy]
        exact pass_render hw hm [] [] 0 hlen (cutBy_whole words _) hnew

end Sentinel.Redaction
