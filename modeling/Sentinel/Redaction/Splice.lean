/-
Sentinel.Redaction.Splice — replacing stretches of a text by a mark, and
which words can occur in the result.

The texts are lists over any alphabet. A mark is an opening letter, an
inside and a closing letter. A word with neither of the two letters that
does not occur in the inside cannot be made by a replacement: wherever it
occurs in the new text it occurred in the old one (`Spliced.old_word`).
Replacing every occurrence of such a word therefore leaves none
(`not_infix_replaceAll`).
-/
import Mathlib.Data.List.Infix

namespace Sentinel.Redaction

variable {α : Type} {opening closing : α} {inside word text result : List α}

/-- The text that stands for what was cut out. -/
def mark (opening : α) (inside : List α) (closing : α) : List α :=
  opening :: (inside ++ [closing])

/-! ## Words beside a letter they do not have -/

/-- A word without `x` that starts a text starting with `x` is empty. -/
theorem eq_nil_of_prefix_cons {x : α} (hx : x ∉ word) (h : word <+: x :: text) : word = [] := by
  cases word with
  | nil => rfl
  | cons y rest =>
    have hy : y = x := (List.cons_prefix_cons.mp h).1
    exact absurd (hy ▸ List.mem_cons_self) hx

/-- A word without `x` occurs on one side of an `x`. -/
theorem infix_append_cons {x : α} (hx : x ∉ word) {left right : List α}
    (h : word <:+: left ++ x :: right) : word <:+: left ∨ word <:+: right := by
  induction left with
  | nil =>
    rcases List.infix_cons_iff.mp h with hpre | hin
    · exact .inl (eq_nil_of_prefix_cons hx hpre ▸ List.nil_infix)
    · exact .inr hin
  | cons y left ih =>
    rcases List.infix_cons_iff.mp h with hpre | hin
    · -- the word starts at `y`: it ends before the `x`
      refine .inl (List.IsPrefix.isInfix ?_)
      rcases List.prefix_or_prefix_of_prefix hpre (List.prefix_append (y :: left) (x :: right))
        with hshort | ⟨more, rfl⟩
      · exact hshort
      · have hmore : more = [] := by
          have hrest : more <+: x :: right := (List.prefix_append_right_inj (y :: left)).mp hpre
          exact eq_nil_of_prefix_cons (fun hmem => hx (List.mem_append_right _ hmem)) hrest
        rw [hmore, List.append_nil]
    · rcases ih hin with hleft | hright
      · exact .inl (List.infix_cons hleft)
      · exact .inr hright

/-- A word that is neither cut by the mark's two letters nor part of its
inside. -/
structure Foreign (opening : α) (inside : List α) (closing : α) (word : List α) : Prop where
  opening : opening ∉ word
  closing : closing ∉ word
  inside : ¬ word <:+: inside

theorem Foreign.ne_nil (hw : Foreign opening inside closing word) : word ≠ [] :=
  fun h => hw.inside (h ▸ List.nil_infix)

/-- Behind a mark a foreign word occurs only in what follows it. -/
theorem Foreign.infix_mark_append (hw : Foreign opening inside closing word)
    (h : word <:+: mark opening inside closing ++ text) : word <:+: text := by
  rw [mark, List.cons_append, List.append_assoc] at h
  rcases List.infix_cons_iff.mp h with hpre | hin
  · exact absurd (eq_nil_of_prefix_cons hw.opening hpre) hw.ne_nil
  · exact (infix_append_cons hw.closing hin).resolve_left hw.inside

theorem Foreign.not_infix_mark (hw : Foreign opening inside closing word) :
    ¬ word <:+: mark opening inside closing := by
  intro h
  have hnil : word <:+: ([] : List α) := hw.infix_mark_append (by rwa [List.append_nil])
  exact hw.ne_nil (List.infix_nil.mp hnil)

/-! ## Splicing -/

/-- The second text is the first one with some stretches replaced by `m`. -/
inductive Spliced (m : List α) : List α → List α → Prop where
  | nil : Spliced m [] []
  | keep (c : α) {text result : List α} : Spliced m text result →
      Spliced m (c :: text) (c :: result)
  | cut (stretch : List α) {text result : List α} : Spliced m text result →
      Spliced m (stretch ++ text) (m ++ result)

/-- A word without the opening letter that starts the new text started the
old one. -/
theorem Spliced.old_start (h : Spliced (mark opening inside closing) text result)
    (hopen : opening ∉ word) (hpre : word <+: result) : word <+: text := by
  induction h generalizing word with
  | nil => exact hpre
  | keep c _ ih =>
    cases word with
    | nil => exact List.nil_prefix
    | cons y rest =>
      obtain ⟨rfl, hrest⟩ := List.cons_prefix_cons.mp hpre
      have hold := ih (fun hmem => hopen (List.mem_cons_of_mem _ hmem)) hrest
      exact List.cons_prefix_cons.mpr ⟨rfl, hold⟩
  | cut stretch _ ih =>
    have hnil : word = [] := eq_nil_of_prefix_cons hopen hpre
    rw [hnil]
    exact List.nil_prefix

/-- A foreign word of the new text is a word of the old one. -/
theorem Spliced.old_word (h : Spliced (mark opening inside closing) text result)
    (hw : Foreign opening inside closing word) (hin : word <:+: result) : word <:+: text := by
  induction h with
  | nil => exact hin
  | keep c hrest ih =>
    rcases List.infix_cons_iff.mp hin with hpre | hin
    · exact ((hrest.keep c).old_start hw.opening hpre).isInfix
    · exact List.infix_cons (ih hin)
  | cut stretch _ ih =>
    have hold := ih (hw.infix_mark_append hin)
    exact hold.trans (List.suffix_append _ _).isInfix

/-! ## One pass over a text

`found before rest` is the length of the match that starts between
`before`, reversed, and `rest`; zero is no match. -/

/-- Replace every match by `m`, left to right; `skip` letters still belong
to the match last replaced. -/
def pass (found : List α → List α → Nat) (m : List α) (before : List α) : Nat → List α → List α
  | _, [] => []
  | skip + 1, c :: rest => pass found m (c :: before) skip rest
  | 0, c :: rest =>
      match found before (c :: rest) with
      | 0 => c :: pass found m (c :: before) 0 rest
      | len + 1 => m ++ pass found m (c :: before) len rest

/-- Replace every match in a text. -/
def replaceMatches (found : List α → List α → Nat) (m text : List α) : List α :=
  pass found m [] 0 text

/-- What is left of a match is dropped, then the pass splices. -/
theorem pass_spliced (found : List α → List α → Nat) (m : List α) (before : List α) (skip : Nat)
    (text : List α) : ∃ dropped kept, text = dropped ++ kept ∧ (skip = 0 → dropped = []) ∧
      Spliced m kept (pass found m before skip text) := by
  induction text generalizing before skip with
  | nil => exact ⟨[], [], rfl, fun _ => rfl, by cases skip <;> exact .nil⟩
  | cons c rest ih =>
    cases skip with
    | succ skip =>
      obtain ⟨dropped, kept, hrest, -, hspliced⟩ := ih (c :: before) skip
      exact ⟨c :: dropped, kept, by rw [hrest, List.cons_append], fun h => absurd h (by omega),
        hspliced⟩
    | zero =>
      refine ⟨[], c :: rest, rfl, fun _ => rfl, ?_⟩
      rw [pass]
      cases found before (c :: rest) with
      | zero =>
        obtain ⟨dropped, kept, hrest, hnone, hspliced⟩ := ih (c :: before) 0
        rw [hnone rfl, List.nil_append] at hrest
        exact .keep c (hrest ▸ hspliced)
      | succ len =>
        obtain ⟨dropped, kept, hrest, -, hspliced⟩ := ih (c :: before) len
        rw [hrest, ← List.cons_append]
        exact .cut (c :: dropped) (hrest ▸ hspliced)

/-- A pass that is not inside a match splices. -/
theorem pass_zero_spliced (found : List α → List α → Nat) (m before text : List α) :
    Spliced m text (pass found m before 0 text) := by
  obtain ⟨dropped, kept, htext, hnone, hspliced⟩ := pass_spliced found m before 0 text
  rw [hnone rfl, List.nil_append] at htext
  exact htext ▸ hspliced

theorem replaceMatches_spliced (found : List α → List α → Nat) (m text : List α) :
    Spliced m text (replaceMatches found m text) :=
  pass_zero_spliced found m [] text

/-! ## Replacing a word -/

variable [DecidableEq α]

/-- The word starts here. -/
def wordAt (word : List α) (_before rest : List α) : Nat :=
  if word.isPrefixOf rest then word.length else 0

/-- Replace every occurrence of a word, left to right without overlap. -/
def replaceAll (word m text : List α) : List α := replaceMatches (wordAt word) m text

theorem not_infix_pass_wordAt (hw : Foreign opening inside closing word) (before : List α)
    (skip : Nat) (text : List α) :
    ¬ word <:+: pass (wordAt word) (mark opening inside closing) before skip text := by
  induction text generalizing before skip with
  | nil =>
    intro h
    have hnil : word <:+: ([] : List α) := by cases skip <;> exact h
    exact hw.ne_nil (List.infix_nil.mp hnil)
  | cons c rest ih =>
    cases skip with
    | succ skip => exact ih (c :: before) skip
    | zero =>
      rw [pass]
      cases hfound : wordAt word before (c :: rest) with
      | succ len => exact fun h => ih (c :: before) len (hw.infix_mark_append h)
      | zero =>
        intro h
        rcases List.infix_cons_iff.mp h with hpre | hin
        · -- the word would start in the old text too, where the pass found none
          have hold : word <+: c :: rest :=
            ((pass_zero_spliced _ _ _ rest).keep c).old_start hw.opening hpre
          rw [wordAt, if_pos (List.isPrefixOf_iff_prefix.mpr hold)] at hfound
          exact hw.ne_nil (List.length_eq_zero_iff.mp hfound)
        · exact ih (c :: before) 0 hin

theorem not_infix_replaceAll (hw : Foreign opening inside closing word) (text : List α) :
    ¬ word <:+: replaceAll word (mark opening inside closing) text :=
  not_infix_pass_wordAt hw [] 0 text

/-- Without a match the pass keeps the text. -/
theorem pass_of_not_infix (m before : List α) (h : ¬ word <:+: text) :
    pass (wordAt word) m before 0 text = text := by
  induction text generalizing before with
  | nil => rfl
  | cons c rest ih =>
    have hhere : ¬ word.isPrefixOf (c :: rest) = true := fun hpre =>
      h (List.isPrefixOf_iff_prefix.mp hpre).isInfix
    have hrest : ¬ word <:+: rest := fun hin => h (List.infix_cons hin)
    rw [pass, wordAt, if_neg hhere]
    exact congrArg (c :: ·) (ih (c :: before) hrest)

theorem replaceAll_of_not_infix (m : List α) (h : ¬ word <:+: text) :
    replaceAll word m text = text :=
  pass_of_not_infix m [] h

end Sentinel.Redaction
