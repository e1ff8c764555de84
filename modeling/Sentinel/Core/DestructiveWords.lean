/-
Sentinel.Core.DestructiveWords — which spellings of a destructive word the
guard recognises.

The default patterns put a word between two `\b`. For `re` a digit and an
underscore are word characters like letters, so `/delete_account` has no
boundary behind `delete`. `recognisesWords_iff` says when a word that
stands alone among letters is recognised all the same, and
`standsFree_of_run` that digits, underscores and letters outside ASCII are
the only neighbours in the way.
-/
import Sentinel.Core.EquivalentPaths
import Sentinel.Py.RegexSearch

namespace Sentinel.Core

open Sentinel.Py

/-- The words that have a pattern `\bword\b` of their own. -/
def destructiveWords : List String :=
  ["delete", "remove", "cancel", "purge", "reset", "destroy", "logout", "revoke", "wipe", "drop"]

/-- The word is a maximal run of ASCII letters of the text, in any case. -/
def LetterRun (word text : Str) : Prop :=
  ∃ before run after, text = before ++ run ++ after ∧ run.map Char.toLower = word ∧
    (∀ c, before.getLast? = some c → c.isAlpha = false) ∧
    ∀ c, after.head? = some c → c.isAlpha = false

variable [PyRuntime]

/-- The word is spelled in the text, in any case, with a word boundary on
either side. -/
def StandsFree (word text : Str) : Prop :=
  ∃ before found after, text = before ++ found ++ after ∧ Regex.Spells word found ∧
    Regex.atWordBoundary (before.reverse, found ++ after) = true ∧
    Regex.atWordBoundary ((before ++ found).reverse, after) = true

/-- The default patterns that are no `\bword\b`. -/
def otherPatterns : List Pattern :=
  [.ofRegex "\\bdeletes?\\b"
      (.bounded (.seq (.lit "delete".toList) (.opt (.lit "s".toList)))),
    stemPattern "deactivat", stemPattern "unsubscrib", stemPattern "terminat",
    joinedPattern "close" "account", joinedPattern "sign" "out", stemPattern "truncat",
    joinedPattern "forget" "me"]

/-- A text of the request has one of the words as a maximal run of letters. -/
def HasWord (parts : SplitResult) (linkText : Str) : Prop :=
  ∃ word ∈ destructiveWords, ∃ text ∈ [parts.path, parts.query, linkText],
    LetterRun word.toList text

/-- A request with one of the words in it is suspect. -/
def DestructiveActionGuard.RecognisesWords (d : DestructiveActionGuard)
    (method url linkText : Str) : Prop :=
  ∀ parts, urlsplit url = .ok parts → HasWord parts linkText →
    ∃ check, d.check method url linkText = .ok check ∧ check.isSuspect = true

/-! ## The patterns -/

theorem wordPattern_search_iff (word : String) (text : Str) :
    (wordPattern word).search text = true ↔ StandsFree word.toList text :=
  Regex.search_bounded_lit_iff

/-- The default patterns are those of the words and the others. -/
theorem mem_defaultDestructivePatterns (p : Pattern) :
    p ∈ defaultDestructivePatterns ↔
      (∃ word ∈ destructiveWords, p = wordPattern word) ∨ p ∈ otherPatterns := by
  simp only [defaultDestructivePatterns, destructiveWords, otherPatterns, List.mem_cons,
    List.not_mem_nil, or_false, exists_eq_or_imp, exists_eq_left, or_assoc]
  simp only [or_left_comm]

theorem suspectsText_iff (readWriteEnabled : Bool) (extra : List Pattern) (text : Str) :
    (DestructiveActionGuard.mk readWriteEnabled
        (defaultDestructivePatterns ++ extra)).SuspectsText text ↔
      (∃ word ∈ destructiveWords, StandsFree word.toList text) ∨
        ∃ p ∈ otherPatterns ++ extra, p.search text = true := by
  unfold DestructiveActionGuard.SuspectsText
  simp only [List.mem_append, mem_defaultDestructivePatterns]
  constructor
  · rintro ⟨p, (⟨word, hword, rfl⟩ | hother) | hextra, hsearch⟩
    · exact .inl ⟨word, hword, (wordPattern_search_iff word text).mp hsearch⟩
    · exact .inr ⟨p, .inl hother, hsearch⟩
    · exact .inr ⟨p, .inr hextra, hsearch⟩
  · rintro (⟨word, hword, hfree⟩ | ⟨p, hother | hextra, hsearch⟩)
    · exact ⟨_, .inl (.inl ⟨word, hword, rfl⟩), (wordPattern_search_iff word text).mpr hfree⟩
    · exact ⟨p, .inl (.inr hother), hsearch⟩
    · exact ⟨p, .inr hextra, hsearch⟩

/-! ## Runs of letters

A run of letters stands free where neither neighbour is a word character. -/

omit [PyRuntime] in
theorem toLower_of_not_ascii {d : Char} (h : ¬ isAsciiChar d = true) : d.toLower = d := by
  unfold Char.toLower
  rw [dif_neg]
  rintro ⟨-, hle⟩
  have hval : d.toNat ≤ 90 := by simpa using UInt32.le_iff_toNat_le.mp hle
  simp only [isAsciiChar, decide_eq_true_eq] at h
  omega

omit [PyRuntime] in
/-- A character is one of the spellings of its lower case. -/
theorem mem_caseVariants_toLower (d : Char) : d ∈ Regex.caseVariants d.toLower := by
  have hbase : d = d.toLower.toLower ∨ d = d.toLower.toUpper := by
    by_cases hascii : isAsciiChar d = true
    · exact ascii_forall (P := fun d => d = d.toLower.toLower ∨ d = d.toLower.toUpper) (by decide)
        hascii
    · rw [toLower_of_not_ascii hascii, toLower_of_not_ascii hascii]
      exact .inl rfl
  unfold Regex.caseVariants
  dsimp only
  split <;> rcases hbase with hd | hd <;> simp [← hd]

omit [PyRuntime] in
theorem spells_of_toLower {word run : Str} (h : run.map Char.toLower = word) :
    Regex.Spells word run := by
  subst h
  unfold Regex.Spells
  rw [List.forall₂_map_left_iff, List.forall₂_same]
  exact fun d _ => mem_caseVariants_toLower d

/-- The letters of a run are word characters. -/
theorem isWord_of_toLower {d : Char} (h : d.toLower.isAlpha = true) : PyRuntime.isWord d = true := by
  have hascii : isAsciiChar d = true := by
    by_contra hn
    rw [toLower_of_not_ascii hn] at h
    simp only [isAsciiChar, decide_eq_true_eq, not_lt] at hn
    have hletter : (decide (d.val ≥ 'A'.val ∧ d.val ≤ 'Z'.val) ||
        (decide (d.val ≥ 'a'.val) && decide (d.val ≤ 'z'.val))) = true := h
    simp only [Bool.or_eq_true, Bool.and_eq_true, decide_eq_true_eq, ge_iff_le,
      UInt32.le_iff_toNat_le] at hletter
    have hval : d.val.toNat = d.toNat := rfl
    simp at hletter
    omega
  rw [PyRuntime.isWord_ascii d hascii, Bool.or_eq_true]
  left
  exact ascii_forall (P := fun d => d.toLower.isAlpha = true → d.isAlphanum = true) (by decide)
    hascii h

/-- What is next to a run is no word character. -/
def Clear (neighbour : Option Char) : Prop := ∀ c, neighbour = some c → PyRuntime.isWord c = false

theorem clear_iff (neighbour : Option Char) :
    Clear neighbour ↔ neighbour.any PyRuntime.isWord = false := by
  cases neighbour with
  | none => exact ⟨fun _ => rfl, fun _ c h => (nomatch h)⟩
  | some c => exact ⟨fun h => h c rfl, fun h d hd => by rw [← Option.some.inj hd]; exact h⟩

/-- A word of letters with clear neighbours stands free. -/
theorem standsFree_of_clear {word before run after : Str} (hne : word ≠ [])
    (hletters : ∀ c ∈ word, c.isAlpha = true) (hrun : run.map Char.toLower = word)
    (hbefore : Clear before.getLast?) (hafter : Clear after.head?) :
    StandsFree word (before ++ run ++ after) := by
  have hword : ∀ d ∈ run, PyRuntime.isWord d = true := by
    intro d hd
    exact isWord_of_toLower (hletters _ (hrun ▸ List.mem_map_of_mem hd))
  have hrunne : run ≠ [] := fun h => hne (by rw [← hrun, h]; rfl)
  obtain ⟨first, hfirst⟩ : ∃ c, run.head? = some c := by
    cases run with
    | nil => exact absurd rfl hrunne
    | cons c _ => exact ⟨c, rfl⟩
  obtain ⟨last, hlast⟩ : ∃ c, run.getLast? = some c :=
    Option.isSome_iff_exists.mp (by rw [List.getLast?_isSome]; exact hrunne)
  refine ⟨before, run, after, rfl, spells_of_toLower hrun, ?_, ?_⟩
  · have hhead : (run ++ after).head? = some first := by rw [List.head?_append, hfirst]; rfl
    have hisWord := hword first (List.mem_of_mem_head? hfirst)
    simp only [Regex.atWordBoundary, List.head?_reverse, hhead, (clear_iff _).mp hbefore,
      Option.any_some, hisWord]
    decide
  · have hend : (before ++ run).getLast? = some last := by rw [List.getLast?_append, hlast]; rfl
    have hisWord := hword last (List.mem_of_mem_getLast? hlast)
    simp only [Regex.atWordBoundary, List.head?_reverse, hend, (clear_iff _).mp hafter,
      Option.any_some, hisWord]
    decide

theorem Clear.getLast?_append {left right : Str} (hleft : Clear left.getLast?)
    (hright : Clear right.getLast?) : Clear (left ++ right).getLast? := by
  intro c hc
  rw [List.getLast?_append] at hc
  rcases Option.or_eq_some_iff.mp hc with hc | ⟨-, hc⟩
  · exact hright c hc
  · exact hleft c hc

theorem Clear.head?_append {left right : Str} (hleft : Clear left.head?)
    (hright : Clear right.head?) : Clear (left ++ right).head? := by
  intro c hc
  rw [List.head?_append] at hc
  rcases Option.or_eq_some_iff.mp hc with hc | ⟨-, hc⟩
  · exact hleft c hc
  · exact hright c hc

/-- The texts are joined by blanks, which are clear. -/
theorem haystack_split {parts : SplitResult} {linkText text : Str}
    (htext : text ∈ [parts.path, parts.query, linkText]) :
    ∃ left right, haystack parts linkText = left ++ text ++ right ∧
      Clear left.getLast? ∧ Clear right.head? := by
  have hblank : PyRuntime.isWord ' ' = false := PyRuntime.isWord_ascii ' ' rfl
  have hnone : Clear none := fun c h => (nomatch h)
  have hsome : Clear (some ' ') := fun c h => Option.some.inj h ▸ hblank
  have hjoin : haystack parts linkText =
      parts.path ++ ' ' :: (parts.query ++ ' ' :: linkText) := by
    simp [haystack, join, List.intercalate]
  simp only [List.mem_cons, List.not_mem_nil, or_false] at htext
  rcases htext with rfl | rfl | rfl
  · exact ⟨[], ' ' :: (parts.query ++ ' ' :: linkText), by rw [hjoin]; rfl, hnone, hsome⟩
  · refine ⟨parts.path ++ [' '], ' ' :: linkText, by rw [hjoin]; simp, ?_, hsome⟩
    rw [List.getLast?_concat]
    exact hsome
  · refine ⟨parts.path ++ ' ' :: (parts.query ++ [' ']), [], by rw [hjoin]; simp, ?_, hnone⟩
    rw [← List.cons_append, ← List.append_assoc, List.getLast?_concat]
    exact hsome

/-- A run of one of the words with clear neighbours stands free in what the
patterns are searched in: only a digit, an underscore or a letter outside
ASCII keeps the guard from seeing it. -/
theorem standsFree_of_run {parts : SplitResult} {linkText before run after : Str}
    {word : String} (hword : word ∈ destructiveWords)
    (htext : before ++ run ++ after ∈ [parts.path, parts.query, linkText])
    (hrun : run.map Char.toLower = word.toList) (hbefore : Clear before.getLast?)
    (hafter : Clear after.head?) : StandsFree word.toList (haystack parts linkText) := by
  have hwords : ∀ w ∈ destructiveWords,
      w.toList ≠ [] ∧ w.toList.all Char.isAlpha = true := by decide
  obtain ⟨left, right, hsplit, hleft, hright⟩ := haystack_split htext
  have hletters : ∀ c ∈ word.toList, c.isAlpha = true := List.all_eq_true.mp (hwords word hword).2
  have hfree := standsFree_of_clear (hwords word hword).1 hletters hrun
    (hleft.getLast?_append hbefore) (hafter.head?_append hright)
  rw [hsplit]
  simpa only [List.append_assoc] using hfree

/-- **When a destructive word is recognised**, for a guard with any extra
patterns: one of the words has a boundary on either side in what the
patterns are searched in, or another pattern is found there, or the method
is enough. -/
theorem recognisesWords_iff (readWriteEnabled : Bool) (extra : List Pattern)
    (method url linkText : Str) :
    (DestructiveActionGuard.mk readWriteEnabled
        (defaultDestructivePatterns ++ extra)).RecognisesWords method url linkText ↔
      ∀ parts, urlsplit url = .ok parts →
        ¬ HasWord parts linkText ∨
        (upper method ∈ nonIdempotentMethods ∧ readWriteEnabled = false) ∨
        (∃ word ∈ destructiveWords, StandsFree word.toList (haystack parts linkText)) ∨
        ∃ p ∈ otherPatterns ++ extra, p.search (haystack parts linkText) = true := by
  unfold DestructiveActionGuard.RecognisesWords
  refine forall_congr' fun parts => forall_congr' fun hparts => ?_
  obtain ⟨suspect, hsuspect, hiff⟩ := check_isSuspect
    (DestructiveActionGuard.mk readWriteEnabled (defaultDestructivePatterns ++ extra)) method
    hparts linkText
  rw [suspectsText_iff] at hiff
  have hcheck : (∃ check, (DestructiveActionGuard.mk readWriteEnabled
      (defaultDestructivePatterns ++ extra)).check method url linkText = .ok check ∧
        check.isSuspect = true) ↔ suspect = true := by
    constructor
    · rintro ⟨check, hok, htrue⟩
      rw [hok] at hsuspect
      exact (Except.ok.inj hsuspect).symm.trans htrue
    · intro htrue
      obtain ⟨check, hok⟩ := check_of_urlsplit (DestructiveActionGuard.mk readWriteEnabled
        (defaultDestructivePatterns ++ extra)) method hparts linkText
      rw [hok] at hsuspect
      exact ⟨check, hok, (Except.ok.inj hsuspect).trans htrue⟩
  have hmethod : (DestructiveActionGuard.mk readWriteEnabled
      (defaultDestructivePatterns ++ extra)).SuspectsMethod method ↔
        upper method ∈ nonIdempotentMethods ∧ readWriteEnabled = false := Iff.rfl
  rw [hcheck, hiff, hmethod, imp_iff_not_or]
  exact or_congr_right or_comm

omit [PyRuntime] in
/-- An underscore behind the word, and the guard does not see it. -/
theorem delete_account_unrecognised :
    let _ := PyRuntime.ascii
    ¬ DestructiveActionGuard.default.RecognisesWords "GET".toList
      "https://app.acme.test/delete_account".toList [] := by
  intro runtime h
  have hword : HasWord ⟨"https".toList, "app.acme.test".toList, "/delete_account".toList, [], []⟩
      [] := by
    have hslash : ∀ c, some '/' = some c → c.isAlpha = false := by
      intro c hc
      obtain rfl := Option.some.inj hc
      decide
    have hunderscore : ∀ c, some '_' = some c → c.isAlpha = false := by
      intro c hc
      obtain rfl := Option.some.inj hc
      decide
    refine ⟨"delete", by decide, "/delete_account".toList, List.mem_cons_self, ?_⟩
    exact ⟨"/".toList, "delete".toList, "_account".toList, by decide, by decide, hslash,
      hunderscore⟩
  obtain ⟨check, hcheck, hsuspect⟩ := h _ (by decide +kernel) hword
  have hclear : DestructiveActionGuard.default.clears "GET".toList
      "https://app.acme.test/delete_account".toList [] = true := by decide +kernel
  obtain ⟨check', hcheck', hclear⟩ := (clears_iff _ _ _ _).mp hclear
  obtain rfl := Except.ok.inj (hcheck.symm.trans hcheck')
  rw [hsuspect] at hclear
  exact Bool.noConfusion hclear

end Sentinel.Core
