/-
Sentinel.Api.UuidText — ids in the form the broker carries them.

A scan is dispatched under `str(scan.id)` and looked up under `UUID` of that
text. The text has the 32 digits of the number with four dashes between
them; reading takes the dashes out and folds the digits up again
(`uuidOfText_text`).
-/
import Sentinel.Api.Routes
import Mathlib.Data.Nat.ModEq

namespace Sentinel.Api

open Sentinel.Py Sentinel.Redaction

/-! ## Digits of a fixed width -/

/-- Digits that were written from the highest one down, folded up. -/
theorem foldl_digits (b n width acc : ℕ) :
    ((List.range width).reverse.map fun i => n / b ^ i % b).foldl (fun acc d => b * acc + d) acc =
      acc * b ^ width + n % b ^ width := by
  induction width generalizing acc with
  | zero => simp [Nat.mod_one]
  | succ width ih =>
    rw [List.range_succ, List.reverse_append, List.map_append, List.foldl_append]
    show List.foldl _ (b * acc + n / b ^ width % b) _ = _
    rw [ih, Nat.mod_pow_succ, pow_succ]
    ring

theorem hexValue_hexDigit : ∀ d < 16, hexValue (hexDigit d) = some d := by decide +kernel

theorem hexDigit_ne_underscore : ∀ d < 16, hexDigit d ≠ '_' := by decide +kernel

theorem hexTail_cons {c : Char} (hc : c ≠ '_') (acc : ℕ) (rest : Str) :
    hexTail acc (c :: rest) = (hexValue c).bind fun d => hexTail (16 * acc + d) rest := by
  rw [hexTail]
  · rfl
  · intro c' rest' h _
    exact hc h

theorem hexTail_map {ds : List ℕ} (hds : ∀ d ∈ ds, d < 16) (acc : ℕ) :
    hexTail acc (ds.map hexDigit) = some (ds.foldl (fun acc d => 16 * acc + d) acc) := by
  induction ds generalizing acc with
  | nil => rfl
  | cons d ds ih =>
    have hd : d < 16 := hds d List.mem_cons_self
    rw [List.map_cons, hexTail_cons (hexDigit_ne_underscore d hd), hexValue_hexDigit d hd]
    exact ih (fun d' hd' => hds d' (List.mem_cons_of_mem d hd')) _

theorem hexDigit_ne_mark : ∀ d < 16, hexDigit d ≠ 'x' ∧ hexDigit d ≠ 'X' := by decide +kernel

/-- No sign, prefix or underscore gets in the way. -/
theorem hexNumber_map {ds : List ℕ} (hds : ∀ d ∈ ds, d < 16) (hne : ds ≠ []) :
    hexNumber (ds.map hexDigit) = some (ds.foldl (fun acc d => 16 * acc + d) 0) := by
  have htail := hexTail_map hds 0
  obtain ⟨d, ds, rfl⟩ := List.exists_cons_of_ne_nil hne
  have hd : d < 16 := hds d List.mem_cons_self
  rw [List.map_cons, hexTail_cons (hexDigit_ne_underscore d hd), hexValue_hexDigit d hd] at htail
  rw [List.map_cons]
  generalize htext : hexDigit d :: ds.map hexDigit = text
  unfold hexNumber
  split
  · next x rest =>
    obtain ⟨hzero, hrest⟩ := List.cons.inj htext
    obtain ⟨d', ds', rfl, hd', -⟩ := List.map_eq_cons_iff.mp hrest
    obtain ⟨hx, hX⟩ := hexDigit_ne_mark d' (hds d' (by simp))
    rw [if_neg (by rw [← hd']; simp [hx, hX]), ← hrest]
    have hvalue : d = 0 := by
      have h := hexValue_hexDigit d hd
      rw [hzero] at h
      exact (Option.some.inj h).symm
    simpa [hvalue] using htail
  · next c rest _ =>
    obtain ⟨rfl, rfl⟩ := List.cons.inj htext
    show (hexValue (hexDigit d)).bind _ = _
    rw [hexValue_hexDigit d hd]
    simpa using htail
  · cases htext

theorem hexPad_eq (width n : ℕ) :
    hexPad width n = ((List.range width).reverse.map fun i => n / 16 ^ i % 16).map hexDigit := by
  rw [List.map_map]
  rfl

theorem mem_hexPad {width n : ℕ} {c : Char} (hc : c ∈ hexPad width n) :
    ∃ d < 16, c = hexDigit d := by
  rw [hexPad] at hc
  obtain ⟨i, -, rfl⟩ := List.mem_map.mp hc
  exact ⟨n / 16 ^ i % 16, Nat.mod_lt _ (by decide), rfl⟩

theorem hexNumber_hexPad {width : ℕ} (hwidth : width ≠ 0) (n : ℕ) :
    hexNumber (hexPad width n) = some (n % 16 ^ width) := by
  have hds : ∀ d ∈ (List.range width).reverse.map (fun i => n / 16 ^ i % 16), d < 16 := by
    intro d hd
    obtain ⟨i, -, rfl⟩ := List.mem_map.mp hd
    exact Nat.mod_lt _ (by decide)
  have hne : (List.range width).reverse.map (fun i => n / 16 ^ i % 16) ≠ [] := by
    simpa using hwidth
  rw [hexPad_eq, hexNumber_map hds hne, foldl_digits]
  simp

/-! ## Texts without what is stripped -/

theorem dropWhile_of_forall {α : Type} {p : α → Bool} {xs : List α} (h : ∀ x ∈ xs, p x = false) :
    xs.dropWhile p = xs := by
  cases xs with
  | nil => rfl
  | cons x xs => rw [List.dropWhile_cons, h x List.mem_cons_self, if_neg (by simp)]

theorem rdropWhile_of_forall {α : Type} {p : α → Bool} {xs : List α} (h : ∀ x ∈ xs, p x = false) :
    xs.rdropWhile p = xs := by
  rw [List.rdropWhile_eq_self_iff]
  intro hne hp
  rw [h _ (List.getLast_mem hne)] at hp
  cases hp

theorem isSpace_hexDigit : ∀ d < 16, isSpace (hexDigit d) = false := by decide +kernel

theorem hexDigit_ne_sign : ∀ d < 16, hexDigit d ≠ '+' := by decide +kernel

theorem hexNat_hexPad {width : ℕ} (hwidth : width ≠ 0) (n : ℕ) :
    hexNat (hexPad width n) = some (n % 16 ^ width) := by
  have hspace : ∀ c ∈ hexPad width n, isSpace c = false := by
    intro c hc
    obtain ⟨d, hd, rfl⟩ := mem_hexPad hc
    exact isSpace_hexDigit d hd
  have hstrip : strip (hexPad width n) = hexPad width n := by
    rw [strip, dropWhile_of_forall hspace, rdropWhile_of_forall hspace]
  unfold hexNat
  rw [hstrip]
  split
  · next digits hdigits =>
    obtain ⟨d, hd, hplus⟩ := mem_hexPad (hdigits ▸ List.mem_cons_self : '+' ∈ hexPad width n)
    exact absurd hplus.symm (hexDigit_ne_sign d hd)
  · exact hexNumber_hexPad hwidth n

/-- `s.replace(c, "")` of one character. -/
theorem replaceAll_letter {α : Type} [DecidableEq α] (c : α) (text : List α) :
    replaceAll [c] [] text = text.filter (· ≠ c) := by
  have hpass : ∀ before, pass (wordAt [c]) [] before 0 text = text.filter (· ≠ c) := by
    induction text with
    | nil => exact fun _ => rfl
    | cons x rest ih =>
      intro before
      rw [Redaction.pass]
      by_cases hx : x = c
      · subst hx
        have hfound : wordAt [x] before (x :: rest) = 1 := by simp [wordAt]
        rw [hfound, List.filter_cons_of_neg (by simp)]
        exact ih (x :: before)
      · have hfound : wordAt [c] before (x :: rest) = 0 := by
          simp [wordAt, List.isPrefixOf, Ne.symm hx]
        rw [hfound, List.filter_cons_of_pos (by simp [hx]), ih]
  exact hpass []

/-! ## The round trip -/

theorem hexDigit_plain : ∀ d < 16, hexDigit d ≠ 'u' ∧ hexDigit d ≠ '\x7b' ∧ hexDigit d ≠ '\x7d' ∧
    hexDigit d ≠ '-' := by decide +kernel

theorem piece_subset (hex : Str) (n m : ℕ) : (hex.drop n).take m ⊆ hex :=
  fun _ hc => List.mem_of_mem_drop (List.mem_of_mem_take hc)

/-- The text: five pieces of the digits with dashes between. -/
theorem text_eq (u : Uuid) :
    let hex := hexPad 32 u.toNat
    u.text = hex.take 8 ++ '-' :: ((hex.drop 8).take 4 ++ '-' :: ((hex.drop 12).take 4 ++
      '-' :: ((hex.drop 16).take 4 ++ '-' :: hex.drop 20))) := by
  simp [Uuid.text, join, List.intercalate]

theorem mem_text {u : Uuid} {c : Char} (hc : c ∈ u.text) : c = '-' ∨ ∃ d < 16, c = hexDigit d := by
  have hpiece : ∀ {piece : Str}, piece ⊆ hexPad 32 u.toNat → c ∈ piece →
      c = '-' ∨ ∃ d < 16, c = hexDigit d := fun hsub hmem => .inr (mem_hexPad (hsub hmem))
  rw [text_eq] at hc
  simp only [List.mem_append, List.mem_cons] at hc
  rcases hc with h | rfl | h | rfl | h | rfl | h | rfl | h
  · exact hpiece (List.take_subset _ _) h
  · exact .inl rfl
  · exact hpiece (piece_subset _ _ _) h
  · exact .inl rfl
  · exact hpiece (piece_subset _ _ _) h
  · exact .inl rfl
  · exact hpiece (piece_subset _ _ _) h
  · exact .inl rfl
  · exact hpiece (List.drop_subset _ _) h

/-- Without the dashes it is the digits again. -/
theorem text_filter (u : Uuid) : u.text.filter (· ≠ '-') = hexPad 32 u.toNat := by
  have hpiece : ∀ {piece : Str}, piece ⊆ hexPad 32 u.toNat → piece.filter (· ≠ '-') = piece := by
    intro piece hsub
    rw [List.filter_eq_self]
    intro c hc
    obtain ⟨d, hd, rfl⟩ := mem_hexPad (hsub hc)
    exact decide_eq_true (hexDigit_plain d hd).2.2.2
  have hdash : ('-' ≠ '-') = False := by simp
  rw [text_eq]
  simp only [List.filter_append, List.filter_cons, hdash, decide_false, Bool.false_eq_true,
    if_false]
  rw [hpiece (List.take_subset _ _), hpiece (piece_subset _ 8 4), hpiece (piece_subset _ 12 4),
    hpiece (piece_subset _ 16 4), hpiece (List.drop_subset _ _)]
  have h16 := List.take_append_drop 4 ((hexPad 32 u.toNat).drop 16)
  have h12 := List.take_append_drop 4 ((hexPad 32 u.toNat).drop 12)
  have h8 := List.take_append_drop 4 ((hexPad 32 u.toNat).drop 8)
  rw [List.drop_drop] at h16 h12 h8
  rw [h16, h12, h8, List.take_append_drop]

/-- **`UUID(str(u))` is `u`.** -/
theorem uuidOfText_text (u : Uuid) : uuidOfText u.text = some u := by
  have hplain : ∀ c ∈ u.text, c ≠ 'u' ∧ c ≠ '\x7b' ∧ c ≠ '\x7d' := by
    intro c hc
    rcases mem_text hc with rfl | ⟨d, hd, rfl⟩
    · decide
    · obtain ⟨hu, hopen, hclose, -⟩ := hexDigit_plain d hd
      exact ⟨hu, hopen, hclose⟩
  -- neither of the two words is in the text, they have a letter that is no digit
  have hword : ∀ {word : Str}, 'u' ∈ word → replace u.text word [] = u.text := by
    intro word hmem
    have hne : word ≠ [] := List.ne_nil_of_mem hmem
    rw [replace, if_neg hne]
    exact replaceAll_of_not_infix [] fun hin => (hplain 'u' (hin.subset hmem)).1 rfl
  have hbraced : ∀ c ∈ u.text, decide (c = '\x7b' ∨ c = '\x7d') = false := by
    intro c hc
    obtain ⟨-, hopen, hclose⟩ := hplain c hc
    simp [hopen, hclose]
  have hdashes : replace u.text "-".toList [] = hexPad 32 u.toNat := by
    rw [replace, if_neg (by decide)]
    exact (replaceAll_letter '-' u.text).trans (text_filter u)
  have hlength : (hexPad 32 u.toNat).length = 32 := by simp [hexPad]
  have hvalue : BitVec.ofNat 128 (u.toNat % 16 ^ 32) = u := by
    have hlt : u.toNat < 16 ^ 32 := lt_of_lt_of_eq u.isLt (by decide)
    rw [Nat.mod_eq_of_lt hlt, BitVec.ofNat_toNat, BitVec.setWidth_eq]
  unfold uuidOfText
  rw [hword (by decide), hword (by decide)]
  simp only [dropWhile_of_forall hbraced, rdropWhile_of_forall hbraced, hdashes]
  rw [if_pos hlength, hexNat_hexPad (by decide), Option.map_some, hvalue]

end Sentinel.Api
