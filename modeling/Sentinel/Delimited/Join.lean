/-
Sentinel.Delimited.Join — lists written one after another with a delimiter
between them.

Nothing is escaped, so the parts can be found again only if the delimiter
is in none of them: `join_unique_iff`. With it in one of them the same text
has another reading, with as many parts.
-/
import Mathlib.Data.List.Basic
import Mathlib.Data.List.Count

namespace Sentinel.Delimited

variable {α : Type*}

/-- The parts, a delimiter between each two. -/
def join (c : α) (parts : List (List α)) : List α := [c].intercalate parts

@[simp] theorem join_singleton (c : α) (part : List α) : join c [part] = part := by
  simp [join]

@[simp] theorem join_cons_cons (c : α) (first second : List α) (rest : List (List α)) :
    join c (first :: second :: rest) = first ++ c :: join c (second :: rest) := by
  simp [join]

/-! ## One reading -/

section

variable [DecidableEq α]

/-- Every text has at least the delimiters between its parts. -/
theorem length_le_count (c : α) (part : List α) (rest : List (List α)) :
    rest.length ≤ (join c (part :: rest)).count c := by
  induction rest generalizing part with
  | nil => exact Nat.zero_le _
  | cons second rest ih =>
    have hrest := ih second
    rw [join_cons_cons, List.count_append, List.count_cons_self, List.length_cons]
    omega

/-- No others, if none is in a part. -/
theorem count_join {c : α} {part : List α} {rest : List (List α)}
    (h : ∀ p ∈ part :: rest, c ∉ p) : (join c (part :: rest)).count c = rest.length := by
  induction rest generalizing part with
  | nil =>
    rw [join_singleton, List.count_eq_zero_of_not_mem (h part List.mem_cons_self)]
    rfl
  | cons second rest ih =>
    have hpart : part.count c = 0 :=
      List.count_eq_zero_of_not_mem (h part List.mem_cons_self)
    rw [join_cons_cons, List.count_append, List.count_cons_self, hpart,
      ih fun p hp => h p (List.mem_cons_of_mem part hp), List.length_cons, Nat.zero_add]

omit [DecidableEq α] in
/-- Two texts cut at a delimiter: the same part is first, or the one part
goes on behind it. -/
theorem append_cons_eq {c : α} {a b s t : List α} (ha : c ∉ a) (h : a ++ c :: s = b ++ c :: t) :
    (a = b ∧ s = t) ∨ ∃ more, b = a ++ c :: more ∧ s = more ++ c :: t := by
  rcases List.append_eq_append_iff.mp h with ⟨more, hb, hs⟩ | ⟨more, hmore, ht⟩
  · cases more with
    | nil => exact .inl ⟨by simpa using hb.symm, by simpa using hs⟩
    | cons d more =>
      rw [List.cons_append, List.cons.injEq] at hs
      obtain ⟨rfl, hs⟩ := hs
      exact .inr ⟨more, hb, hs⟩
  · cases more with
    | nil => exact .inl ⟨by simpa using hmore, by simpa using ht.symm⟩
    | cons d more =>
      rw [List.cons_append, List.cons.injEq] at ht
      obtain ⟨rfl, -⟩ := ht
      exact absurd (hmore ▸ List.mem_append_right b List.mem_cons_self) ha

/-- **Parts without the delimiter are found again.** -/
theorem eq_of_join_eq {c : α} {xs ys : List (List α)} (hfree : ∀ x ∈ xs, c ∉ x)
    (hlength : ys.length = xs.length) (h : join c ys = join c xs) : ys = xs := by
  induction xs generalizing ys with
  | nil => exact List.length_eq_zero_iff.mp hlength
  | cons x xs ih =>
    cases ys with
    | nil => cases hlength
    | cons y ys =>
      cases xs with
      | nil =>
        obtain rfl := List.length_eq_zero_iff.mp (Nat.succ.inj hlength)
        simpa using h
      | cons x' xs =>
        cases ys with
        | nil => simp at hlength
        | cons y' ys =>
          have hrest : ∀ p ∈ x' :: xs, c ∉ p := fun p hp => hfree p (List.mem_cons_of_mem x hp)
          rw [join_cons_cons, join_cons_cons] at h
          rcases append_cons_eq (hfree x List.mem_cons_self) h.symm with ⟨rfl, hsame⟩ | hmore
          · rw [ih hrest (Nat.succ.inj hlength) hsame.symm]
          · -- the other reading would need a delimiter more than there is
            obtain ⟨more, -, hjoin⟩ := hmore
            have hcount := congrArg (List.count c) hjoin
            rw [count_join hrest, List.count_append, List.count_cons_self] at hcount
            have hleast := length_le_count c y' ys
            simp only [List.length_cons] at hlength
            omega

end

/-! ## Two readings -/

/-- **With the delimiter in a part there is another reading.** -/
theorem exists_join_eq {c : α} {xs : List (List α)} (hlength : 2 ≤ xs.length)
    (h : ∃ x ∈ xs, c ∈ x) : ∃ ys, ys.length = xs.length ∧ ys ≠ xs ∧ join c ys = join c xs := by
  induction xs with
  | nil => simp at hlength
  | cons x xs ih =>
    obtain ⟨part, hpart, hc⟩ := h
    cases xs with
    | nil => simp at hlength
    | cons x' rest =>
      by_cases hfirst : c ∈ x
      · obtain ⟨before, behind, rfl⟩ := List.append_of_mem hfirst
        refine ⟨before :: (behind ++ c :: x') :: rest, rfl, ?_, ?_⟩
        · intro heq
          have := congrArg List.length (List.cons.inj heq).1
          simp at this
        · cases rest <;> simp
      · have hmem : part ∈ x' :: rest := by
          rcases List.mem_cons.mp hpart with rfl | hmem
          · exact absurd hc hfirst
          · exact hmem
        cases rest with
        | nil =>
          obtain rfl := List.mem_singleton.mp hmem
          obtain ⟨before, behind, rfl⟩ := List.append_of_mem hc
          refine ⟨[x ++ c :: before, behind], rfl, ?_, by simp⟩
          intro heq
          have := congrArg List.length (List.cons.inj heq).1
          simp at this
        | cons x'' rest =>
          obtain ⟨ys, hys, hne, hjoin⟩ := ih (by simp) ⟨part, hmem, hc⟩
          refine ⟨x :: ys, by simpa using hys, fun heq => hne (List.cons.inj heq).2, ?_⟩
          cases ys with
          | nil => simp at hys
          | cons y ys => rw [join_cons_cons, join_cons_cons, hjoin]

/-- **When a text has one reading**: when the delimiter is in no part. -/
theorem join_unique_iff [DecidableEq α] {c : α} {xs : List (List α)} (hlength : 2 ≤ xs.length) :
    (∀ ys, ys.length = xs.length → join c ys = join c xs → ys = xs) ↔ ∀ x ∈ xs, c ∉ x := by
  constructor
  · intro h x hx hc
    obtain ⟨ys, hys, hne, hjoin⟩ := exists_join_eq hlength ⟨x, hx, hc⟩
    exact hne (h ys hys hjoin)
  · intro hfree ys hys hjoin
    exact eq_of_join_eq hfree hys hjoin

end Sentinel.Delimited
