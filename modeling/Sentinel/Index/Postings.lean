/-
Sentinel.Index.Postings — an index from keys to lists of values.

`learn` adds a value to the list of a key, which starts a list where there
is none and leaves one alone that has the value. What an index knows after
learning a list of pairs is a union: the order of the pairs and their
repetitions only show in the order of the values.
-/
import Mathlib.Logic.Function.Basic
import Mathlib.Data.List.Nodup

namespace Sentinel.Index

universe u v

variable {κ : Type u} {ν : Type v} [DecidableEq ν]

/-- An index: no list for a key that is not in it. -/
def Postings (κ : Type u) (ν : Type v) : Type (max u v) := κ → Option (List ν)

/-- The list with the value, at the end if it was not there. -/
def appendNew (values : List ν) (v : ν) : List ν := if v ∈ values then values else values ++ [v]

theorem mem_appendNew (values : List ν) (v w : ν) :
    w ∈ appendNew values v ↔ w ∈ values ∨ w = v := by
  unfold appendNew
  split
  · next hmem =>
    constructor
    · exact Or.inl
    · rintro (hw | rfl)
      · exact hw
      · exact hmem
  · simp

theorem appendNew_nodup {values : List ν} (h : values.Nodup) (v : ν) : (appendNew values v).Nodup := by
  unfold appendNew
  split
  · exact h
  · next hnew => exact h.append (List.nodup_singleton v) (List.disjoint_singleton.mpr hnew)

theorem isPrefix_appendNew (values : List ν) (v : ν) : values <+: appendNew values v := by
  unfold appendNew
  split
  · exact List.prefix_rfl
  · exact List.prefix_append values [v]

namespace Postings

variable [DecidableEq κ]

/-- The values of a key, none where the key is not in the index. -/
def values (ps : Postings κ ν) (key : κ) : List ν := (ps key).getD []

/-- The index after learning of a value for a key. -/
def learn (ps : Postings κ ν) (pair : κ × ν) : Postings κ ν :=
  Function.update ps pair.1 (some (appendNew (values ps pair.1) pair.2))

/-- The index after learning of all of them. -/
def learnAll (ps : Postings κ ν) (pairs : List (κ × ν)) : Postings κ ν := pairs.foldl learn ps

theorem learn_self (ps : Postings κ ν) (pair : κ × ν) :
    ps.learn pair pair.1 = some (appendNew (ps.values pair.1) pair.2) :=
  Function.update_self ..

theorem learn_of_ne (ps : Postings κ ν) {pair : κ × ν} {key : κ} (h : key ≠ pair.1) :
    ps.learn pair key = ps key :=
  Function.update_of_ne h ..

theorem values_learn (ps : Postings κ ν) (pair : κ × ν) (key : κ) :
    (ps.learn pair).values key =
      if key = pair.1 then appendNew (ps.values key) pair.2 else ps.values key := by
  unfold values
  split
  · next hkey => rw [hkey, learn_self, Option.getD_some, values]
  · next hkey => rw [learn_of_ne ps hkey]

/-- A key is in the index when it was before or was learnt of. -/
theorem isSome_learnAll (ps : Postings κ ν) (pairs : List (κ × ν)) (key : κ) :
    (ps.learnAll pairs key).isSome = true ↔ (ps key).isSome = true ∨ ∃ v, (key, v) ∈ pairs := by
  induction pairs generalizing ps with
  | nil => simp [learnAll]
  | cons pair rest ih =>
    have hcons : ps.learnAll (pair :: rest) = (ps.learn pair).learnAll rest := rfl
    rw [hcons, ih]
    by_cases hkey : key = pair.1
    · rw [hkey, learn_self]
      exact ⟨fun _ => Or.inr ⟨pair.2, List.mem_cons_self⟩, fun _ => Or.inl rfl⟩
    · rw [learn_of_ne ps hkey]
      have hskip : ∀ v, (key, v) ∈ pair :: rest ↔ (key, v) ∈ rest := fun v => by
        rw [List.mem_cons]
        exact or_iff_right fun heq => hkey (congrArg Prod.fst heq)
      simp only [hskip]

/-- A key has a value when it had it before or the pair was learnt of. -/
theorem mem_values_learnAll (ps : Postings κ ν) (pairs : List (κ × ν)) (key : κ) (v : ν) :
    v ∈ (ps.learnAll pairs).values key ↔ v ∈ ps.values key ∨ (key, v) ∈ pairs := by
  induction pairs generalizing ps with
  | nil => simp [learnAll]
  | cons pair rest ih =>
    have hcons : ps.learnAll (pair :: rest) = (ps.learn pair).learnAll rest := rfl
    have hhead : (key, v) = pair ↔ key = pair.1 ∧ v = pair.2 := Prod.ext_iff
    rw [hcons, ih, values_learn, List.mem_cons, hhead]
    split
    · next hkey => rw [mem_appendNew, or_assoc, and_iff_right hkey]
    · next hkey => simp [hkey]

/-- What was there stays, in its place. -/
theorem values_isPrefix_learnAll (ps : Postings κ ν) (pairs : List (κ × ν)) (key : κ) :
    ps.values key <+: (ps.learnAll pairs).values key := by
  induction pairs generalizing ps with
  | nil => exact List.prefix_rfl
  | cons pair rest ih =>
    refine List.IsPrefix.trans ?_ (ih (ps.learn pair))
    rw [values_learn]
    split
    · exact isPrefix_appendNew _ _
    · exact List.prefix_rfl

end Postings

end Sentinel.Index
