/-
Sentinel.Loop.Stopping — a loop that ends at the first exception.

The body takes the state and an item to the next state and perhaps an
exception; the state it leaves counts also when it raises. Rules: when the
loop runs to its end, what it keeps, what it has come to show when it
ended early, and what items that leave a view of the state alone have to
do with the others (nothing).
-/
import Mathlib.Data.List.Basic

namespace Sentinel.Loop

variable {σ ι ε τ : Type}

/-- Run the body over the items. -/
def runUntil (step : σ → ι → σ × Option ε) : σ → List ι → σ × Option ε
  | s, [] => (s, none)
  | s, i :: rest =>
      match step s i with
      | (s', none) => runUntil step s' rest
      | (s', some e) => (s', some e)

variable {step : σ → ι → σ × Option ε}

theorem runUntil_cons_none {s : σ} {i : ι} {rest : List ι} (h : (step s i).2 = none) :
    runUntil step s (i :: rest) = runUntil step (step s i).1 rest := by
  obtain ⟨s', e, hstep⟩ : ∃ s' e, step s i = (s', e) := ⟨_, _, rfl⟩
  rw [hstep] at h ⊢
  obtain rfl : e = none := h
  rw [runUntil, hstep]

theorem runUntil_cons_some {s : σ} {i : ι} {rest : List ι} {e : ε} (h : (step s i).2 = some e) :
    runUntil step s (i :: rest) = ((step s i).1, some e) := by
  obtain ⟨s', e', hstep⟩ : ∃ s' e', step s i = (s', e') := ⟨_, _, rfl⟩
  rw [hstep] at h ⊢
  obtain rfl : e' = some e := h
  rw [runUntil, hstep]

/-- **Completion.** Where it depends on the item alone whether the body
raises, the loop runs to its end exactly if no item makes it raise. -/
theorem runUntil_returns_iff {fine : ι → Prop} (h : ∀ s i, (step s i).2 = none ↔ fine i)
    {s : σ} {items : List ι} :
    (runUntil step s items).2 = none ↔ ∀ i ∈ items, fine i := by
  induction items generalizing s with
  | nil => exact ⟨fun _ _ hmem => (nomatch hmem), fun _ => rfl⟩
  | cons i rest ih =>
    rw [List.forall_mem_cons]
    cases hstep : (step s i).2 with
    | none =>
      rw [runUntil_cons_none hstep, ih]
      exact ⟨fun hrest => ⟨(h s i).mp hstep, hrest⟩, fun hall => hall.2⟩
    | some e =>
      rw [runUntil_cons_some hstep]
      refine ⟨fun hnone => (nomatch hnone), fun hall => ?_⟩
      rw [(h s i).mpr hall.1] at hstep
      exact nomatch hstep

/-- **Invariants.** What every round keeps, the loop keeps, also when it
ends early. -/
theorem runUntil_keeps {P : σ → Prop} {items : List ι}
    (h : ∀ s, ∀ i ∈ items, P s → P (step s i).1) {s : σ} (hs : P s) :
    P (runUntil step s items).1 := by
  induction items generalizing s with
  | nil => exact hs
  | cons i rest ih =>
    have hfirst := h s i List.mem_cons_self hs
    cases hstep : (step s i).2 with
    | none =>
      rw [runUntil_cons_none hstep]
      exact ih (fun s j hj => h s j (List.mem_cons_of_mem i hj)) hfirst
    | some e =>
      rw [runUntil_cons_some hstep]
      exact hfirst

/-- The loop comes to the item: nothing before it raises. -/
def ComesTo (fine : ι → Prop) (items : List ι) (i : ι) : Prop :=
  ∃ before after, items = before ++ i :: after ∧ ∀ j ∈ before, fine j

theorem comesTo_cons_iff {fine : ι → Prop} {i j : ι} {rest : List ι} :
    ComesTo fine (i :: rest) j ↔ j = i ∨ fine i ∧ ComesTo fine rest j := by
  constructor
  · rintro ⟨before, after, heq, hfine⟩
    cases before with
    | nil => exact .inl (List.cons.inj heq).1.symm
    | cons first before =>
      obtain ⟨rfl, rfl⟩ := List.cons.inj heq
      exact .inr ⟨hfine i List.mem_cons_self, before, after, rfl,
        fun k hk => hfine k (List.mem_cons_of_mem i hk)⟩
  · rintro (rfl | ⟨hi, before, after, rfl, hfine⟩)
    · exact ⟨[], rest, rfl, List.forall_mem_nil _⟩
    · exact ⟨i :: before, after, rfl, List.forall_mem_cons.mpr ⟨hi, hfine⟩⟩

/-- **Traces.** What a round leaves for good, the loop leaves exactly if it
comes to an item whose round leaves it. -/
theorem runUntil_shows_iff {fine : ι → Prop} (hfine : ∀ s i, (step s i).2 = none ↔ fine i)
    (shows : σ → Prop) {adds : ι → Prop} (h : ∀ s i, shows (step s i).1 ↔ shows s ∨ adds i)
    {s : σ} {items : List ι} :
    shows (runUntil step s items).1 ↔ shows s ∨ ∃ i, ComesTo fine items i ∧ adds i := by
  induction items generalizing s with
  | nil =>
    refine ⟨.inl, fun hor => hor.resolve_right ?_⟩
    rintro ⟨i, ⟨before, after, heq, -⟩, -⟩
    exact absurd heq.symm (List.append_ne_nil_of_right_ne_nil _ (List.cons_ne_nil _ _))
  | cons i rest ih =>
    simp only [comesTo_cons_iff]
    cases hstep : (step s i).2 with
    | none =>
      have hi := (hfine s i).mp hstep
      rw [runUntil_cons_none hstep, ih, h, or_assoc]
      refine or_congr_right ⟨?_, ?_⟩
      · rintro (hadds | ⟨j, hj, hadds⟩)
        · exact ⟨i, .inl rfl, hadds⟩
        · exact ⟨j, .inr ⟨hi, hj⟩, hadds⟩
      · rintro ⟨j, rfl | ⟨-, hj⟩, hadds⟩
        · exact .inl hadds
        · exact .inr ⟨j, hj, hadds⟩
    | some e =>
      have hi : ¬ fine i := by
        intro hi
        rw [(hfine s i).mpr hi] at hstep
        exact nomatch hstep
      rw [runUntil_cons_some hstep, h]
      refine or_congr_right ⟨fun hadds => ⟨i, .inl rfl, hadds⟩, ?_⟩
      rintro ⟨j, rfl | ⟨hfine', -⟩, hadds⟩
      · exact hadds
      · exact absurd hfine' hi

/-- What each round appends, a loop that runs to its end has collected. -/
theorem runUntil_collects {out : σ → List τ} {f : ι → τ}
    (h : ∀ s i, (step s i).2 = none → out (step s i).1 = out s ++ [f i])
    {s : σ} {items : List ι} (hend : (runUntil step s items).2 = none) :
    out (runUntil step s items).1 = out s ++ items.map f := by
  induction items generalizing s with
  | nil => exact (List.append_nil _).symm
  | cons i rest ih =>
    cases hstep : (step s i).2 with
    | some e =>
      rw [runUntil_cons_some hstep] at hend
      exact nomatch hend
    | none =>
      rw [runUntil_cons_none hstep] at hend ⊢
      rw [ih hend, h s i hstep, List.append_assoc, List.map_cons, List.singleton_append]

/-- **Isolation.** Of a loop that runs to its end a view shows the items
that act on it, and not that there were others. -/
theorem runUntil_view {view : σ → τ} {effect : τ → ι → τ} {acts : ι → Bool}
    (hacts : ∀ s i, acts i = true → (step s i).2 = none → view (step s i).1 = effect (view s) i)
    (hskips : ∀ s i, acts i = false → (step s i).2 = none → view (step s i).1 = view s)
    {s : σ} {items : List ι} (hend : (runUntil step s items).2 = none) :
    view (runUntil step s items).1 = (items.filter acts).foldl effect (view s) := by
  induction items generalizing s with
  | nil => rfl
  | cons i rest ih =>
    cases hstep : (step s i).2 with
    | some e =>
      rw [runUntil_cons_some hstep] at hend
      exact nomatch hend
    | none =>
      rw [runUntil_cons_none hstep] at hend ⊢
      rw [ih hend]
      cases hi : acts i with
      | true => rw [List.filter_cons_of_pos hi, List.foldl_cons, hacts s i hi hstep]
      | false => rw [List.filter_cons_of_neg (by simp [hi]), hskips s i hi hstep]

end Sentinel.Loop
