/-
Sentinel.Durable.Ascent — programs under which a view of the state only
rises.

`Keeps` says that a view stays where it is and that nothing is committed.
Here the view may rise in its order, and what is committed rises with it,
wherever the program is ended: no commit falls behind an earlier one.
-/
import Mathlib.Order.Basic
import Sentinel.Durable.Logic

namespace Sentinel.Durable

variable {σ ε α β τ : Type} [Preorder τ] {view : σ → τ} {disk session : σ}

/-- What `p` does to the session lets the view rise; so do its commits. -/
def Rises (view : σ → τ) (p : Program σ ε α) : Prop :=
  ∀ disk session, view disk ≤ view session →
    wp (fun s s' => view s ≤ view s') p (fun _ d s => view d ≤ view s) (fun _ => True) disk session

theorem Rises.pure (view : σ → τ) (a : α) : Rises view (Pure.pure a : Program σ ε α) :=
  fun _ _ h => (wp_pure a _).mpr h

theorem Rises.point (view : σ → τ) : Rises view (Program.point : Program σ ε Unit) :=
  fun _ _ h => (wp_point _).mpr h

theorem Rises.get (view : σ → τ) : Rises view (Program.get : Program σ ε σ) :=
  fun _ _ h => (wp_get _).mpr h

theorem Rises.commit (view : σ → τ) : Rises view (Program.commit : Program σ ε Unit) :=
  fun _ _ h => (wp_commit _).mpr ⟨h, le_refl _⟩

theorem Rises.ofExcept (view : σ → τ) (x : Except ε α) : Rises view (Program.ofExcept x) := by
  intro disk session h
  rw [wp_ofExcept]
  cases x with
  | ok a => exact h
  | error e => exact trivial

theorem Rises.modify {f : σ → σ} (hf : ∀ s, view s ≤ view (f s)) :
    Rises view (Program.modify f : Program σ ε Unit) :=
  fun _ session h => (wp_modify f _).mpr (h.trans (hf session))

/-- What keeps the view lets it rise. -/
theorem Keeps.rises {E : ε → Prop} {p : Program σ ε α} (h : Keeps view E p) : Rises view p := by
  intro disk session hle
  have hkept : Durable.wp (fun s s' => view s ≤ view s') p (fun _ d s => view d ≤ view s) E
      disk session := h.wp fun _ _ hsame => hle.trans hsame.ge
  exact wp_mono hkept (fun _ _ _ hle => hle) fun _ _ => trivial

theorem Rises.bind {p : Program σ ε α} {f : α → Program σ ε β} (hp : Rises view p)
    (hf : ∀ a, Rises view (f a)) : Rises view (p >>= f) := by
  intro disk session h
  rw [wp_bind]
  exact wp_mono (hp disk session h) (fun a d s hle => hf a d s hle) fun _ he => he

theorem Rises.foldlM {f : β → α → Program σ ε β} (h : ∀ b a, Rises view (f b a)) (b : β)
    (xs : List α) : Rises view (xs.foldlM f b) := by
  induction xs generalizing b with
  | nil => exact Rises.pure view b
  | cons x xs ih =>
    rw [List.foldlM_cons]
    exact (h b x).bind ih

/-- **Every run commits upwards**, however it ends. -/
theorem Rises.attempt {p : Program σ ε α} (h : Rises view p) (stop : Option Nat) (s : σ) :
    List.IsChain (fun s s' => view s ≤ view s') (s :: (p.attempt stop s).committed) :=
  attempt_isChain (h s s (le_refl _)) stop

end Sentinel.Durable
