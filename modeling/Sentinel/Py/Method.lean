/-
Sentinel.Py.Method — methods that assign to their object and may raise.

An exception does not undo anything: what a method has assigned before it
raises stays assigned. `call` gives the result and the object after it.
-/
import Mathlib.Init

namespace Sentinel.Py

universe u

variable {ε σ α β : Type u}

/-- The body of a method. -/
abbrev Method (ε σ α : Type u) := ExceptT ε (StateM σ) α

namespace Method

/-- What a method returns or raises on an object, and the object after it. -/
def call (body : Method ε σ α) (s : σ) : Except ε α × σ := body.run.run s

@[simp] theorem call_pure (a : α) (s : σ) : call (pure a : Method ε σ α) s = (.ok a, s) := rfl

@[simp] theorem call_throw (e : ε) (s : σ) :
    call (throw e : Method ε σ α) s = (.error e, s) := rfl

@[simp] theorem call_throw_bind (e : ε) (f : β → Method ε σ α) (s : σ) :
    call (throw e >>= f) s = (.error e, s) := rfl

@[simp] theorem call_get_bind (f : σ → Method ε σ α) (s : σ) :
    call (get >>= f) s = call (f s) s := rfl

@[simp] theorem call_modify_bind (g : σ → σ) (f : PUnit → Method ε σ α) (s : σ) :
    call (modify g >>= f) s = call (f ⟨⟩) (g s) := rfl

@[simp] theorem call_map_get (f : σ → α) (s : σ) :
    call (f <$> get : Method ε σ α) s = (.ok (f s), s) := rfl

end Method

end Sentinel.Py
