/-
Sentinel.Redis.Store — a key-value store with versions and deadlines.

A key whose deadline has come reads as absent. Its entry stays until it
is overwritten, which nobody can tell from an eviction. Every write moves
the key's version; a `Watch` remembers the version and whether the key was
there, and a watched key has changed when either is different.
-/
import Mathlib.Order.Lattice

namespace Sentinel.Redis

universe u v w

structure Entry (V : Type v) (T : Type w) where
  value : V
  deadline : Option T
  deriving DecidableEq

structure Store (K : Type u) (V : Type v) (T : Type w) where
  entries : K → Option (Entry V T)
  version : K → Nat

/-- What `WATCH` remembers of a key. -/
structure Watch (K : Type u) where
  key : K
  version : Nat
  present : Bool
  deriving DecidableEq

variable {K : Type u} {V : Type v} {T : Type w}

/-- The store before any command. -/
def Store.empty : Store K V T := ⟨fun _ => none, fun _ => 0⟩

variable [LinearOrder T]

/-- The deadline has not come. -/
def Entry.isLive (e : Entry V T) (now : T) : Bool := e.deadline.all fun d => now < d

/-- The live entry of a key. -/
def Store.find? (s : Store K V T) (now : T) (k : K) : Option (Entry V T) :=
  (s.entries k).filter fun e => e.isLive now

/-- The value of a live key: `GET`, `HMGET`. -/
def Store.get (s : Store K V T) (now : T) (k : K) : Option V := (s.find? now k).map Entry.value

/-- `WATCH`. -/
def Store.watch (s : Store K V T) (now : T) (k : K) : Watch K :=
  ⟨k, s.version k, (s.find? now k).isSome⟩

/-- The watched key was written or expired since. -/
def Store.changed (s : Store K V T) (now : T) (w : Watch K) : Bool :=
  s.version w.key != w.version || (w.present && (s.find? now w.key).isNone)

variable [DecidableEq K]

/-- Write a value with or without a deadline. -/
def Store.put (s : Store K V T) (k : K) (value : V) (deadline : Option T) : Store K V T where
  entries k' := if k' = k then some ⟨value, deadline⟩ else s.entries k'
  version k' := if k' = k then s.version k + 1 else s.version k'

/-- `DEL`. -/
def Store.erase (s : Store K V T) (k : K) : Store K V T where
  entries k' := if k' = k then none else s.entries k'
  version k' := if k' = k then s.version k + 1 else s.version k'

/-- Two stores agree on a key: its entry and its version. -/
def Store.AgreeOn (s s' : Store K V T) (k : K) : Prop :=
  s'.entries k = s.entries k ∧ s'.version k = s.version k

omit [LinearOrder T] in
theorem Store.put_agreeOn {s : Store K V T} {k k' : K} (h : k' ≠ k) (value : V)
    (deadline : Option T) : s.AgreeOn (s.put k value deadline) k' := by
  simp [Store.AgreeOn, Store.put, h]

omit [LinearOrder T] in
theorem Store.erase_agreeOn {s : Store K V T} {k k' : K} (h : k' ≠ k) :
    s.AgreeOn (s.erase k) k' := by
  simp [Store.AgreeOn, Store.erase, h]

omit [LinearOrder T] in
theorem Store.put_entries (s : Store K V T) (k : K) (value : V) (deadline : Option T) :
    (s.put k value deadline).entries k = some ⟨value, deadline⟩ := by simp [Store.put]

omit [LinearOrder T] in
theorem Store.put_version (s : Store K V T) (k : K) (value : V) (deadline : Option T) :
    (s.put k value deadline).version k = s.version k + 1 := by simp [Store.put]

omit [LinearOrder T] in
theorem Store.erase_entries (s : Store K V T) (k : K) : (s.erase k).entries k = none := by
  simp [Store.erase]

omit [DecidableEq K] in
/-- A key that reads as absent has no entry, or one whose deadline came. -/
theorem Store.find?_eq_none_iff (s : Store K V T) (now : T) (k : K) :
    s.find? now k = none ↔ ∀ e, s.entries k = some e → ∃ d, e.deadline = some d ∧ d ≤ now := by
  unfold Store.find?
  cases hentry : s.entries k with
  | none => simp
  | some e =>
    cases hdeadline : e.deadline with
    | none => simp [Entry.isLive, hdeadline]
    | some d => simp [Entry.isLive, hdeadline]

omit [DecidableEq K] in
theorem Store.entries_of_find? {s : Store K V T} {now : T} {k : K} {e : Entry V T}
    (h : s.find? now k = some e) : s.entries k = some e :=
  (Option.filter_eq_some_iff.mp h).1

omit [DecidableEq K] in
/-- A watched key that did not change still has the watched version, and
is still there if it was. -/
theorem Store.changed_eq_false_iff (s : Store K V T) (now : T) (w : Watch K) :
    s.changed now w = false ↔
      s.version w.key = w.version ∧ (w.present = true → (s.find? now w.key).isSome = true) := by
  unfold Store.changed
  cases w.present <;> cases s.find? now w.key <;> simp

/-! ## Two stores side by side -/

section

variable {s s' : Store K V T} {k : K}

omit [DecidableEq K] in
theorem Store.AgreeOn.find? (h : s.AgreeOn s' k) (now : T) : s'.find? now k = s.find? now k := by
  unfold Store.find?
  rw [h.1]

omit [DecidableEq K] in
theorem Store.AgreeOn.get (h : s.AgreeOn s' k) (now : T) : s'.get now k = s.get now k := by
  unfold Store.get
  rw [h.find?]

omit [DecidableEq K] in
theorem Store.AgreeOn.watch (h : s.AgreeOn s' k) (now : T) : s'.watch now k = s.watch now k := by
  unfold Store.watch
  rw [h.find?, h.2]

omit [DecidableEq K] in
theorem Store.AgreeOn.changed {w : Watch K} (h : s.AgreeOn s' w.key) (now : T) :
    s'.changed now w = s.changed now w := by
  unfold Store.changed
  rw [h.find?, h.2]

omit [LinearOrder T] in
/-- The same is written to both. -/
theorem Store.AgreeOn.put (h : s.AgreeOn s' k) (k' : K) (value : V) (deadline : Option T) :
    (s.put k' value deadline).AgreeOn (s'.put k' value deadline) k := by
  unfold Store.AgreeOn Store.put
  by_cases hk : k = k'
  · subst hk
    simp [h.2]
  · simp [hk, h.1, h.2]

omit [LinearOrder T] in
theorem Store.AgreeOn.erase (h : s.AgreeOn s' k) (k' : K) :
    (s.erase k').AgreeOn (s'.erase k') k := by
  unfold Store.AgreeOn Store.erase
  by_cases hk : k = k'
  · subst hk
    simp [h.2]
  · simp [hk, h.1, h.2]

omit [LinearOrder T] [DecidableEq K] in
theorem Store.AgreeOn.trans {s'' : Store K V T} (h : s.AgreeOn s' k) (h' : s'.AgreeOn s'' k) :
    s.AgreeOn s'' k := ⟨h'.1.trans h.1, h'.2.trans h.2⟩

omit [LinearOrder T] [DecidableEq K] in
theorem Store.AgreeOn.symm (h : s.AgreeOn s' k) : s'.AgreeOn s k := ⟨h.1.symm, h.2.symm⟩

end

end Sentinel.Redis
