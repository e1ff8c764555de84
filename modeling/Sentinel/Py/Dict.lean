/-
Sentinel.Py.Dict — insertion-ordered string dictionaries.

A `dict` is the list of its items. Assignment to a key that is there
keeps the key's place and replaces its value, assignment to a new key
appends, and `{**d, **e}` assigns the items of `e` one after another.
-/
import Sentinel.Py.Text

namespace Sentinel.Py

/-- A Python `dict[str, str]`: its items in insertion order. -/
abbrev Dict := List (Str × Str)

namespace Dict

/-- `d.keys()`. -/
def keys (d : Dict) : List Str := d.map Prod.fst

/-- `d[k] = v`. -/
def set : Dict → Str → Str → Dict
  | [], k, v => [(k, v)]
  | (k', v') :: rest, k, v => if k' = k then (k, v) :: rest else (k', v') :: set rest k v

/-- `{**d, **e}`. -/
def merge (d e : Dict) : Dict := e.foldl (fun acc kv => acc.set kv.1 kv.2) d

/-- `d.setdefault(k, v)`, as the dictionary it leaves. -/
def setdefault (d : Dict) (k v : Str) : Dict := if k ∈ d.keys then d else d ++ [(k, v)]

theorem mem_keys_set {d : Dict} {k v x : Str} : x ∈ (d.set k v).keys ↔ x = k ∨ x ∈ d.keys := by
  induction d with
  | nil => simp [set, keys]
  | cons kv rest ih =>
    obtain ⟨k', v'⟩ := kv
    by_cases h : k' = k
    · simp [set, keys, h]
    · simp only [keys] at ih
      simp only [set, if_neg h, keys, List.map_cons, List.mem_cons, ih]
      tauto

theorem mem_keys_merge {d e : Dict} {x : Str} :
    x ∈ (d.merge e).keys ↔ x ∈ d.keys ∨ x ∈ e.keys := by
  induction e generalizing d with
  | nil => simp [merge, keys]
  | cons kv rest ih =>
    have hstep : d.merge (kv :: rest) = (d.set kv.1 kv.2).merge rest := rfl
    rw [hstep, ih, mem_keys_set]
    simp only [keys, List.map_cons, List.mem_cons]
    tauto

theorem mem_keys_setdefault {d : Dict} {k v x : Str} :
    x ∈ (d.setdefault k v).keys ↔ x = k ∨ x ∈ d.keys := by
  by_cases h : k ∈ d.keys
  · rw [setdefault, if_pos h]
    constructor
    · exact Or.inr
    · rintro (rfl | hx)
      · exact h
      · exact hx
  · rw [setdefault, if_neg h]
    simp [keys, or_comm]

end Dict

end Sentinel.Py
