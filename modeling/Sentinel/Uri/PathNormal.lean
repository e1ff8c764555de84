/-
Sentinel.Uri.PathNormal — the normal form of a URI path, as RFC 3986 has
it: percent-encoded unreserved characters are decoded (§6.2.2.2), then the
dot segments are removed (§5.2.4, steps A to E).

The removal reads its input from the left and keeps the segments it has
put out, the last one first. Every step makes the input shorter, so the
length of the path is fuel enough (`removeDots_fuel`).
-/
import Mathlib.Data.List.Basic

namespace Sentinel.Uri

/-- `unreserved`. -/
def isUnreserved (c : Char) : Bool :=
  c.isAlphanum || c == '-' || c == '.' || c == '_' || c == '~'

/-- The value of a hex digit. -/
def hexValue (c : Char) : Option Nat :=
  if c.isDigit then some (c.toNat - '0'.toNat)
  else if 'a' ≤ c ∧ c ≤ 'f' then some (c.toNat - 'a'.toNat + 10)
  else if 'A' ≤ c ∧ c ≤ 'F' then some (c.toNat - 'A'.toNat + 10)
  else none

/-- The unreserved character that `%hl` stands for. -/
def encodedUnreserved (h l : Char) : Option Char := do
  let c := Char.ofNat (16 * (← hexValue h) + (← hexValue l))
  if isUnreserved c then some c else none

/-- Decode what was percent-encoded without need. -/
def decodeUnreserved : List Char → List Char
  | '%' :: h :: l :: rest =>
      match encodedUnreserved h l with
      | some c => c :: decodeUnreserved rest
      | none => '%' :: decodeUnreserved (h :: l :: rest)
  | c :: rest => c :: decodeUnreserved rest
  | [] => []

/-- Steps A to D: the input that is left after a dot segment, and whether
the last segment put out goes with it. -/
def dotSegment : List Char → Option (List Char × Bool)
  | '.' :: '.' :: '/' :: rest => some (rest, false)
  | '.' :: '/' :: rest => some (rest, false)
  | '/' :: '.' :: '/' :: rest => some ('/' :: rest, false)
  | ['/', '.'] => some (['/'], false)
  | '/' :: '.' :: '.' :: '/' :: rest => some ('/' :: rest, true)
  | ['/', '.', '.'] => some (['/'], true)
  | ['.'] => some ([], false)
  | ['.', '.'] => some ([], false)
  | _ => none

/-- The loop of §5.2.4. Where no dot segment stands in front (step E), the
first segment is put out with its slash. -/
def removeDots : Nat → List Char → List (List Char) → List (List Char)
  | 0, _, out => out
  | _ + 1, [], out => out
  | n + 1, c :: rest, out =>
      match dotSegment (c :: rest) with
      | some (left, dropsLast) => removeDots n left (if dropsLast then out.tail else out)
      | none =>
          removeDots n (rest.dropWhile (· != '/')) ((c :: rest.takeWhile (· != '/')) :: out)

/-- `remove_dot_segments`. -/
def removeDotSegments (path : List Char) : List Char :=
  (removeDots path.length path []).reverse.flatten

/-- The normal form of a path. -/
def normalizePath (path : List Char) : List Char := removeDotSegments (decodeUnreserved path)

/-! ## The fuel is enough -/

theorem dotSegment_shorter {s left : List Char} {dropsLast : Bool}
    (h : dotSegment s = some (left, dropsLast)) : left.length < s.length := by
  unfold dotSegment at h
  split at h <;>
    first
      | (obtain ⟨rfl, rfl⟩ := h; simp only [List.length_cons, List.length_nil]; omega)
      | exact nomatch h

theorem removeDots_fuel {n : Nat} {s : List Char} (h : s.length ≤ n) (out : List (List Char)) :
    removeDots n s out = removeDots s.length s out := by
  induction n using Nat.strongRecOn generalizing s out with
  | ind n ih =>
    match n, s, h with
    | 0, [], _ => rfl
    | _ + 1, [], _ => rfl
    | m + 1, c :: rest, h =>
      have hm : rest.length ≤ m := by simpa using h
      rw [List.length_cons, removeDots, removeDots]
      cases hd : dotSegment (c :: rest) with
      | some r =>
        obtain ⟨left, dropsLast⟩ := r
        have hleft : left.length ≤ rest.length := Nat.lt_succ_iff.mp (dotSegment_shorter hd)
        dsimp only
        rw [ih m (Nat.lt_succ_self m) (Nat.le_trans hleft hm),
          ih rest.length (Nat.lt_succ_of_le hm) hleft]
      | none =>
        have hdrop := (List.dropWhile_sublist (l := rest) (· != '/')).length_le
        dsimp only
        rw [ih m (Nat.lt_succ_self m) (Nat.le_trans hdrop hm),
          ih rest.length (Nat.lt_succ_of_le hm) hdrop]

/-! ## Paths that are normal as they stand -/

theorem decodeUnreserved_of_plain {path : List Char} (h : '%' ∉ path) :
    decodeUnreserved path = path := by
  fun_induction decodeUnreserved path with
  | case1 => simp at h
  | case2 => simp at h
  | case3 c rest _ ih => rw [ih fun hmem => h (List.mem_cons_of_mem c hmem)]
  | case4 => rfl

theorem dotSegment_of_plain {s : List Char} (h : '.' ∉ s) : dotSegment s = none := by
  unfold dotSegment
  split <;> first | simp at h | rfl

theorem removeDots_of_plain {n : Nat} {s : List Char} (hlen : s.length ≤ n) (h : '.' ∉ s)
    (out : List (List Char)) :
    (removeDots n s out).reverse.flatten = out.reverse.flatten ++ s := by
  induction n generalizing s out with
  | zero =>
    obtain rfl : s = [] := List.length_eq_zero_iff.mp (Nat.le_zero.mp hlen)
    simp [removeDots]
  | succ n ih =>
    cases s with
    | nil => simp [removeDots]
    | cons c rest =>
      have hdrop : '.' ∉ rest.dropWhile (· != '/') := fun hmem =>
        h (List.mem_cons_of_mem c ((List.dropWhile_sublist _).mem hmem))
      have hshort : (rest.dropWhile (· != '/')).length ≤ n :=
        Nat.le_trans (List.dropWhile_sublist _).length_le (by simpa using hlen)
      rw [removeDots, dotSegment_of_plain h]
      dsimp only
      rw [ih hshort hdrop]
      simp

/-- A path with neither a percent sign nor a dot is its own normal form. -/
theorem normalizePath_of_plain {path : List Char} (hpercent : '%' ∉ path) (hdot : '.' ∉ path) :
    normalizePath path = path := by
  rw [normalizePath, decodeUnreserved_of_plain hpercent, removeDotSegments,
    removeDots_of_plain (Nat.le_refl _) hdot]
  rfl

/-- The first two are the examples of §5.2.4. -/
example :
    removeDotSegments "/a/b/c/./../../g".toList = "/a/g".toList ∧
      removeDotSegments "mid/content=5/../6".toList = "mid/6".toList ∧
      normalizePath "/public/%2e%2E/admin".toList = "/admin".toList := by decide +kernel

end Sentinel.Uri
