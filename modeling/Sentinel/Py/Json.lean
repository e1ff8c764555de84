/-
Sentinel.Py.Json — `json.dumps(value, ensure_ascii=False)`.

What is written can be read in one way only: `dumps_inj`. A string ends at
its first bare quote (`readChars_quoted`), a number at the first character
that closes a value, an object at its brace.
-/
import Sentinel.Py.Text

namespace Sentinel.Py

/-! ## Values -/

/-- The characters that start a value which is no number. -/
def valueStarts : List Char := ['"', '{', '[', 'n', 't', 'f']

/-- The characters that may follow a value. -/
def valueEnds : List Char := [',', '}', ']']

/-- The text of a number: it starts like no other value, and ends where
something follows it. -/
structure NumberText where
  text : Str
  start : ∃ c rest, text = c :: rest ∧ c ∉ valueStarts
  plain : ∀ c ∈ text, c ∉ valueEnds
  deriving DecidableEq

inductive Json where
  | null
  | bool (b : Bool)
  | str (s : Str)
  | num (n : NumberText)
  | arr (items : List Json)
  | obj (items : List (Str × Json))

/-- Python's `bool(value)`. A number is false if its digits before an
exponent are zeros. -/
def Json.truthy : Json → Bool
  | .null => false
  | .bool b => b
  | .str s => !s.isEmpty
  | .num n => !(n.text.takeWhile (fun c => c ∉ ['e', 'E'])).all (· ∈ ['-', '0', '.'])
  | .arr items => !items.isEmpty
  | .obj items => !items.isEmpty

/-- `doc.get(key)` of a dictionary, whose keys are distinct. -/
def Json.lookup (items : List (Str × Json)) (key : Str) : Option Json :=
  (items.find? (·.1 == key)).map Prod.snd

/-- What `json.loads` raises: `JSONDecodeError`, or a `ValueError` or
`RecursionError` of its own. -/
inductive JsonLoadError where
  | decodeError
  | otherError (message : Str)
  deriving DecidableEq, Repr

/-- `json.loads`. -/
class JsonReader where
  loads : Str → Except JsonLoadError Json

/-- A string or `None`. -/
def Json.ofOption : Option Str → Json
  | none => .null
  | some s => .str s

/-! ## Numbers -/

theorem digit_plain {c : Char} (h : c.isDigit = true) : c ∉ valueStarts ∧ c ∉ valueEnds := by
  simp only [valueStarts, valueEnds, List.mem_cons, List.not_mem_nil, or_false]
  constructor
  · rintro (rfl | rfl | rfl | rfl | rfl | rfl) <;> revert h <;> decide
  · rintro (rfl | rfl | rfl) <;> revert h <;> decide

theorem toDigits_start (n : Nat) :
    ∃ c rest, Nat.toDigits 10 n = c :: rest ∧ c ∉ valueStarts := by
  cases hdigits : Nat.toDigits 10 n with
  | nil => exact absurd hdigits Nat.toDigits_ne_nil
  | cons c rest =>
    have hdigit : c.isDigit = true :=
      Nat.isDigit_of_mem_toDigits (by omega) (by omega) (hdigits ▸ List.mem_cons_self)
    exact ⟨c, rest, rfl, (digit_plain hdigit).1⟩

theorem toDigits_plain (n : Nat) : ∀ c ∈ Nat.toDigits 10 n, c ∉ valueEnds := by
  intro c hc
  exact (digit_plain (Nat.isDigit_of_mem_toDigits (by omega) (by omega) hc)).2

/-- `int.__repr__`. -/
def intText : Int → NumberText
  | .ofNat n => ⟨Nat.toDigits 10 n, toDigits_start n, toDigits_plain n⟩
  | .negSucc n => ⟨'-' :: Nat.toDigits 10 (n + 1), ⟨'-', _, rfl, by decide⟩, by
      intro c hc
      rcases List.mem_cons.mp hc with rfl | hc
      · decide
      · exact toDigits_plain _ c hc⟩

/-- `float.__repr__`. -/
class FloatRepr where
  repr : Rat → NumberText

/-! ## Strings -/

/-- The escapes of `json.encoder.ESCAPE_DCT`. -/
def escapeChar (c : Char) : Str :=
  if c = '"' then ['\\', '"']
  else if c = '\\' then ['\\', '\\']
  else if c = '\n' then ['\\', 'n']
  else if c = '\r' then ['\\', 'r']
  else if c = '\t' then ['\\', 't']
  else if c = Char.ofNat 12 then ['\\', 'f']
  else if c = Char.ofNat 8 then ['\\', 'b']
  else if c.toNat < 32 then
    ['\\', 'u', '0', '0', hexDigit (c.toNat / 16), hexDigit (c.toNat % 16)]
  else [c]

/-- The inside of a string and its closing quote. -/
def quoted (s : Str) : Str := s.flatMap escapeChar ++ ['"']

/-! ## Documents -/

mutual

def dumps : Json → Str
  | .null => "null".toList
  | .bool true => "true".toList
  | .bool false => "false".toList
  | .str s => '"' :: quoted s
  | .num n => n.text
  | .arr [] => "[]".toList
  | .arr (v :: items) => '[' :: dumps v ++ dumpsElements items
  | .obj [] => ['{', '}']
  | .obj ((k, v) :: items) => '{' :: '"' :: quoted k ++ ": ".toList ++ dumps v ++ dumpsRest items

/-- The elements after the first, and the closing bracket. -/
def dumpsElements : List Json → Str
  | [] => [']']
  | v :: items => ", ".toList ++ dumps v ++ dumpsElements items

/-- The items after the first, and the closing brace. -/
def dumpsRest : List (Str × Json) → Str
  | [] => ['}']
  | (k, v) :: items => ", ".toList ++ '"' :: quoted k ++ ": ".toList ++ dumps v ++ dumpsRest items

end

/-! ## Reading back -/

/-- The value of a hexadecimal digit. -/
def hexValue (c : Char) : Nat := if c.isDigit then c.toNat - 48 else c.toNat - 87

/-- Read one character of a string; `none` at its end. -/
def readChar : Str → Option (Char × Str)
  | '"' :: _ => none
  | '\\' :: 'n' :: rest => some ('\n', rest)
  | '\\' :: 'r' :: rest => some ('\r', rest)
  | '\\' :: 't' :: rest => some ('\t', rest)
  | '\\' :: 'f' :: rest => some (Char.ofNat 12, rest)
  | '\\' :: 'b' :: rest => some (Char.ofNat 8, rest)
  | '\\' :: 'u' :: _ :: _ :: h :: l :: rest =>
      some (Char.ofNat (16 * hexValue h + hexValue l), rest)
  | '\\' :: c :: rest => some (c, rest)
  | c :: rest => some (c, rest)
  | [] => none

theorem hexValue_hexDigit : ∀ n < 16, hexValue (hexDigit n) = n := by decide

/-- A character that needs no escape is read as it stands. -/
theorem readChar_plain {c : Char} (hquote : c ≠ '"') (hslash : c ≠ '\\') (rest : Str) :
    readChar (c :: rest) = some (c, rest) := by
  unfold readChar
  split
  case h_1 h => exact absurd (List.cons.inj h).1 hquote
  case h_9 h => rw [(List.cons.inj h).1, (List.cons.inj h).2]
  case h_10 h => cases h
  all_goals
    rename_i h
    exact absurd (List.cons.inj h).1 hslash

theorem readChar_escapeChar (c : Char) (rest : Str) :
    readChar (escapeChar c ++ rest) = some (c, rest) := by
  by_cases hquote : c = '"'
  · rw [hquote]; rfl
  by_cases hslash : c = '\\'
  · rw [hslash]; rfl
  by_cases hn : c = '\n'
  · rw [hn]; rfl
  by_cases hr : c = '\r'
  · rw [hr]; rfl
  by_cases ht : c = '\t'
  · rw [ht]; rfl
  by_cases hf : c = Char.ofNat 12
  · rw [hf]; rfl
  by_cases hb : c = Char.ofNat 8
  · rw [hb]; rfl
  rw [escapeChar, if_neg hquote, if_neg hslash, if_neg hn, if_neg hr, if_neg ht, if_neg hf,
    if_neg hb]
  by_cases hcontrol : c.toNat < 32
  · rw [if_pos hcontrol]
    have hhigh : hexValue (hexDigit (c.toNat / 16)) = c.toNat / 16 :=
      hexValue_hexDigit _ (by omega)
    have hlow : hexValue (hexDigit (c.toNat % 16)) = c.toNat % 16 :=
      hexValue_hexDigit _ (by omega)
    show some (Char.ofNat (16 * hexValue (hexDigit (c.toNat / 16)) +
      hexValue (hexDigit (c.toNat % 16))), rest) = some (c, rest)
    rw [hhigh, hlow, Nat.div_add_mod, Char.ofNat_toNat]
  · rw [if_neg hcontrol]
    exact readChar_plain hquote hslash rest

/-- **A string ends itself.** -/
theorem quoted_inj {s s' rest rest' : Str} (h : quoted s ++ rest = quoted s' ++ rest') :
    s = s' ∧ rest = rest' := by
  induction s generalizing s' with
  | nil =>
    cases s' with
    | nil => exact ⟨rfl, List.cons.inj h |>.2⟩
    | cons c s' =>
      have hread := congrArg readChar h
      simp only [quoted, List.flatMap_cons, List.append_assoc, readChar_escapeChar] at hread
      cases hread
  | cons c s ih =>
    have hread := congrArg readChar h
    cases s' with
    | nil =>
      simp only [quoted, List.flatMap_cons, List.append_assoc, readChar_escapeChar] at hread
      cases hread
    | cons c' s' =>
      simp only [quoted, List.flatMap_cons, List.append_assoc, readChar_escapeChar,
        Option.some.injEq, Prod.mk.injEq] at hread
      obtain ⟨rfl, hrest⟩ := hread
      have htail : quoted s ++ rest = quoted s' ++ rest' := by
        simpa only [quoted, List.append_assoc] using hrest
      obtain ⟨rfl, hsame⟩ := ih htail
      exact ⟨rfl, hsame⟩

/-! ## A document has one reading -/

/-- What may follow a value: nothing, or what ends it. -/
def Closes (rest : Str) : Prop := ∀ c ∈ rest.head?, c ∈ valueEnds

theorem closes_nil : Closes [] := by simp [Closes]

theorem closes_elements (items : List Json) (rest : Str) :
    Closes (dumpsElements items ++ rest) := by
  cases items <;> simp [Closes, dumpsElements, valueEnds]

theorem closes_rest (items : List (Str × Json)) (rest : Str) :
    Closes (dumpsRest items ++ rest) := by
  cases items <;> simp [Closes, dumpsRest, valueEnds]

/-- A number ends where something closes it. -/
theorem numberText_inj {n n' : NumberText} {rest rest' : Str} (hrest : Closes rest)
    (hrest' : Closes rest') (h : n.text ++ rest = n'.text ++ rest') : n = n' ∧ rest = rest' := by
  have htext : ∀ (n : NumberText) (rest : Str), Closes rest →
      (n.text ++ rest).takeWhile (fun c => c ∉ valueEnds) = n.text := by
    intro n rest hrest
    rw [List.takeWhile_append_of_pos fun c hc => by simpa using n.plain c hc]
    cases rest with
    | nil => simp
    | cons c rest => simp [hrest c rfl]
  have hsame : n.text = n'.text := by rw [← htext n rest hrest, h, htext n' rest' hrest']
  rw [hsame] at h
  refine ⟨?_, List.append_cancel_left h⟩
  cases n
  cases n'
  subst hsame
  rfl

/-- The kinds of values, and the character each starts with. -/
def Json.startsWith : Json → Option Char
  | .null => some 'n'
  | .bool true => some 't'
  | .bool false => some 'f'
  | .str _ => some '"'
  | .num _ => none
  | .arr _ => some '['
  | .obj _ => some '{'

/-- The first character of a value shows its kind, and ends no other. -/
theorem dumps_start (j : Json) : ∃ c rest, dumps j = c :: rest ∧ c ∉ valueEnds ∧
    j.startsWith = if c ∈ valueStarts then some c else none := by
  cases j with
  | null => exact ⟨'n', _, by rw [dumps]; rfl, by decide, rfl⟩
  | bool b =>
    cases b with
    | true => exact ⟨'t', _, by rw [dumps]; rfl, by decide, rfl⟩
    | false => exact ⟨'f', _, by rw [dumps]; rfl, by decide, rfl⟩
  | str s => exact ⟨'"', _, by rw [dumps], by decide, rfl⟩
  | num n =>
    obtain ⟨c, rest, htext, hstart⟩ := n.start
    have hplain : c ∉ valueEnds := n.plain c (by rw [htext]; exact List.mem_cons_self)
    exact ⟨c, rest, by rw [dumps, htext], hplain, by rw [if_neg hstart]; rfl⟩
  | arr items =>
    cases items with
    | nil => exact ⟨'[', _, by rw [dumps]; rfl, by decide, rfl⟩
    | cons v items => exact ⟨'[', _, by rw [dumps]; rfl, by decide, rfl⟩
  | obj items =>
    cases items with
    | nil => exact ⟨'{', _, by rw [dumps], by decide, rfl⟩
    | cons item items => exact ⟨'{', _, by rw [dumps]; rfl, by decide, rfl⟩

/-- An empty array is no other array. -/
theorem dumps_nil_ne_cons {v : Json} {items : List Json} {rest rest' : Str}
    (h : dumps (.arr []) ++ rest = dumps (.arr (v :: items)) ++ rest') : False := by
  obtain ⟨c, tail, hv, hplain, -⟩ := dumps_start v
  simp only [dumps, hv, List.cons_append] at h
  exact hplain (by rw [← (List.cons.inj (List.cons.inj h).2).1]; decide)

theorem startsWith_eq {j j' : Json} {rest rest' : Str}
    (h : dumps j ++ rest = dumps j' ++ rest') : j.startsWith = j'.startsWith := by
  obtain ⟨c, tail, hj, -, hkind⟩ := dumps_start j
  obtain ⟨c', tail', hj', -, hkind'⟩ := dumps_start j'
  rw [hj, hj'] at h
  rw [hkind, hkind', (List.cons.inj h).1]

mutual

/-- **A value can be read in one way.** -/
theorem dumps_append_inj : ∀ (j j' : Json) (rest rest' : Str), Closes rest → Closes rest' →
    dumps j ++ rest = dumps j' ++ rest' → j = j' ∧ rest = rest'
  | j, j', rest, rest', hrest, hrest', h => by
    have hkind := startsWith_eq h
    match j, j' with
    | .null, .null => exact ⟨rfl, List.append_cancel_left h⟩
    | .bool true, .bool true => exact ⟨rfl, List.append_cancel_left h⟩
    | .bool false, .bool false => exact ⟨rfl, List.append_cancel_left h⟩
    | .str s, .str s' =>
      simp only [dumps, List.cons_append, List.cons.injEq, true_and] at h
      obtain ⟨rfl, hsame⟩ := quoted_inj h
      exact ⟨rfl, hsame⟩
    | .num n, .num n' =>
      simp only [dumps] at h
      obtain ⟨rfl, hsame⟩ := numberText_inj hrest hrest' h
      exact ⟨rfl, hsame⟩
    | .arr [], .arr [] => exact ⟨rfl, List.append_cancel_left h⟩
    | .arr (v :: items), .arr (v' :: items') =>
      simp only [dumps, List.cons_append, List.append_assoc, List.cons.injEq, true_and] at h
      obtain ⟨rfl, hitems⟩ := dumps_append_inj v v' _ _ (closes_elements items rest)
        (closes_elements items' rest') h
      obtain ⟨rfl, hsame⟩ := dumpsElements_append_inj items items' rest rest' hitems
      exact ⟨rfl, hsame⟩
    | .obj [], .obj [] => exact ⟨rfl, List.append_cancel_left h⟩
    | .obj ((k, v) :: items), .obj ((k', v') :: items') =>
      simp only [dumps, List.cons_append, List.append_assoc, List.cons.injEq, true_and] at h
      obtain ⟨rfl, hvalue⟩ := quoted_inj h
      obtain ⟨rfl, hitems⟩ := dumps_append_inj v v' _ _ (closes_rest items rest)
        (closes_rest items' rest') (List.append_cancel_left hvalue)
      obtain ⟨rfl, hsame⟩ := dumpsRest_append_inj items items' rest rest' hitems
      exact ⟨rfl, hsame⟩
    | .obj [], .obj ((k', v') :: items') => simp [dumps] at h
    | .obj ((k, v) :: items), .obj [] => simp [dumps] at h
    | .arr [], .arr (v' :: items') => exact (dumps_nil_ne_cons h).elim
    | .arr (v :: items), .arr [] => exact (dumps_nil_ne_cons h.symm).elim

theorem dumpsElements_append_inj : ∀ (items items' : List Json) (rest rest' : Str),
    dumpsElements items ++ rest = dumpsElements items' ++ rest' → items = items' ∧ rest = rest'
  | [], [], rest, rest', h => by
    simp only [dumpsElements, List.cons_append, List.nil_append, List.cons.injEq, true_and] at h
    exact ⟨rfl, h⟩
  | [], v' :: items', rest, rest', h => by simp [dumpsElements] at h
  | v :: items, [], rest, rest', h => by simp [dumpsElements] at h
  | v :: items, v' :: items', rest, rest', h => by
    simp only [dumpsElements, List.append_assoc] at h
    obtain ⟨rfl, hitems⟩ := dumps_append_inj v v' _ _ (closes_elements items rest)
      (closes_elements items' rest') (List.append_cancel_left h)
    obtain ⟨rfl, hsame⟩ := dumpsElements_append_inj items items' rest rest' hitems
    exact ⟨rfl, hsame⟩

theorem dumpsRest_append_inj : ∀ (items items' : List (Str × Json)) (rest rest' : Str),
    dumpsRest items ++ rest = dumpsRest items' ++ rest' → items = items' ∧ rest = rest'
  | [], [], rest, rest', h => by
    simp only [dumpsRest, List.cons_append, List.nil_append, List.cons.injEq, true_and] at h
    exact ⟨rfl, h⟩
  | [], (k', v') :: items', rest, rest', h => by simp [dumpsRest] at h
  | (k, v) :: items, [], rest, rest', h => by simp [dumpsRest] at h
  | (k, v) :: items, (k', v') :: items', rest, rest', h => by
    simp only [dumpsRest, List.cons_append, List.append_assoc] at h
    have h := List.append_cancel_left h
    simp only [List.cons.injEq, true_and] at h
    obtain ⟨rfl, hvalue⟩ := quoted_inj h
    obtain ⟨rfl, hitems⟩ := dumps_append_inj v v' _ _ (closes_rest items rest)
      (closes_rest items' rest') (List.append_cancel_left hvalue)
    obtain ⟨rfl, hsame⟩ := dumpsRest_append_inj items items' rest rest' hitems
    exact ⟨rfl, hsame⟩

end

/-- **Documents that are written alike are equal.** -/
theorem dumps_inj {j j' : Json} (h : dumps j = dumps j') : j = j' := by
  refine (dumps_append_inj j j' [] [] closes_nil closes_nil ?_).1
  rw [h]

/-- An object with one item of each kind. -/
example : dumps (.obj [("a".toList, .null), ("b".toList, .str "q\"\n".toList),
    ("c".toList, .arr [.num (intText (-12)), .bool true])]) =
    "\x7b\"a\": null, \"b\": \"q\\\"\\n\", \"c\": [-12, true]\x7d".toList := by
  decide +kernel

end Sentinel.Py
