/-
Sentinel.Py.Codec — `bytes.decode("utf-8")`, `str.encode("utf-8")` and
`base64.b64encode`.

The strict decoder takes what RFC 3629 calls UTF-8 and nothing else:
no overlong form, no surrogate, nothing truncated. Lean's own decoder
draws the same line, so it is the one used here.
-/
import Sentinel.Py.Text

namespace Sentinel.Py

/-- `text.encode("utf-8")`. -/
def encodeStrict (text : Str) : List UInt8 := text.flatMap String.utf8EncodeChar

/-- `bytes.decode("utf-8")`; `none` is `UnicodeDecodeError`. -/
def decodeStrict (bytes : List UInt8) : Option Str :=
  (ByteArray.utf8Decode? bytes.toByteArray).map Array.toList

theorem decodeStrict_encodeStrict (text : Str) : decodeStrict (encodeStrict text) = some text := by
  have hbytes : (encodeStrict text).toByteArray = text.utf8Encode := rfl
  rw [decodeStrict, hbytes, List.utf8Decode?_utf8Encode]
  rfl

theorem encodeStrict_inj {text text' : Str} (h : encodeStrict text = encodeStrict text') :
    text = text' := by
  have hdecoded := congrArg decodeStrict h
  rw [decodeStrict_encodeStrict, decodeStrict_encodeStrict] at hdecoded
  exact Option.some.inj hdecoded

/-- Bytes that decode are the encoding of what they decode to. -/
theorem encodeStrict_of_decodeStrict {bytes : List UInt8} {text : Str}
    (h : decodeStrict bytes = some text) : encodeStrict text = bytes := by
  obtain ⟨chars, hchars, rfl⟩ := Option.map_eq_some_iff.mp h
  have hsome : (ByteArray.utf8Decode? bytes.toByteArray).isSome := by rw [hchars]; rfl
  have hencoded : chars.toList.utf8Encode = bytes.toByteArray := by
    have hget := ByteArray.utf8Encode_get_utf8Decode? (h := hsome)
    simpa only [hchars, Option.get_some] using hget
  exact List.toByteArray_inj.mp hencoded

/-! ## Base 64 -/

/-- The digit of a six-bit value. -/
def base64Digit (n : Nat) : Char :=
  if n < 26 then Char.ofNat (n + 65)
  else if n < 52 then Char.ofNat (n - 26 + 97)
  else if n < 62 then Char.ofNat (n - 52 + 48)
  else if n = 62 then '+' else '/'

/-- `base64.b64encode(data).decode("ascii")`. -/
def b64encode : List UInt8 → Str
  | [] => []
  | [a] =>
      let n := a.toNat * 16
      [base64Digit (n / 64), base64Digit (n % 64), '=', '=']
  | [a, b] =>
      let n := (a.toNat * 256 + b.toNat) * 4
      [base64Digit (n / 4096), base64Digit (n / 64 % 64), base64Digit (n % 64), '=']
  | a :: b :: c :: rest =>
      let n := (a.toNat * 256 + b.toNat) * 256 + c.toNat
      base64Digit (n / 262144) :: base64Digit (n / 4096 % 64) :: base64Digit (n / 64 % 64) ::
        base64Digit (n % 64) :: b64encode rest

/-- Where a digit stands in the alphabet. -/
def base64Value (c : Char) : Nat := ((List.range 64).map base64Digit).idxOf c

theorem base64Value_digit : ∀ n < 64, base64Value (base64Digit n) = n := by decide +kernel

theorem base64Digit_inj {m n : Nat} (hm : m < 64) (hn : n < 64)
    (h : base64Digit m = base64Digit n) : m = n := by
  rw [← base64Value_digit m hm, h, base64Value_digit n hn]

theorem base64Digit_ne_pad : ∀ n < 64, base64Digit n ≠ '=' := by decide +kernel

/-- Four digits show three bytes, and the padding how many the last are. -/
theorem b64encode_inj : ∀ xs ys : List UInt8, b64encode xs = b64encode ys → xs = ys
  | [], [], _ => rfl
  | [], [_], h => by simp [b64encode] at h
  | [], [_, _], h => by simp [b64encode] at h
  | [], _ :: _ :: _ :: _, h => by simp [b64encode] at h
  | [_], [], h => by simp [b64encode] at h
  | [_, _], [], h => by simp [b64encode] at h
  | _ :: _ :: _ :: _, [], h => by simp [b64encode] at h
  | [a], [b], h => by
    have ha := a.toNat_lt
    have hb := b.toNat_lt
    simp only [b64encode, List.cons.injEq, and_true] at h
    have hhigh := base64Digit_inj (by omega) (by omega) h.1
    have hlow := base64Digit_inj (by omega) (by omega) h.2
    have hsame : a = b := UInt8.toNat_inj.mp (by omega)
    rw [hsame]
  | [_], [b, c], h => by
    have hb := b.toNat_lt
    have hc := c.toNat_lt
    simp only [b64encode, List.cons.injEq] at h
    exact absurd h.2.2.1.symm (base64Digit_ne_pad _ (by omega))
  | [_], b :: c :: d :: ys, h => by
    simp only [b64encode, List.cons.injEq] at h
    exact absurd h.2.2.1.symm (base64Digit_ne_pad _ (by omega))
  | [a, b], [_], h => by
    have ha := a.toNat_lt
    have hb := b.toNat_lt
    simp only [b64encode, List.cons.injEq] at h
    exact absurd h.2.2.1 (base64Digit_ne_pad _ (by omega))
  | [a, b], [c, d], h => by
    have ha := a.toNat_lt
    have hb := b.toNat_lt
    have hc := c.toNat_lt
    have hd := d.toNat_lt
    simp only [b64encode, List.cons.injEq, and_true] at h
    have hfirst := base64Digit_inj (by omega) (by omega) h.1
    have hsecond := base64Digit_inj (by omega) (by omega) h.2.1
    have hthird := base64Digit_inj (by omega) (by omega) h.2.2
    have hac : a = c := UInt8.toNat_inj.mp (by omega)
    have hbd : b = d := UInt8.toNat_inj.mp (by omega)
    rw [hac, hbd]
  | [_, _], c :: d :: e :: ys, h => by
    simp only [b64encode, List.cons.injEq] at h
    exact absurd h.2.2.2.1.symm (base64Digit_ne_pad _ (by omega))
  | a :: b :: c :: xs, [_], h => by
    simp only [b64encode, List.cons.injEq] at h
    exact absurd h.2.2.1 (base64Digit_ne_pad _ (by omega))
  | a :: b :: c :: xs, [_, _], h => by
    simp only [b64encode, List.cons.injEq] at h
    exact absurd h.2.2.2.1 (base64Digit_ne_pad _ (by omega))
  | a :: b :: c :: xs, d :: e :: f :: ys, h => by
    have ha := a.toNat_lt
    have hb := b.toNat_lt
    have hc := c.toNat_lt
    have hd := d.toNat_lt
    have he := e.toNat_lt
    have hf := f.toNat_lt
    simp only [b64encode, List.cons.injEq] at h
    obtain ⟨h1, h2, h3, h4, hrest⟩ := h
    have hfirst := base64Digit_inj (by omega) (by omega) h1
    have hsecond := base64Digit_inj (by omega) (by omega) h2
    have hthird := base64Digit_inj (by omega) (by omega) h3
    have hfourth := base64Digit_inj (by omega) (by omega) h4
    have had : a = d := UInt8.toNat_inj.mp (by omega)
    have hbe : b = e := UInt8.toNat_inj.mp (by omega)
    have hcf : c = f := UInt8.toNat_inj.mp (by omega)
    rw [had, hbe, hcf, b64encode_inj xs ys hrest]

/-- The three lengths modulo three. -/
example : b64encode [0xFF] = "/w==".toList ∧ b64encode [0xFF, 0xD8] = "/9g=".toList ∧
    b64encode [0xFF, 0xD8, 0x61] = "/9hh".toList := by decide +kernel

end Sentinel.Py
