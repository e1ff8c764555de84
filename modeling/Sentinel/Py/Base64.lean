/-
Sentinel.Py.Base64 — `base64.urlsafe_b64encode` and
`base64.urlsafe_b64decode`.

The decoder is the lenient one of `binascii.a2b_base64`: it passes over
what is no digit, and it stops at the padding of a group. So a text that
is padded decodes to what it shows whatever stands behind it
(`urlsafeB64decode_append`).
-/
import Sentinel.Py.Codec

namespace Sentinel.Py

/-- `_urlsafe_encode_translation`. -/
def urlsafeEncodeChar (c : Char) : Char :=
  if c = '+' then '-' else if c = '/' then '_' else c

/-- `_urlsafe_decode_translation`. -/
def urlsafeDecodeChar (c : Char) : Char :=
  if c = '-' then '+' else if c = '_' then '/' else c

/-- `base64.urlsafe_b64encode(data).decode("ascii")`. -/
def urlsafeB64encode (data : List UInt8) : Str := (b64encode data).map urlsafeEncodeChar

/-- What a digit does at a place of its group with the bits `left` over: the
next place, the bits left over then, and the byte that is complete. -/
def a2bDigit (left v : Nat) : Nat → Nat × Nat × List UInt8
  | 0 => (1, v, [])
  | 1 => (2, v % 16, [UInt8.ofNat (left * 4 + v / 16)])
  | 2 => (3, v % 4, [UInt8.ofNat (left * 16 + v / 4)])
  | _ => (0, 0, [UInt8.ofNat (left * 64 + v)])

/-- The loop of `binascii.a2b_base64` that is not strict, with `quad_pos`,
`leftchar` and `pads`; `none` is `binascii.Error`. -/
def a2bLoop : Nat → Nat → Nat → Str → Option (List UInt8)
  | quadPos, _, _, [] => if quadPos = 0 then some [] else none
  | quadPos, left, pads, c :: rest =>
      if c = '=' then
        if 2 ≤ quadPos then
          if 4 ≤ quadPos + (pads + 1) then some [] else a2bLoop quadPos left (pads + 1) rest
        else a2bLoop quadPos left pads rest
      else if base64Value c < 64 then
        let (quadPos, left, bytes) := a2bDigit left (base64Value c) quadPos
        (a2bLoop quadPos left 0 rest).map (bytes ++ ·)
      else a2bLoop quadPos left pads rest

/-- `base64.urlsafe_b64decode(data)`. -/
def urlsafeB64decode (data : List UInt8) : Option (List UInt8) :=
  a2bLoop 0 0 0 (data.map fun b => urlsafeDecodeChar (Char.ofNat b.toNat))

/-! ## Texts of digits -/

/-- The characters of a base 64 text. -/
def base64Alphabet : Str := '=' :: (List.range 64).map base64Digit

theorem base64Digit_mem {n : Nat} (hn : n < 64) : base64Digit n ∈ base64Alphabet :=
  List.mem_cons_of_mem _ (List.mem_map_of_mem (List.mem_range.mpr hn))

theorem b64encode_subset : ∀ data : List UInt8, b64encode data ⊆ base64Alphabet
  | [] => List.nil_subset _
  | [a] => by
    have ha := a.toNat_lt
    simp only [b64encode, List.cons_subset, List.nil_subset, and_true]
    exact ⟨base64Digit_mem (by omega), base64Digit_mem (by omega), List.mem_cons_self,
      List.mem_cons_self⟩
  | [a, b] => by
    have ha := a.toNat_lt
    have hb := b.toNat_lt
    simp only [b64encode, List.cons_subset, List.nil_subset, and_true]
    exact ⟨base64Digit_mem (by omega), base64Digit_mem (by omega), base64Digit_mem (by omega),
      List.mem_cons_self⟩
  | a :: b :: c :: rest => by
    have ha := a.toNat_lt
    have hb := b.toNat_lt
    have hc := c.toNat_lt
    simp only [b64encode, List.cons_subset]
    exact ⟨base64Digit_mem (by omega), base64Digit_mem (by omega), base64Digit_mem (by omega),
      base64Digit_mem (by omega), b64encode_subset rest⟩

theorem urlsafeChar_digit : ∀ n < 64,
    urlsafeDecodeChar (urlsafeEncodeChar (base64Digit n)) = base64Digit n ∧
      (urlsafeEncodeChar (base64Digit n)).toNat < 128 := by decide +kernel

/-- The characters of the alphabet are ASCII, and the translations undo each
other on them. -/
theorem urlsafeChar_of_mem {c : Char} (h : c ∈ base64Alphabet) :
    urlsafeDecodeChar (urlsafeEncodeChar c) = c ∧ (urlsafeEncodeChar c).toNat < 128 := by
  rcases List.mem_cons.mp h with rfl | hdigit
  · decide
  · obtain ⟨n, hn, rfl⟩ := List.mem_map.mp hdigit
    exact urlsafeChar_digit n (List.mem_range.mp hn)

/-- The bytes of an ASCII text are its characters. -/
theorem map_ofNat_encodeStrict {text : Str} (h : ∀ c ∈ text, c.toNat < 128) :
    (encodeStrict text).map (fun b => Char.ofNat b.toNat) = text := by
  induction text with
  | nil => rfl
  | cons c text ih =>
    have hc := h c List.mem_cons_self
    have hbyte : String.utf8EncodeChar c = [UInt8.ofNat c.toNat] := by
      have hlow : c.toNat ≤ 0x7f := by omega
      simp [String.utf8EncodeChar, hlow]
    have hback : Char.ofNat (UInt8.ofNat c.toNat).toNat = c := by
      rw [UInt8.toNat_ofNat', Nat.mod_eq_of_lt (by omega), Char.ofNat_toNat]
    rw [encodeStrict, List.flatMap_cons, hbyte, List.singleton_append, List.map_cons, hback]
    exact congrArg _ (ih fun d hd => h d (List.mem_cons_of_mem c hd))

theorem urlsafeB64encode_ascii (data : List UInt8) : ∀ c ∈ urlsafeB64encode data, c.toNat < 128 := by
  intro c hc
  obtain ⟨d, hd, rfl⟩ := List.mem_map.mp hc
  exact (urlsafeChar_of_mem (b64encode_subset data hd)).2

theorem map_urlsafeDecodeChar (data : List UInt8) :
    (urlsafeB64encode data).map urlsafeDecodeChar = b64encode data := by
  rw [urlsafeB64encode, List.map_map]
  refine (List.map_congr_left fun c hc => ?_).trans (List.map_id _)
  exact (urlsafeChar_of_mem (b64encode_subset data hc)).1

/-! ## The loop -/

theorem a2bLoop_digit {n : Nat} (hn : n < 64) (quadPos left pads : Nat) (rest : Str) :
    a2bLoop quadPos left pads (base64Digit n :: rest) =
      (a2bLoop (a2bDigit left n quadPos).1 (a2bDigit left n quadPos).2.1 0 rest).map
        ((a2bDigit left n quadPos).2.2 ++ ·) := by
  rw [a2bLoop, if_neg (base64Digit_ne_pad n hn), base64Value_digit n hn, if_pos hn]

/-- A padded text is read up to its padding. -/
theorem a2bLoop_b64encode : ∀ (data : List UInt8) (rest : Str), data.length % 3 ≠ 0 →
    a2bLoop 0 0 0 (b64encode data ++ rest) = some data
  | [], _, h => absurd rfl h
  | [a], rest, _ => by
    have ha := a.toNat_lt
    have hbyte : UInt8.ofNat (a.toNat * 16 / 64 * 4 + a.toNat * 16 % 64 / 16) = a := by
      apply UInt8.toNat_inj.mp
      rw [UInt8.toNat_ofNat']
      omega
    rw [b64encode, List.cons_append, a2bLoop_digit (by omega), List.cons_append,
      a2bLoop_digit (by omega)]
    simp [a2bDigit, a2bLoop, hbyte]
  | [a, b], rest, _ => by
    have ha := a.toNat_lt
    have hb := b.toNat_lt
    have hfirst : UInt8.ofNat ((a.toNat * 256 + b.toNat) * 4 / 4096 * 4 +
        (a.toNat * 256 + b.toNat) * 4 / 64 % 64 / 16) = a := by
      apply UInt8.toNat_inj.mp
      rw [UInt8.toNat_ofNat']
      omega
    have hsecond : UInt8.ofNat ((a.toNat * 256 + b.toNat) * 4 / 64 % 64 % 16 * 16 +
        (a.toNat * 256 + b.toNat) * 4 % 64 / 4) = b := by
      apply UInt8.toNat_inj.mp
      rw [UInt8.toNat_ofNat']
      omega
    rw [b64encode, List.cons_append, a2bLoop_digit (by omega), List.cons_append,
      a2bLoop_digit (by omega), List.cons_append, a2bLoop_digit (by omega)]
    simp only [a2bDigit, hfirst, hsecond]
    simp [a2bLoop]
  | a :: b :: c :: data, rest, h => by
    have ha := a.toNat_lt
    have hb := b.toNat_lt
    have hc := c.toNat_lt
    have hrest := a2bLoop_b64encode data rest (by simp only [List.length_cons] at h; omega)
    have hfirst : UInt8.ofNat (((a.toNat * 256 + b.toNat) * 256 + c.toNat) / 262144 * 4 +
        ((a.toNat * 256 + b.toNat) * 256 + c.toNat) / 4096 % 64 / 16) = a := by
      apply UInt8.toNat_inj.mp
      rw [UInt8.toNat_ofNat']
      omega
    have hsecond : UInt8.ofNat (((a.toNat * 256 + b.toNat) * 256 + c.toNat) / 4096 % 64 % 16 * 16 +
        ((a.toNat * 256 + b.toNat) * 256 + c.toNat) / 64 % 64 / 4) = b := by
      apply UInt8.toNat_inj.mp
      rw [UInt8.toNat_ofNat']
      omega
    have hthird : UInt8.ofNat (((a.toNat * 256 + b.toNat) * 256 + c.toNat) / 64 % 64 % 4 * 64 +
        ((a.toNat * 256 + b.toNat) * 256 + c.toNat) % 64) = c := by
      apply UInt8.toNat_inj.mp
      rw [UInt8.toNat_ofNat']
      omega
    rw [b64encode, List.cons_append, a2bLoop_digit (by omega), List.cons_append,
      a2bLoop_digit (by omega), List.cons_append, a2bLoop_digit (by omega), List.cons_append,
      a2bLoop_digit (by omega)]
    simp only [a2bDigit, hfirst, hsecond, hthird, hrest]
    rfl

/-- **What a padded text decodes to**, whatever ASCII text stands behind it. -/
theorem urlsafeB64decode_append {data : List UInt8} (hdata : data.length % 3 ≠ 0) {rest : Str}
    (hrest : ∀ c ∈ rest, c.toNat < 128) :
    urlsafeB64decode (encodeStrict (urlsafeB64encode data ++ rest)) = some data := by
  have hascii : ∀ c ∈ urlsafeB64encode data ++ rest, c.toNat < 128 := by
    intro c hc
    rcases List.mem_append.mp hc with hc | hc
    · exact urlsafeB64encode_ascii data c hc
    · exact hrest c hc
  have hchars : (encodeStrict (urlsafeB64encode data ++ rest)).map
      (fun b => urlsafeDecodeChar (Char.ofNat b.toNat)) =
        b64encode data ++ rest.map urlsafeDecodeChar := by
    rw [← map_urlsafeDecodeChar, ← List.map_append, ← map_ofNat_encodeStrict hascii, List.map_map,
      map_ofNat_encodeStrict hascii]
    rfl
  rw [urlsafeB64decode, hchars]
  exact a2bLoop_b64encode data _ hdata

/-- The digits of the url, what stands behind the padding, and a group that
is cut short. -/
example : urlsafeB64decode (encodeStrict "_-8=,AAAA".toList) = some [0xff, 0xef] ∧
    urlsafeB64decode (encodeStrict "_-".toList) = none := by decide +kernel

end Sentinel.Py
