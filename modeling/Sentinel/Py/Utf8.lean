/-
Sentinel.Py.Utf8 — `bytes.decode("utf-8", errors="replace")`.

The decoder replaces every maximal malformed piece by one U+FFFD: a lead
byte together with the continuation bytes that could still have led to a
character. The ranges of the second byte exclude overlong forms,
surrogates and values past U+10FFFF.
-/
import Sentinel.Py.Text

namespace Sentinel.Py

def replacementChar : Char := Char.ofNat 0xFFFD

/-- What a lead byte announces: the value it contributes, how many
continuation bytes follow, and the range of the first of them. -/
def utf8Lead (b : Nat) : Option (Nat × Nat × Nat × Nat) :=
  if b < 0x80 then some (b, 0, 0x80, 0xBF)
  else if b < 0xC2 then none
  else if b < 0xE0 then some (b - 0xC0, 1, 0x80, 0xBF)
  else if b < 0xF0 then
    some (b - 0xE0, 2, if b = 0xE0 then 0xA0 else 0x80, if b = 0xED then 0x9F else 0xBF)
  else if b < 0xF5 then
    some (b - 0xF0, 3, if b = 0xF0 then 0x90 else 0x80, if b = 0xF4 then 0x8F else 0xBF)
  else none

/-- Read the continuation bytes: the character, and what is left. -/
def utf8Continue (value : Nat) : (count lo hi : Nat) → List UInt8 → Char × List UInt8
  | 0, _, _, rest => (Char.ofNat value, rest)
  | _ + 1, _, _, [] => (replacementChar, [])
  | count + 1, lo, hi, b :: rest =>
      if lo ≤ b.toNat ∧ b.toNat ≤ hi then
        utf8Continue (value * 64 + (b.toNat - 0x80)) count 0x80 0xBF rest
      else (replacementChar, b :: rest)

/-- Decode at most `fuel` characters. -/
def decodeUtf8Aux : Nat → List UInt8 → Str
  | 0, _ => []
  | _ + 1, [] => []
  | fuel + 1, b :: rest =>
      match utf8Lead b.toNat with
      | none => replacementChar :: decodeUtf8Aux fuel rest
      | some (value, count, lo, hi) =>
          let (c, rest) := utf8Continue value count lo hi rest
          c :: decodeUtf8Aux fuel rest

/-- `bytes.decode("utf-8", errors="replace")`. Every character takes a
byte, so the length is fuel enough. -/
def decodeUtf8 (bytes : List UInt8) : Str := decodeUtf8Aux bytes.length bytes

/-- A two-byte character, a surrogate half and a truncated sequence. -/
example : decodeUtf8 [0xC3, 0xA9, 0xED, 0xA0, 0x80, 0x41, 0xE2, 0x82] =
    ['é', replacementChar, replacementChar, replacementChar, 'A', replacementChar] := by
  decide +kernel

end Sentinel.Py
